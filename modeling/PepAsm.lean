import PepAsm.Assembly.Reading
import PepAsm.Command.Run
import PepAsm.Formula.Compiler
import PepAsm.Formula.Parser
import PepAsm.Macro
import PepAsm.Main
import PepAsm.Recognizer.Identifier
import PepAsm.Recognizer.SignedDecimal
import PepAsm.Workload.Run
import PepAsm.Proofs.Assembly.Placement
import PepAsm.Proofs.Assembly.MemoryImage
import PepAsm.Proofs.Assembly.LineLocality
import PepAsm.Proofs.Assembly.Segments
import PepAsm.Proofs.Assembly.LineScan
import PepAsm.Proofs.Assembly.Synchronization
import PepAsm.Proofs.Assembly.Grammar
import PepAsm.Proofs.Assembly.Spelling
import PepAsm.Proofs.Assembly.Acceptance
import PepAsm.Proofs.Assembly.Transcription
import PepAsm.Proofs.Assembly.Printing
import PepAsm.Proofs.Assembly.RoundTrip
import PepAsm.Proofs.Assembly.References
import PepAsm.Proofs.Assembly.Encoding
import PepAsm.Proofs.Formula.Derivation
import PepAsm.Proofs.Formula.Parsing
import PepAsm.Proofs.Machine.Execution
import PepAsm.Proofs.Formula.Subroutines
import PepAsm.Proofs.Formula.Evaluation
import PepAsm.Proofs.Assembly.Disassembly
import PepAsm.Proofs.Formula.Termination
import PepAsm.Proofs.Formula.Spelling
import PepAsm.Proofs.Formula.Printing
import PepAsm.Proofs.Command.Expression
import PepAsm.Proofs.Assembly.Mentions
import PepAsm.Proofs.Assembly.WriteOnce
import PepAsm.Proofs.Assembly.AddressSpace
import PepAsm.Proofs.Formula.ClosedCode
import PepAsm.Proofs.Machine.StackDepth
import PepAsm.Proofs.Formula.StackBalance
import PepAsm.Proofs.Formula.EarlyRejection
import PepAsm.Proofs.Assembly.NumberTokens
import PepAsm.Proofs.Scan.Linewise
import PepAsm.Proofs.Assembly.TableGrowth
import PepAsm.Proofs.Scan.Refinement
import PepAsm.Proofs.Assembly.Listing
import PepAsm.Proofs.Assembly.StringOperand
import PepAsm.Proofs.Macro.Substitution
import PepAsm.Proofs.Macro.Simultaneous
import PepAsm.Proofs.Recognizer.SignedDecimal
import PepAsm.Proofs.Recognizer.Identifier
import PepAsm.Proofs.Recognizer.Agreement
import PepAsm.Proofs.Assembly.Totality
import PepAsm.Proofs.Formula.Generation
