import PepAsm.Assembly.Reading
import PepAsm.Command.Arguments
import PepAsm.Formula.Compiler
import PepAsm.Formula.Parser
import PepAsm.Recognizer.Identifier
import PepAsm.Recognizer.SignedDecimal

namespace PepAsm.Command

open PepAsm.Text PepAsm.Assembly PepAsm.Recognizer

inductive Failure
  | unreadable (message : Option String)
  | encode (e : EncodeError)
  | listing (e : ListingError)
  | valueless (digit : Char)
  | tooManyDigits
  | noSource
  /-- There is no text to take apart. -/
  | noText
  /-- There is no text to find a number in. -/
  | noNumber
  | noPath
  | missingFile
  | undecodable
deriving Repr, DecidableEq

def Failure.message : Failure → Option String
  | unreadable message => message
  | encode e => some e.message
  | listing e => some e.message
  | valueless digit =>
    some ("invalid literal for int() with base 10: '" ++ String.ofList [digit] ++ "'")
  | tooManyDigits =>
    some ("Exceeds the limit (4300 digits) for integer string conversion; " ++
      "use sys.set_int_max_str_digits() to increase the limit")
  | noSource => some "Expected either text or file"
  | noText => some "'list' object has no attribute 'rstrip'"
  | noNumber => some "can only concatenate list (not \"str\") to list"
  | noPath => some "expected str, bytes or os.PathLike object, not list"
  | missingFile | undecodable => none

structure Outcome where
  output : String := ""
  errors : String := ""
  failure : Option Failure := none
deriving Repr, DecidableEq

def Outcome.failed (failure : Failure) : Outcome :=
  { failure := some failure }

def shownDecimal (n : Int) : Except Failure String :=
  if (digits 10 n.natAbs).length ≤ 4300 then .ok (Text.decimal n) else .error .tooManyDigits

def runTable (text : String) : Outcome :=
  let verdict := if Identifier.accepts text then " is a valid identifier"
    else " is not a valid identifier"
  { output := unlines [text ++ verdict] }

def runVerdict : Verdict → Outcome
  | .rejected => { output := unlines ["Invalid Entry"] }
  | .valueless digit => .failed (.valueless digit)
  | .accepted n =>
    match shownDecimal n with
    | .ok s => { output := unlines ["Number = " ++ s] }
    | .error e => .failed e

def shownValue : Assembly.Token → Except Failure String
  | .identifier s | .symbol s | .comment s | .dot s | .call s => .ok ("value=" ++ quoted s)
  | .decimal n | .hexadecimal n => (shownDecimal n).map ("value=" ++ ·)
  | .string bytes => .ok ("value=" ++ String.ofList (shownBytes bytes))
  | .empty | .invalid | .comma => .ok ""

def describeToken (token : Assembly.Token) : Except Failure String :=
  (shownValue token).map fun value ↦ token.kind ++ "(" ++ value ++ ")"

def writeTokens : List Assembly.Token → Outcome
  | [] => {}
  | token :: tokens =>
    match describeToken token with
    | .error e => .failed e
    | .ok s =>
      let rest := writeTokens tokens
      { rest with output := s ++ "\n" ++ rest.output }

def runLex (text : String) : Outcome :=
  writeTokens (Assembly.Token.scanner.tokens (endLine text))

def shownToken : Formula.Token → Except Failure String
  | .decimal n => shownDecimal n
  | token => .ok token.text

def runExpr (text : String) : Outcome :=
  match Formula.parse (endLine text) with
  | .error _ => .failed (.unreadable none)
  | .ok tokens =>
    match tokens.mapM shownToken with
    | .error e => .failed e
    | .ok shown => { output := unlines [" ".intercalate shown] }

def runParser (text : String) : Outcome :=
  { output := unlines ((Assembly.parse text .system).lines.map Line.describe) }

def writeListing (image : Image) : Outcome :=
  match image.listing with
  | .error e => .failed (.listing e)
  | .ok lines => { output := unlines ["\n".intercalate lines] }

def reportFaults (faults : List Fault) : Outcome :=
  { errors := unlines (faults.map Fault.message)
    failure := some (.unreadable (some "Failed to generate object code")) }

def runCodegen (text : String) : Outcome :=
  let program := Assembly.parse text .system
  let unread := program.lines.filter Line.isError
  let image := program.image 0
  if !unread.isEmpty then
    { errors := unlines (unread.map Line.describe)
      failure := some (.unreadable (some "Failed to parse program")) }
  else if !image.faults.isEmpty then reportFaults image.faults
  else
    match image.objectCode with
    | .error e => .failed (.encode e)
    | .ok _ => writeListing image

def runExprcode (text : String) : Outcome :=
  match Formula.parse (endLine text) with
  | .error _ => .failed (.unreadable none)
  | .ok tokens =>
    let image := (Formula.compile tokens).image 0
    if !image.faults.isEmpty then reportFaults image.faults else writeListing image

def Job.run : Job → String → Outcome
  | .table => runTable
  | .direct => fun text ↦ runVerdict (SignedDecimal.recognize text)
  | .hexdirect => fun text ↦ runVerdict (Hexadecimal.recognize text)
  | .lex => runLex
  | .expr => runExpr
  | .parser => runParser
  | .codegen => runCodegen
  | .exprcode => runExprcode

/-- Carries out a job on no text at all, which is something else than an empty text. -/
def Job.runWithoutText : Job → Outcome
  | .table => { output := unlines ["[] is not a valid identifier"] }
  | .direct => .failed .noNumber
  | .hexdirect => runVerdict .rejected
  | .lex | .expr | .parser | .codegen | .exprcode => .failed .noText

def unifyLineBreaks : List Char → List Char
  | '\r' :: '\n' :: text => '\n' :: unifyLineBreaks text
  | '\r' :: text => '\n' :: unifyLineBreaks text
  | c :: text => c :: unifyLineBreaks text
  | [] => []

def fileText (content : Option ByteArray) : Except Failure String :=
  match content with
  | none => .error .missingFile
  | some bytes =>
    match String.fromUTF8? bytes with
    | none => .error .undecodable
    | some text => .ok (String.ofList (unifyLineBreaks text.toList))

/-- The text to work on. A text that is given outright goes before a file. -/
def inputText (files : String → Option ByteArray) (text file : Option String) :
    Except Failure String :=
  match text, file with
  | some text, _ => .ok text
  | none, some path => fileText (files path)
  | none, none => .error .noSource

def Job.runText (job : Job) : Except Failure String → Outcome
  | .error e => .failed e
  | .ok text => job.run text

def Job.runSource (files : String → Option ByteArray) (job : Job) : Source → Outcome
  | .text text => job.runText (inputText files (some text) none)
  | .file path => job.runText (inputText files none (some path))
  | .noText => job.runWithoutText
  | .noPath => .failed .noPath

def overview : String :=
  unlines
    ["usage: main [-h] \x7btable,direct,hexdirect,lex,expr,parser,codegen,exprcode\x7d ...",
     "",
     "positional arguments:",
     "  \x7btable,direct,hexdirect,lex,expr,parser,codegen,exprcode\x7d",
     "    table               A table-lookup FSM to recognize identifiers (Figure",
     "                        7.28)",
     "    direct              A direct-coded FSM to scan signed decimals (Figure",
     "                        7.29)",
     "    hexdirect           A direct-coded FSM to scan hex strings (Problem 7.18)",
     "    lex                 A multiple-token lexical analyzer for Pep/10 (Figure",
     "                        7.34",
     "    expr                A recursive descent parser for an expression grammar",
     "                        (Figure 7.41)",
     "    parser              A recursive descent parser for Pep/10 (Figure 7.49)",
     "    codegen             A code generator for Pep/10 (Figure 7.xx)",
     "    exprcode            A code generator for an expression grammar (Figure",
     "                        7.xx)",
     "",
     "options:",
     "  -h, --help            show this help message and exit"]

inductive Result
  | exit (code : Nat)
  | outcome (outcome : Outcome)
deriving Repr, DecidableEq

def run (files : String → Option ByteArray) (arguments : List String) : Result :=
  match Request.ofArguments arguments with
  | .overview => .outcome { output := overview }
  | .exit code => .exit code
  | .run job source => .outcome (job.runSource files source)

end PepAsm.Command
