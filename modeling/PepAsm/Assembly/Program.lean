import PepAsm.Assembly.Line

namespace PepAsm.Assembly

structure Program where
  lines : List Line
  symbols : SymbolTable
deriving Repr, DecidableEq

inductive Fault
  | unread (reason : Option String)
  | multiplyDefined (name : String)
  | undefined (name : String)
deriving Repr, DecidableEq

def Fault.message : Fault → String
  | unread reason => Line.errorSource reason
  | multiplyDefined name => "Multiply defined symbol: " ++ name
  | undefined name => "Undefined symbol: " ++ name

structure Image where
  lines : List Line
  symbols : SymbolTable
  faults : List Fault
deriving Repr, DecidableEq

/-- Gives the symbol that a line declares the address of the line, unless it has more than one
definition. -/
def CodeLine.declare (symbols : SymbolTable) (address : Int) (line : CodeLine) :
    SymbolTable × List Fault :=
  match line.symbol with
  | none => (symbols, [])
  | some name =>
    if symbols.isMultiplyDefined name then (symbols, [.multiplyDefined name])
    else (symbols.setValue name (some address), [])

def CodeLine.undefined (symbols : SymbolTable) (line : CodeLine) : List Fault :=
  match line.argument? with
  | some (.symbol name) => if symbols.isUndefined name then [.undefined name] else []
  | _ => []

/-- Puts lines into memory one after the other from an address on. Lines that could not be read
are left out. -/
def place (symbols : SymbolTable) (address : Int) : List Line → Image
  | [] => ⟨[], symbols, []⟩
  | .error reason :: lines =>
    let image := place symbols address lines
    { image with faults := .unread reason :: image.faults }
  | .code line :: lines =>
    let (declared, faults) := line.declare symbols address
    let image := place declared (address + line.size) lines
    { image with
      lines := .code { line with address := some address } :: image.lines
      faults := faults ++ line.undefined declared ++ image.faults }
  | line :: lines =>
    let image := place symbols address lines
    { image with lines := line :: image.lines }

namespace Program

def image (p : Program) (base : Int) : Image :=
  place p.symbols base p.lines

end Program

def collect {α β ε : Type} (f : α → Except ε (List β)) (items : List α) : Except ε (List β) :=
  (items.mapM f).map List.flatten

namespace Image

def codeLines (i : Image) : List CodeLine :=
  i.lines.filterMap Line.code?

def objectCode (i : Image) : Except EncodeError (List UInt8) :=
  collect (CodeLine.bytes i.symbols) i.codeLines

def source (i : Image) : List String :=
  i.lines.map Line.source

def listing (i : Image) : Except ListingError (List String) :=
  collect (Line.listing i.symbols) i.lines

end Image

end PepAsm.Assembly
