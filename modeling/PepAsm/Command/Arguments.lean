import PepAsm.Text.Digit

namespace PepAsm.Command

inductive Job
  | table
  | direct
  | hexdirect
  | lex
  | expr
  | parser
  | codegen
  | exprcode
deriving Repr, DecidableEq

namespace Job

def all : List Job :=
  [table, direct, hexdirect, lex, expr, parser, codegen, exprcode]

def name : Job → String
  | table => "table"
  | direct => "direct"
  | hexdirect => "hexdirect"
  | lex => "lex"
  | expr => "expr"
  | parser => "parser"
  | codegen => "codegen"
  | exprcode => "exprcode"

def ofName? (s : String) : Option Job :=
  all.find? (·.name == s)

end Job

inductive Source
  | text (text : String)
  | file (path : String)
  /-- The flag for a text stands there, and the double dash that is its value was dropped. -/
  | noText
  | noPath
deriving Repr, DecidableEq

def Source.isText : Source → Bool
  | text _ | noText => true
  | file _ | noPath => false

inductive Request
  | overview
  /-- An end without a job: zero after help was asked for, two after a usage that is wrong. -/
  | exit (code : Nat)
  | run (job : Job) (source : Source)
deriving Repr, DecidableEq

def badUsage : Request :=
  .exit 2

inductive Flag
  | help
  | text
  | file
deriving Repr, DecidableEq

def commonFlags : List (String × Flag) :=
  [("-h", .help), ("--help", .help)]

def jobFlags : List (String × Flag) :=
  commonFlags ++ [("--text", .text), ("--file", .file)]

structure Attached where
  long : Bool
  text : List Char
deriving Repr, DecidableEq

inductive Reading
  | plain
  | flag (flag : Flag) (value : Option Attached)
  | unknown
  | ambiguous
deriving Repr, DecidableEq

/-- A minus sign and a decimal number, with or without a point. One line break may follow. -/
def isNegativeNumber (argument : List Char) : Bool :=
  match argument with
  | '-' :: number =>
    let number := if number.getLast? = some '\n' then number.dropLast else number
    match number.dropWhile Text.isDecimal with
    | [] => !number.isEmpty
    | '.' :: places => !places.isEmpty && places.all Text.isDecimal
    | _ => false
  | _ => false

/-- The flags that an argument may mean, and the value it attaches. A long flag may be cut short,
and a value follows it after an equals sign. A short flag has its value follow at once. -/
def candidates (flags : List (String × Flag)) (argument : List Char) :
    List (String × Flag) × Option Attached :=
  let name := argument.takeWhile (· != '=')
  if ['-', '-'].isPrefixOf argument then
    (flags.filter fun f ↦ name.isPrefixOf f.1.toList,
     match argument.dropWhile (· != '=') with
     | [] => none
     | _ :: value => some ⟨true, value⟩)
  else
    (flags.filter fun f ↦ f.1.toList == argument.take 2, some ⟨false, argument.drop 2⟩)

def readDashed (flags : List (String × Flag)) (argument : List Char) : Reading :=
  match argument.dropWhile (· != '='),
      flags.lookup (String.ofList (argument.takeWhile (· != '='))) with
  | _ :: value, some flag => .flag flag (some ⟨['-', '-'].isPrefixOf argument, value⟩)
  | _, _ =>
    match candidates flags argument with
    | ([], _) => if isNegativeNumber argument || argument.contains ' ' then .plain else .unknown
    | ([(_, flag)], value) => .flag flag value
    | _ => .ambiguous

/-- Reads a single argument. Flags begin with a minus sign, but a minus sign alone, a negative
number and a text with a space in it are plain. -/
def readArgument (flags : List (String × Flag)) (argument : String) : Reading :=
  match argument.toList with
  | '-' :: rest =>
    match flags.lookup argument with
    | some flag => .flag flag none
    | none => if rest.isEmpty then .plain else readDashed flags ('-' :: rest)
  | _ => .plain

/-- The code that a request for help with something attached ends with. Only a short flag may have
something attached, and that is the same flag again. -/
def helpCode (value : Attached) : Nat :=
  if !value.long && !value.text.isEmpty && value.text.all (· == 'h') then 0 else 2

structure Choice where
  source : Option Source := none
  excess : Bool := false
deriving Repr, DecidableEq

/-- Takes a source. A text and a file exclude each other, and of two of a kind the last counts. -/
def Choice.choose? (c : Choice) (source : Source) : Option Choice :=
  if c.source.all (·.isText == source.isText) then some { c with source := some source } else none

def Choice.request (c : Choice) (job : Job) : Request :=
  match c.source with
  | some source => if c.excess then badUsage else .run job source
  | none => badUsage

/-- The source that a flag names. A double dash counts as no value. -/
def sourceOf? (flag : Flag) (value : String) : Option Source :=
  match flag with
  | .text => some (if value = "--" then .noText else .text value)
  | .file => some (if value = "--" then .noPath else .file value)
  | .help => none

def readArguments (job : Job) : Choice → List String → Request
  | c, [] => c.request job
  | c, argument :: arguments =>
    if argument = "--" then ({ c with excess := true } : Choice).request job
    else
      match readArgument jobFlags argument with
      | .plain | .unknown => readArguments job { c with excess := true } arguments
      | .ambiguous => badUsage
      | .flag .help none => .exit 0
      | .flag .help (some value) => .exit (helpCode value)
      | .flag flag (some value) =>
        match (sourceOf? flag (String.ofList value.text)).bind c.choose? with
        | some c => readArguments job c arguments
        | none => badUsage
      | .flag flag none =>
        match arguments with
        | [] => badUsage
        | value :: arguments =>
          if value = "--" ∨ readArgument jobFlags value ≠ .plain then badUsage
          else
            match (sourceOf? flag value).bind c.choose? with
            | some c => readArguments job c arguments
            | none => badUsage

/-- Reads the arguments of a job. One that may mean several flags is found before any counts. -/
def readJob (job : Job) (excess : Bool) (arguments : List String) : Request :=
  if (arguments.takeWhile (· != "--")).any (readArgument jobFlags · == .ambiguous) then badUsage
  else readArguments job { excess } arguments

def readCommand (excess : Bool) : List String → Request
  | [] => badUsage
  | argument :: arguments =>
    if argument = "--" then badUsage
    else
      match readArgument commonFlags argument with
      | .flag _ none => .exit 0
      | .flag _ (some value) => .exit (helpCode value)
      | .unknown => readCommand true arguments
      | .ambiguous => badUsage
      | .plain =>
        match Job.ofName? argument with
        | some job => readJob job excess arguments
        | none => badUsage

def Request.ofArguments (arguments : List String) : Request :=
  if arguments.isEmpty then .overview else readCommand false arguments

end PepAsm.Command
