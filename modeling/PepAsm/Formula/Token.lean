import PepAsm.Scan.Lexeme
import PepAsm.Text.Digit
import PepAsm.Text.Format

namespace PepAsm.Formula

open PepAsm.Text PepAsm.Scan

inductive Token
  | empty
  | invalid
  | plus
  | times
  | parenOpen
  | parenClose
  | decimal (value : Int)
deriving Repr, DecidableEq

namespace Token

def lexeme (c : Char) (text : List Char) : Token × List Char :=
  if c = '\n' then (.empty, text)
  else if c = '(' then (.parenOpen, text)
  else if c = ')' then (.parenClose, text)
  else if c = '+' then (.plus, text)
  else if c = '*' then (.times, text)
  else if c = '-' then signedNumber .decimal .invalid (-1) text
  else
    match decimalValue? c with
    | some d => number .decimal 1 d text
    | none => (.invalid, text)

/-- The first character of a token tells by which rule it is read. All tokens but numbers are single
characters. -/
theorem lexeme_cases {motive : Char → Prop}
    (mark : ∀ c token, (∀ v, token ≠ .decimal v) → (lexeme c = fun text ↦ (token, text)) → motive c)
    (minus : lexeme '-' = signedNumber .decimal .invalid (-1) → motive '-')
    (decimal : ∀ c d, decimalValue? c = some d → lexeme c = number .decimal 1 d → motive c)
    (c : Char) : motive c := by
  by_cases hend : c = '\n'
  · exact hend ▸ mark '\n' .empty nofun rfl
  by_cases hopen : c = '('
  · exact hopen ▸ mark '(' .parenOpen nofun rfl
  by_cases hclose : c = ')'
  · exact hclose ▸ mark ')' .parenClose nofun rfl
  by_cases hplus : c = '+'
  · exact hplus ▸ mark '+' .plus nofun rfl
  by_cases htimes : c = '*'
  · exact htimes ▸ mark '*' .times nofun rfl
  by_cases hminus : c = '-'
  · exact hminus ▸ minus rfl
  cases hd : decimalValue? c with
  | some d => exact decimal c d hd (by funext text; simp [lexeme, *])
  | none => exact mark c .invalid nofun (by funext text; simp [lexeme, *])

theorem suffix_lexeme (c : Char) (text : List Char) : (lexeme c text).2 <:+ text := by
  cases c using lexeme_cases with
  | mark c token htoken h => exact h ▸ List.suffix_rfl
  | minus h => exact h ▸ suffix_signedNumber Token.decimal .invalid (-1) text
  | decimal c d hd h => exact h ▸ suffix_number Token.decimal 1 d text

theorem length_lexeme_le (c : Char) (text : List Char) :
    (lexeme c text).2.length ≤ text.length :=
  (suffix_lexeme c text).length_le

def scanner : Scanner Token :=
  .ofLexeme .empty lexeme length_lexeme_le

def kind : Token → String
  | .empty => "Empty"
  | .invalid => "Invalid"
  | .plus => "Plus"
  | .times => "Times"
  | .parenOpen => "ParenOpen"
  | .parenClose => "ParenClose"
  | .decimal _ => "Decimal"

def plus? : Token → Option Token
  | .plus => some .plus
  | _ => none

def times? : Token → Option Token
  | .times => some .times
  | _ => none

def parenOpen? : Token → Option Token
  | .parenOpen => some .parenOpen
  | _ => none

def parenClose? : Token → Option Token
  | .parenClose => some .parenClose
  | _ => none

def decimal? : Token → Option Token
  | .decimal n => some (.decimal n)
  | _ => none

/-- A token in postfix notation. Only operators and numbers show. -/
def text : Token → String
  | .plus => "+"
  | .times => "*"
  | .decimal n => Text.decimal n
  | .empty | .invalid | .parenOpen | .parenClose => ""

end Token

def postfixText (tokens : List Token) : String :=
  " ".intercalate (tokens.map Token.text)

end PepAsm.Formula
