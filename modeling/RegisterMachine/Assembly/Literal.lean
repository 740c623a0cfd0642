import RegisterMachine.Failure
import RegisterMachine.Numeric.Decimal
import RegisterMachine.Numeric.Word
import RegisterMachine.Text.DecimalDigit

set_option autoImplicit false

/-! # Literals

A literal is an optional sign and one or more ASCII digits, with blanks around it allowed, and its
value has to be a signed 32-bit number. Every other text is unresolved. A run of digits beyond the
decimal digit limit is a failure, even where the text would be unresolved for what follows it. -/

namespace RegisterMachine.Assembly

/-- The word that stands for everything that could not be resolved. -/
def unresolved : Int := -1

/-- The blanks that may stand around a literal. -/
def isBlank (c : Char) : Bool :=
  c == ' ' || c == '\t' || c == '\n' || c == '\r'

/-- A sign at the start of a text, as whether it is a minus, and the rest. -/
def splitSign : List Char → Bool × List Char
  | '+' :: rest => (false, rest)
  | '-' :: rest => (true, rest)
  | text => (false, text)

/-- The ASCII digits at the start of a text, and the rest. -/
def splitDigits : List Char → List Nat × List Char
  | [] => ([], [])
  | c :: rest => match Text.asciiDigit? c with
    | some d => (d :: (splitDigits rest).1, (splitDigits rest).2)
    | none => ([], c :: rest)

/-- The number that a sign and digits spell. -/
def signedValue (negative : Bool) (digits : List Nat) : Int :=
  if negative then -(Decimal.value digits : Int) else Decimal.value digits

/-- The value of a literal, or `unresolved`. -/
def parseLiteral (text : List Char) : Except Failure Int :=
  let (negative, unsigned) := splitSign (text.dropWhile isBlank)
  let (digits, rest) := splitDigits unsigned
  if digits = [] then .ok unresolved
  else if Decimal.digitLimit < digits.length then .error .tooManyDigits
  else
    let value := signedValue negative digits
    if Word.Fits value ∧ rest.dropWhile isBlank = [] then .ok value else .ok unresolved

end RegisterMachine.Assembly
