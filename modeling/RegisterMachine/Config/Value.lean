import RegisterMachine.Failure
import RegisterMachine.Numeric.Binary64
import RegisterMachine.Numeric.Decimal
import RegisterMachine.Text.DecimalDigit
import RegisterMachine.Text.Separator
import RegisterMachine.Text.Trim

set_option autoImplicit false

/-! # Configuration values

A configuration document holds `Value`s of many kinds, while a parameter is an integer.
`Value.toInteger` says which integer a value stands for: a truth value counts as zero or one, a
fraction is cut off, and a text has to spell an integer in digits of any script, with single
underscores allowed between digits. -/

namespace RegisterMachine

/-- A value of a configuration document. -/
inductive Value where
  /-- The value that leaves a parameter as it is. -/
  | null
  | boolean (b : Bool)
  | integer (n : Int)
  /-- A finite binary64 number. -/
  | real (q : Rat)
  | infinity
  | notANumber
  | text (content : String)
  /-- A date, a time, or both. -/
  | moment
  | list (items : List Value)
  | table (entries : List (String × Value))

namespace Value

/-! ## Numbers -/

/-- The binary64 number nearest to `±m · 10 ^ e`. Far beyond either end of the range the power is
    not computed. -/
def ofDecimal (negative : Bool) (m : Nat) (e : Int) : Value :=
  let top := (Nat.toDigits 10 m).length + e
  if m = 0 ∨ top < -400 then real 0
  else if 400 < top then infinity
  else
    let q := (m : Rat) * (10 : Rat) ^ e
    match Binary64.round (if negative then -q else q) with
    | some nearest => real nearest
    | none => infinity

/-- The blanks that may stand around the digits of an integer: the ASCII ones that move the print
    position, and the separators beyond ASCII. -/
def isBlank (c : Char) : Bool :=
  c == ' ' || ('\t' ≤ c && c ≤ '\r') || (0x7F ≤ c.toNat && Text.isSeparator c)

/-- The values of one or more decimal digits, between which single underscores may stand. -/
def digits? : List Char → Option (List Nat)
  | [] => none
  | [c] => (Text.decimalDigit? c).map ([·])
  | c :: '_' :: rest => do
    let d ← Text.decimalDigit? c
    let later ← digits? rest
    return d :: later
  | c :: rest => do
    let d ← Text.decimalDigit? c
    let later ← digits? rest
    return d :: later

/-- The integer that a text spells: blanks, a sign, digits, blanks. -/
def integerOfText (content : List Char) : Except Failure Int :=
  let trimmed := Text.trim isBlank content
  let (negative, unsigned) := match trimmed with
    | '+' :: rest => (false, rest)
    | '-' :: rest => (true, rest)
    | _ => (false, trimmed)
  match digits? unsigned with
  | none => .error .notAnInteger
  | some digits =>
    if Decimal.digitLimit < digits.length then .error .tooManyDigits
    else
      let magnitude : Int := Decimal.value digits
      .ok (if negative then -magnitude else magnitude)

/-- The integer that a value stands for. -/
def toInteger : Value → Except Failure Int
  | boolean b => .ok (if b then 1 else 0)
  | integer n => .ok n
  | real q => .ok (q.num.tdiv q.den)
  | infinity => .error .infiniteNumber
  | notANumber => .error .undefinedNumber
  | text content => integerOfText content.toList
  | null | moment | list _ | table _ => .error .notNumeric

/-! ## Tables -/

/-- Sets a key of a table: in place if the table has it, at the end if not. -/
def put (key : String) (value : Value) : List (String × Value) → List (String × Value)
  | [] => [(key, value)]
  | (k, v) :: rest => if k = key then (key, value) :: rest else (k, v) :: put key value rest

/-- The table of pairs: each key once, where it first stands, with its last value. -/
def entriesOfPairs (pairs : List (String × Value)) : List (String × Value) :=
  pairs.foldl (fun entries (key, value) => put key value entries) []

end Value

end RegisterMachine
