import RegisterMachine.Config.Value
import RegisterMachine.Toml.Quoted

set_option autoImplicit false

/-! # Scalars

The values of a document that hold no others: quoted texts, truth values, dates and times, integers
in four bases, and decimal fractions. `scanScalar` tries them in this order, so that a date is not
taken for the integer it begins with. -/

namespace RegisterMachine.Toml

/-! ## Dates and times -/

/-- Exactly so many ASCII digits as a number, and the characters after them. -/
def fixedDigits? (count : Nat) (chars : List Char) : Option (Nat × List Char) := do
  let digits ← (chars.take count).mapM Text.asciiDigit?
  if digits.length = count then return (Decimal.value digits, chars.drop count) else none

/-- Exactly so many digits of a number between two bounds. -/
def fixedNumber? (count least greatest : Nat) (chars : List Char) : Option (Nat × List Char) := do
  let (n, rest) ← fixedDigits? count chars
  if least ≤ n ∧ n ≤ greatest then return (n, rest) else none

/-- The characters after a fraction of a second, if one stands at the start. -/
def skipFraction (chars : List Char) : List Char :=
  match chars with
  | '.' :: rest =>
    let after := rest.dropWhile fun c => (Text.asciiDigit? c).isSome
    if after.length < rest.length then after else chars
  | _ => chars

/-- The characters after a time of day. -/
def afterTime? (chars : List Char) : Option (List Char) := do
  let (_, chars) ← fixedNumber? 2 0 23 chars
  let chars ← afterText? [':'] chars
  let (_, chars) ← fixedNumber? 2 0 59 chars
  let chars ← afterText? [':'] chars
  let (_, chars) ← fixedNumber? 2 0 59 chars
  return skipFraction chars

/-- The characters after an offset from universal time. -/
def afterOffset? (chars : List Char) : Option (List Char) :=
  match chars with
  | 'Z' :: rest | 'z' :: rest => some rest
  | '+' :: rest | '-' :: rest => do
    let (_, chars) ← fixedNumber? 2 0 23 rest
    let chars ← afterText? [':'] chars
    let (_, chars) ← fixedNumber? 2 0 59 chars
    return chars
  | _ => none

/-- The characters after the time that may follow a date. -/
def skipDayTime (chars : List Char) : List Char :=
  match chars with
  | 'T' :: rest | 't' :: rest | ' ' :: rest => match afterTime? rest with
    | some after => (afterOffset? after).getD after
    | none => chars
  | _ => chars

/-- The number of days of a month. -/
def daysInMonth (year month : Nat) : Nat :=
  if month = 2 then
    if year % 4 = 0 ∧ (year % 100 ≠ 0 ∨ year % 400 = 0) then 29 else 28
  else if month = 4 ∨ month = 6 ∨ month = 9 ∨ month = 11 then 30
  else 31

/-- A date as year, month and day, and the characters after it. -/
def scanDate? (chars : List Char) : Option ((Nat × Nat × Nat) × List Char) := do
  let (year, chars) ← fixedDigits? 4 chars
  let chars ← afterText? ['-'] chars
  let (month, chars) ← fixedNumber? 2 1 12 chars
  let chars ← afterText? ['-'] chars
  let (day, chars) ← fixedNumber? 2 1 31 chars
  return ((year, month, day), chars)

/-- A date with or without a time, or a time, or `none` where none stands at the start. A date that
    is not in the calendar is malformed. -/
def scanMoment? (chars : List Char) : Option (Except Failure (Value × List Char)) :=
  match scanDate? chars with
  | some ((year, month, day), rest) =>
    if year ≠ 0 ∧ day ≤ daysInMonth year month then some (.ok (.moment, skipDayTime rest))
    else some malformed
  | none => (afterTime? chars).map fun rest => .ok (.moment, rest)

/-! ## Numbers -/

/-- The value of a digit that is less than a base. -/
def digitBelow? (base : Nat) (c : Char) : Option Nat := do
  let d ← hexDigit? c
  if d < base then return d else none

/-- An integer with a mark for its base. -/
def scanBased? (chars : List Char) : Option (Value × List Char) := do
  let (base, rest) ← match chars with
    | '0' :: 'x' :: rest => some (16, rest)
    | '0' :: 'o' :: rest => some (8, rest)
    | '0' :: 'b' :: rest => some (2, rest)
    | _ => none
  let (digits, after) ← digitsOf? (digitBelow? base) rest
  return (.integer (digits.foldl (fun acc d => base * acc + d) 0 : Nat), after)

/-- The digits of a whole number, which has no zeros in front. -/
def scanWhole? : List Char → Option (List Nat × List Char)
  | '0' :: rest => some ([0], rest)
  | chars => digitsOf? Text.asciiDigit? chars

/-- The decimals behind a point, if there are any. -/
def scanDecimals (chars : List Char) : List Nat × List Char :=
  match chars with
  | '.' :: rest => (digitsOf? Text.asciiDigit? rest).getD ([], chars)
  | _ => ([], chars)

/-- A sign, as whether it is a minus, if one stands at the start. -/
def scanSign : List Char → Bool × List Char
  | '+' :: rest => (false, rest)
  | '-' :: rest => (true, rest)
  | chars => (false, chars)

/-- A number with the sign it has. -/
def signed (negative : Bool) (n : Nat) : Int :=
  if negative then -n else n

/-- The exponent of ten, if there is one. -/
def scanExponent? (chars : List Char) : Option (Int × List Char) := do
  let rest ← match chars with
    | 'e' :: rest | 'E' :: rest => some rest
    | _ => none
  let (negative, rest) := scanSign rest
  let (digits, rest) ← digitsOf? Text.asciiDigit? rest
  return (signed negative (Decimal.value digits), rest)

/-- A decimal integer or fraction, or `none` where none stands at the start. An integer beyond the
    decimal digit limit is a failure. -/
def scanDecimal? (chars : List Char) : Option (Except Failure (Value × List Char)) := do
  let (negative, rest) := scanSign chars
  let (whole, rest) ← scanWhole? rest
  let (decimals, rest) := scanDecimals rest
  let exponent? := scanExponent? rest
  if decimals = [] ∧ exponent?.isNone then
    if Decimal.digitLimit < whole.length then return .error .tooManyDigits
    else return .ok (.integer (signed negative (Decimal.value whole)), rest)
  else
    let (exponent, rest) := exponent?.getD (0, rest)
    let value := Value.ofDecimal negative (Decimal.value (whole ++ decimals))
      (exponent - decimals.length)
    return .ok (value, rest)

/-- A number without digits: infinity, or what is no number. -/
def scanSpecial? (chars : List Char) : Option (Value × List Char) :=
  let unsigned := (scanSign chars).2
  match afterText? ['i', 'n', 'f'] unsigned, afterText? ['n', 'a', 'n'] unsigned with
  | some rest, _ => some (.infinity, rest)
  | none, some rest => some (.notANumber, rest)
  | none, none => none

/-! ## Scalars -/

/-- A truth value. -/
def scanBoolean? (chars : List Char) : Option (Value × List Char) :=
  match afterText? ['t', 'r', 'u', 'e'] chars, afterText? ['f', 'a', 'l', 's', 'e'] chars with
  | some rest, _ => some (.boolean true, rest)
  | none, some rest => some (.boolean false, rest)
  | none, none => none

/-- A value that holds no others. -/
def scanScalar (chars : List Char) : Except Failure (Value × List Char) :=
  let text? := (scanQuoted? chars).map fun result =>
    result.map fun (text, rest) => (Value.text (String.ofList text), rest)
  let found := text?
    <|> (scanBoolean? chars).map .ok
    <|> scanMoment? chars
    <|> (scanBased? chars).map .ok
    <|> scanDecimal? chars
    <|> (scanSpecial? chars).map .ok
  found.getD malformed

end RegisterMachine.Toml
