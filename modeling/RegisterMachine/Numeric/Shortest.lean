import RegisterMachine.Numeric.Binary64
import RegisterMachine.Text.Trim

set_option autoImplicit false

/-! # Shortest decimal text

`Shortest.text` writes a binary64 number with the fewest significant digits that round back to it
and, among those, the nearest. Numbers from `10⁻⁴` up to `10¹⁶` are written positionally with at
least one digit after the point, all others with an exponent of at least two digits. -/

namespace RegisterMachine.Shortest

/-- How many times `unit` makes a number that rounds to `q`: of the two multiples around `q` the one
    that does, of both the nearer, and of two equally near the even one. -/
def onGrid? (q unit : Rat) : Option Int :=
  let below := (q / unit).floor
  let candidates := [below, below + 1].filter fun (n : Int) => Binary64.round (n * unit) == some q
  match candidates with
  | [] => none
  | [n] => some n
  | _ => some (Binary64.nearestInt (q / unit))

/-- The significant digits of `q`, as a number, and the power of ten they are multiplied by. Of the
    grids of 1 to 17 digits the first that has a number rounding to `q` is taken. -/
def digits (q : Rat) : Nat × Int :=
  let top := Binary64.magnitude 10 q
  let grids := (List.range 17).map fun (n : Nat) => top - n
  let hit := grids.findSome? fun place =>
    (onGrid? q ((10 : Rat) ^ place)).map fun n => (n.natAbs, place)
  hit.getD (0, 0)

/-- Digits without the zeros at their end, and the power of ten that accounts for those. -/
def dropZeros (digits : List Char) (place : Int) : List Char × Int :=
  let kept := Text.dropTrailing (· == '0') digits
  (kept, place + (digits.length - kept.length : Nat))

/-- The text of `digits · 10 ^ place` in positional notation, with at least one decimal. -/
def positional (digits : List Char) (place : Int) : List Char :=
  if 0 ≤ place then digits ++ List.replicate place.toNat '0' ++ ['.', '0']
  else
    let decimals := (-place).toNat
    let filled := List.leftpad (decimals + 1) '0' digits
    filled.take (filled.length - decimals) ++ '.' :: filled.drop (filled.length - decimals)

/-- The text of `digits · 10 ^ place` with an exponent. -/
def scientific (digits : List Char) (place : Int) : List Char :=
  let exponent := place + (digits.length - 1 : Nat)
  let mantissa := match digits with
    | [] => []
    | [d] => [d]
    | d :: rest => d :: '.' :: rest
  let sign := if exponent < 0 then '-' else '+'
  mantissa ++ 'e' :: sign :: List.leftpad 2 '0' (Nat.toDigits 10 exponent.natAbs)

/-- The shortest text of a binary64 number. -/
def text (q : Rat) : String :=
  if q = 0 then "0.0"
  else
    let (n, place) := digits q.abs
    let (digits, place) := dropZeros (Nat.toDigits 10 n) place
    let top := place + digits.length
    let body := if -4 < top ∧ top ≤ 16 then positional digits place else scientific digits place
    String.ofList (if q < 0 then '-' :: body else body)

end RegisterMachine.Shortest
