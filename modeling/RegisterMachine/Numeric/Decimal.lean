set_option autoImplicit false

/-! # Decimal text of integers

Integers are read and written in decimal, but only up to `digitLimit` digits: a longer number has
no text, and a longer text has no value. `Writable n` says that `n` is within the limit; every
64-bit number is (`writable_of_natAbs_lt`). The sign does not count, leading zeros do. -/

namespace RegisterMachine.Decimal

/-- The greatest number of digits that can be read or written. -/
def digitLimit : Nat := 4300

/-- The least number that has more than `digitLimit` digits. -/
def writableBound : Nat := Nat.pow 10 digitLimit

/-- Whether an integer has a decimal text within the digit limit. -/
def Writable (n : Int) : Prop :=
  n.natAbs < writableBound

instance (n : Int) : Decidable (Writable n) :=
  inferInstanceAs (Decidable (_ < _))

theorem writable_of_natAbs_lt_pow {n : Int} {k : Nat} (hk : k ≤ digitLimit)
    (h : n.natAbs < Nat.pow 10 k) : Writable n := by
  unfold Writable writableBound
  generalize digitLimit = limit at hk
  exact Nat.lt_of_lt_of_le h (Nat.pow_le_pow_right (by decide) hk)

theorem writable_of_natAbs_lt {n : Int} (h : n.natAbs < 0x10000000000000000) : Writable n :=
  writable_of_natAbs_lt_pow (k := 20) (by decide) (Nat.lt_of_lt_of_le h (by decide))

/-- The decimal text of an integer: a minus sign where it is negative, then its digits without
    leading zeros. -/
def text (n : Int) : String :=
  toString n

/-- The decimal text of a natural number, filled up with zeros on the left to `width` digits. -/
def padded (width n : Nat) : String :=
  String.ofList (List.leftpad width '0' (Nat.toDigits 10 n))

/-- The number that decimal digits spell, the most significant first. -/
def value (digits : List Nat) : Nat :=
  digits.foldl (fun acc d => 10 * acc + d) 0

end RegisterMachine.Decimal
