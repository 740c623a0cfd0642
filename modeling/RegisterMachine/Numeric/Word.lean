import RegisterMachine.Numeric.Decimal

set_option autoImplicit false

/-! # Machine words

A program is a list of unbounded integers, while registers hold signed 32-bit values.
`Word.wrap` reduces an integer to the one signed 32-bit value with the same remainder modulo
`0x100000000` (`fits_wrap`, `wrap_emod`) and leaves a value that fits alone (`wrap_of_fits`). A
signed 32-bit value always has a decimal text (`Fits.writable`). -/

namespace RegisterMachine.Word

/-- Whether an integer is a signed 32-bit value. -/
def Fits (n : Int) : Prop :=
  -0x80000000 ≤ n ∧ n < 0x80000000

instance (n : Int) : Decidable (Fits n) :=
  inferInstanceAs (Decidable (_ ∧ _))

/-- The signed 32-bit value that differs from `n` by a multiple of `0x100000000`. -/
def wrap (n : Int) : Int :=
  n.bmod 0x100000000

theorem fits_zero : Fits 0 := by decide

theorem Fits.writable {n : Int} (h : Fits n) : Decimal.Writable n := by
  refine Decimal.writable_of_natAbs_lt ?_
  unfold Fits at h
  omega

theorem fits_wrap (n : Int) : Fits (wrap n) := by
  have lower := @Int.le_bmod n 0x100000000 (by decide)
  have upper := @Int.bmod_lt n 0x100000000 (by decide)
  unfold Fits wrap
  omega

theorem wrap_of_fits {n : Int} (h : Fits n) : wrap n = n := by
  unfold Fits at h
  unfold wrap
  apply Int.bmod_eq_of_le <;> omega

theorem wrap_emod (n : Int) : wrap n % 0x100000000 = n % 0x100000000 :=
  Int.bmod_emod

end RegisterMachine.Word
