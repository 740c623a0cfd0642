import RegisterMachine.Numeric.Binary64
import RegisterMachine.Numeric.Word
import Mathlib.Algebra.Order.Field.Power
import Mathlib.Data.Rat.Cast.Order
import Mathlib.Tactic.Linarith
import Mathlib.Tactic.NormNum
import Mathlib.Tactic.Positivity
import Mathlib.Tactic.Ring

set_option autoImplicit false

/-! # Durations that are too long

A number is too large for binary64 if it is nearer to `2 ^ 1024` than to the greatest number of the
format, which is `2 ^ 970` away from the middle; the middle itself is rounded up, to the even
significand (`round_eq_none_iff`). The proof bounds the unit by the magnitude (`magnitude_bounds`)
and the error by half a unit. In milliseconds the least duration that is too long is an integer
(`ofMilliseconds_eq_none_iff`). -/

namespace RegisterMachine.Binary64

/-! ## Magnitudes -/

section

variable {base : Nat}

/-- A number lies between the two powers that its length tells. -/
theorem pow_length_toDigits {n : Nat} (hbase : 1 < base) (hn : 0 < n) :
    (base : Rat) ^ ((Nat.toDigits base n).length - 1 : Int) ≤ n ∧
      (n : Rat) < (base : Rat) ^ ((Nat.toDigits base n).length : Int) := by
  have hpos : 0 < (Nat.toDigits base n).length := Nat.length_toDigits_pos
  have hupper : n < base ^ (Nat.toDigits base n).length :=
    (Nat.length_toDigits_le_iff hbase hpos).1 (Nat.le_refl _)
  generalize hlength : (Nat.toDigits base n).length = length at hpos hupper ⊢
  obtain ⟨shorter, rfl⟩ := Nat.exists_eq_add_one.2 hpos
  have hlower : base ^ shorter ≤ n := by
    cases shorter with
    | zero => rwa [Nat.pow_zero]
    | succ shorter =>
        by_contra hless
        have hle := (Nat.length_toDigits_le_iff hbase shorter.succ_pos).2 (Nat.lt_of_not_le hless)
        omega
  constructor
  · rw [Nat.cast_add_one, add_sub_cancel_right, zpow_natCast]
    exact_mod_cast hlower
  · rw [zpow_natCast]
    exact_mod_cast hupper

theorem magnitude_bounds (hbase : 1 < base) {q : Rat} (hq : 0 < q) :
    (base : Rat) ^ magnitude base q ≤ q ∧ q < (base : Rat) ^ (magnitude base q + 1) := by
  have hnum : 0 < q.num.natAbs := Int.natAbs_pos.2 (Rat.num_pos.2 hq).ne'
  obtain ⟨hnumLow, hnumHigh⟩ := pow_length_toDigits hbase hnum
  obtain ⟨hdenLow, hdenHigh⟩ := pow_length_toDigits hbase q.den_pos
  have hzero : (0 : Rat) < base := by exact_mod_cast Nat.zero_lt_of_lt hbase
  have hquotient : (q.num.natAbs : Rat) / q.den = q := by
    rw [Nat.cast_natAbs, abs_of_pos (Rat.num_pos.2 hq), Rat.num_div_den]
  simp only [magnitude, Rat.abs_of_nonneg hq.le]
  generalize ((Nat.toDigits base q.num.natAbs).length : Int) = above at *
  generalize ((Nat.toDigits base q.den).length : Int) = below at *
  -- The estimate is right or one too high, as the quotient of the two powers may be.
  have hlow : (base : Rat) ^ (above - below - 1) ≤ q := by
    rw [show above - below - 1 = above - 1 - below by ring, zpow_sub₀ hzero.ne', ← hquotient]
    exact div_le_div₀ (by positivity) hnumLow (by positivity) hdenHigh.le
  have hhigh : q < (base : Rat) ^ (above - below + 1) := by
    rw [show above - below + 1 = above - (below - 1) by ring, zpow_sub₀ hzero.ne']
    nth_rewrite 1 [← hquotient]
    exact div_lt_div₀ hnumHigh hdenLow (by positivity) (by positivity)
  split_ifs with hestimate
  · exact ⟨hestimate, hhigh⟩
  · rw [sub_add_cancel]
    exact ⟨hlow, lt_of_not_ge hestimate⟩

end

/-! ## Rounding up -/

/-- An even integer is rounded to from below as soon as it is half a unit away. -/
theorem le_nearestInt_of_even {n : Int} {q : Rat} (hn : n % 2 = 0) (h : (n : Rat) - 1 / 2 ≤ q) :
    n ≤ nearestInt q := by
  have hupper : q < q.floor + 1 := by
    have hfloor := Rat.lt_floor_add_one q
    rwa [Rat.intCast_add] at hfloor
  have hfloor : n ≤ q.floor + 1 := by
    by_contra hless
    have hcast : ((q.floor + 2 : Int) : Rat) ≤ n := by exact_mod_cast (by omega : q.floor + 2 ≤ n)
    push_cast at hcast
    linarith
  simp only [nearestInt]
  split_ifs with hbelow habove heven
  · have hcast : (n : Rat) < (q.floor + 1 : Int) := by
      push_cast
      linarith
    have hless : n < q.floor + 1 := by exact_mod_cast hcast
    omega
  · exact hfloor
  · omega
  · exact hfloor

section

variable {q unit : Rat}

theorem nearest_nonneg (hq : 0 ≤ q) (hunit : 0 < unit) : 0 ≤ nearestInt (q / unit) * unit := by
  have hquotient : 0 ≤ q / unit := by positivity
  have hzero : 0 ≤ nearestInt (q / unit) := le_nearestInt_of_even rfl (by push_cast; linarith)
  have hcast : (0 : Rat) ≤ nearestInt (q / unit) := by exact_mod_cast hzero
  positivity

theorem nearest_le (hunit : 0 < unit) : nearestInt (q / unit) * unit ≤ q + unit / 2 := by
  have hle := mul_le_mul_of_nonneg_right (nearestInt_le (q / unit)) hunit.le
  rwa [add_mul, div_mul_cancel₀ q hunit.ne', one_div_mul_eq_div] at hle

theorem le_nearest_of_even {n : Int} (hunit : 0 < unit) (hn : n % 2 = 0)
    (h : n * unit - unit / 2 ≤ q) : n * unit ≤ nearestInt (q / unit) * unit := by
  refine mul_le_mul_of_nonneg_right ?_ hunit.le
  have hquotient : (n : Rat) - 1 / 2 ≤ q / unit := by
    rw [le_div_iff₀ hunit]
    linarith
  exact_mod_cast le_nearestInt_of_even hn hquotient

end

/-! ## The bound -/

/-- The least number that is rounded to `2 ^ 1024`. -/
def overflow : Rat :=
  2 ^ (1024 : Int) - 2 ^ (970 : Int)

section

variable {q : Rat}

theorem lt_of_zpow_lt {a b : Int} (h : (2 : Rat) ^ a < 2 ^ b) : a < b :=
  (zpow_lt_zpow_iff_right₀ one_lt_two).1 h

theorem cast_pow_mul_zpow (k : Nat) (e : Int) :
    ((2 ^ k : Int) : Rat) * 2 ^ e = 2 ^ (k + e : Int) := by
  rw [zpow_add₀ two_ne_zero, zpow_natCast, Int.cast_pow, Int.cast_ofNat]

/-- From below the bound, half a unit does not reach `2 ^ 1024`. -/
theorem nearest_lt_of_lt_overflow (hq : 0 < q) (h : q < overflow) :
    (nearestInt (q / 2 ^ lastPlace q) * 2 ^ lastPlace q : Rat) < 2 ^ (1024 : Int) := by
  obtain ⟨hlow, -⟩ := magnitude_bounds one_lt_two hq
  have hbelow : (0 : Rat) < 2 ^ (970 : Int) := by positivity
  -- The unit of a number below `2 ^ 1024` is at most `2 ^ 971`, also near zero.
  have hmagnitude : magnitude 2 q < 1024 :=
    lt_of_zpow_lt (hlow.trans_lt (h.trans (sub_lt_self _ hbelow)))
  have hplace : (2 : Rat) ^ lastPlace q ≤ 2 * 2 ^ (970 : Int) := by
    rw [← zpow_one_add₀ two_ne_zero]
    exact zpow_le_zpow_right₀ one_le_two (by unfold lastPlace; omega)
  calc (nearestInt (q / 2 ^ lastPlace q) * 2 ^ lastPlace q : Rat)
      ≤ q + 2 ^ lastPlace q / 2 := nearest_le (by positivity)
    _ ≤ q + 2 ^ (970 : Int) := by linarith
    _ < 2 ^ (1024 : Int) := lt_sub_iff_add_lt.1 h

theorem le_magnitude_of_overflow_le (hq : 0 < q) (h : overflow ≤ q) : 1023 ≤ magnitude 2 q := by
  obtain ⟨-, hhigh⟩ := magnitude_bounds one_lt_two hq
  have hhalf : (2 : Rat) ^ (1024 : Int) = 2 * 2 ^ (1023 : Int) :=
    zpow_one_add₀ (two_ne_zero' Rat) 1023
  have hsmall : (2 : Rat) ^ (970 : Int) < 2 ^ (1023 : Int) :=
    zpow_lt_zpow_right₀ one_lt_two (by decide)
  have hless : (2 : Rat) ^ (1023 : Int) < 2 ^ (magnitude 2 q + 1) := by
    refine lt_of_lt_of_le ?_ (h.trans hhigh.le)
    rw [overflow, hhalf]
    generalize (2 : Rat) ^ (1023 : Int) = half at hsmall ⊢
    linarith
  have := lt_of_zpow_lt hless
  omega

/-- Numbers from the bound on are rounded to `2 ^ 1024` or more. -/
theorem le_nearest_of_overflow_le (hq : 0 < q) (h : overflow ≤ q) :
    2 ^ (1024 : Int) ≤ (nearestInt (q / 2 ^ lastPlace q) * 2 ^ lastPlace q : Rat) := by
  obtain ⟨hlow, -⟩ := magnitude_bounds one_lt_two hq
  have hmagnitude := le_magnitude_of_overflow_le hq h
  have hplace : lastPlace q = magnitude 2 q - 52 := by
    unfold lastPlace
    omega
  have hunit : (0 : Rat) < 2 ^ lastPlace q := by positivity
  rcases hmagnitude.eq_or_lt with hequal | hmore
  · -- The bound is half a unit below `2 ^ 53` units.
    have hplace : lastPlace q = 971 := by omega
    have hnumber : ((2 ^ 53 : Int) : Rat) * 2 ^ lastPlace q = 2 ^ (1024 : Int) := by
      rw [cast_pow_mul_zpow, hplace]
      rfl
    have hhalf : (2 : Rat) ^ lastPlace q / 2 = 2 ^ (970 : Int) := by
      rw [hplace, div_eq_mul_inv, ← zpow_sub_one₀ (two_ne_zero' Rat)]
      rfl
    rw [← hnumber]
    refine le_nearest_of_even hunit (by norm_num) ?_
    rw [hnumber, hhalf]
    exact h
  · -- At this magnitude the number is at least `2 ^ 52` units, which are `2 ^ 1024` or more.
    have hnumber : ((2 ^ 52 : Int) : Rat) * 2 ^ lastPlace q = 2 ^ magnitude 2 q := by
      rw [cast_pow_mul_zpow, hplace, Nat.cast_ofNat, add_sub_cancel]
    calc (2 : Rat) ^ (1024 : Int)
        ≤ 2 ^ magnitude 2 q := zpow_le_zpow_right₀ one_le_two hmore
      _ = ((2 ^ 52 : Int) : Rat) * 2 ^ lastPlace q := hnumber.symm
      _ ≤ nearestInt (q / 2 ^ lastPlace q) * 2 ^ lastPlace q := by
        refine le_nearest_of_even hunit (by norm_num) ?_
        rw [hnumber]
        exact (sub_le_self _ (by positivity)).trans hlow

theorem round_eq_none_iff (hq : 0 < q) : round q = none ↔ overflow ≤ q := by
  have hunit : (0 : Rat) < 2 ^ lastPlace q := by positivity
  have hpow : (2 : Rat) ^ (1024 : Nat) = 2 ^ (1024 : Int) := (zpow_natCast 2 1024).symm
  simp only [round, if_neg hq.ne', hpow, Rat.abs_of_nonneg (nearest_nonneg hq.le hunit)]
  constructor
  · intro hnone
    by_contra hless
    rw [if_pos (nearest_lt_of_lt_overflow hq (lt_of_not_ge hless))] at hnone
    cases hnone
  · intro hle
    rw [if_neg (le_nearest_of_overflow_le hq hle).not_gt]

end

/-! ## Milliseconds -/

/-- The least number of milliseconds that is too long a duration. -/
def overflowMilliseconds : Int :=
  1000 * (2 ^ 1024 - 2 ^ 970)

theorem word_lt_overflowMilliseconds : 0x80000000 < overflowMilliseconds := by
  decide +kernel

theorem cast_overflowMilliseconds : (overflowMilliseconds : Rat) = overflow * 1000 := by
  unfold overflowMilliseconds overflow
  generalize hhigh : (1024 : Nat) = high
  generalize hlow : (970 : Nat) = low
  rw [show (1024 : Int) = (high : Int) by omega, show (970 : Int) = (low : Int) by omega]
  push_cast
  rw [zpow_natCast, zpow_natCast, mul_comm]

/-- A duration is too long from the bound on; a negative one is as good as zero. -/
theorem ofMilliseconds_eq_none_iff {ms : Int} :
    ofMilliseconds (max ms 0) = none ↔ overflowMilliseconds ≤ ms := by
  have hbound := word_lt_overflowMilliseconds
  have hcast := cast_overflowMilliseconds
  generalize overflowMilliseconds = bound at hbound hcast ⊢
  rcases le_or_gt ms 0 with hms | hms
  · have hzero : ofMilliseconds 0 = some 0 := by
      simp [ofMilliseconds]
    rw [max_eq_right hms, hzero]
    constructor
    · intro h
      cases h
    · omega
  · have hseconds : (0 : Rat) < ms / 1000 := by
      have hpos : (0 : Rat) < ms := by exact_mod_cast hms
      positivity
    rw [max_eq_left hms.le, ofMilliseconds, round_eq_none_iff hseconds, le_div_iff₀ (by norm_num),
      ← hcast]
    exact Int.cast_le

end RegisterMachine.Binary64
