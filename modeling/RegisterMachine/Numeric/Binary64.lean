set_option autoImplicit false

/-! # Binary floating point

Durations are binary64 numbers. A finite one is represented by the rational number it stands for,
and `Binary64.round` gives the binary64 number nearest to a rational, a tie going to the even
significand, or `none` where that is too large for the format. `nearestInt` is the same rule for
integers: it is never more than one half above (`nearestInt_le`). -/

namespace RegisterMachine.Binary64

/-- The integer nearest to `q`; of two, the even one. -/
def nearestInt (q : Rat) : Int :=
  let below := q.floor
  let rest := q - below
  if rest < 1 / 2 then below
  else if 1 / 2 < rest then below + 1
  else if below % 2 = 0 then below else below + 1

theorem nearestInt_le (q : Rat) : nearestInt q ≤ q + 1 / 2 := by
  have lower := Rat.floor_le q
  simp only [nearestInt]
  split
  · grind
  · split
    · rw [Rat.intCast_add]
      grind
    · split
      · grind
      · rw [Rat.intCast_add]
        grind

/-- The greatest `e` with `base ^ e ≤ |q|`, for `q` other than zero. -/
def magnitude (base : Nat) (q : Rat) : Int :=
  let estimate := (Nat.toDigits base q.num.natAbs).length - ((Nat.toDigits base q.den).length : Int)
  if (base : Rat) ^ estimate ≤ q.abs then estimate else estimate - 1

/-- The exponent of the last place of the binary64 numbers around `q`: there are 53 significant
    bits, fewer near zero. -/
def lastPlace (q : Rat) : Int :=
  max (magnitude 2 q - 52) (-1074)

/-- The binary64 number nearest to `q`, or `none` where it would be `2 ^ 1024` or more. -/
def round (q : Rat) : Option Rat :=
  if q = 0 then some 0
  else
    let unit := (2 : Rat) ^ lastPlace q
    let nearest := nearestInt (q / unit) * unit
    if nearest.abs < 2 ^ (1024 : Nat) then some nearest else none

/-- The binary64 number of seconds nearest to a number of milliseconds. -/
def ofMilliseconds (ms : Int) : Option Rat :=
  round (ms / 1000)

/-- Whether the rounded difference of two binary64 numbers is less than a third one. -/
def differenceLess (a b bound : Rat) : Bool :=
  match round (a - b) with
  | some difference => difference < bound
  | none => a < b

@[simp] theorem round_zero : round 0 = some 0 := rfl

end RegisterMachine.Binary64
