import RegisterMachine.Machine.Run

set_option autoImplicit false

/-! # Reachable machines

`Machine.Reaches` relates a machine to all those that it passes on its way: after any number of
steps, each with or without a flush behind it. Every moment of a run is one of them
(`Reaches.advance`, `Reaches.run`), and what steps and flushes keep, all of them have
(`Reaches.invariant`). `Machine.Passes` also lists the machines on the way; there is such a list for
the machines that are reached and for no others (`reaches_iff_exists_passes`). -/

namespace RegisterMachine.Machine

/-- The machines that a machine comes to. -/
inductive Reaches (m : Machine) : Machine → Prop where
  | refl : Reaches m m
  | step {m' : Machine} (flush : Bool) (h : Reaches m m') :
      Reaches m (m'.stepAndFlush flush).machine

/-- The machines that a machine comes to, with all those that have made a step on the way, in
    order. -/
inductive Passes (m : Machine) : List Machine → Machine → Prop where
  | refl : Passes m [] m
  | step {before : List Machine} {m' : Machine} (flush : Bool) (h : Passes m before m') :
      Passes m (before ++ [m']) (m'.stepAndFlush flush).machine

variable {m m' : Machine}

/-- After a step there is at most a flush. -/
theorem stepAndFlush_machine (m : Machine) (flush : Bool) :
    (m.stepAndFlush flush).machine = m.step.machine ∨
      (m.stepAndFlush flush).machine = m.step.machine.refresh.1 := by
  cases hflush : flush && m.step.failure.isNone with
  | true => exact Or.inr (by simp [stepAndFlush, hflush])
  | false => exact Or.inl (by simp [stepAndFlush, hflush])

namespace Reaches

/-- A step alone is one without a flush behind it. -/
theorem plainStep (h : m.Reaches m') : m.Reaches m'.step.machine :=
  h.step false

/-- The next moment of a run is one step away. -/
theorem next {run : Run} (h : m.Reaches run.machine) (flush : Bool) :
    m.Reaches (run.next flush).machine :=
  h.step flush

theorem advance {run : Run} (h : m.Reaches run.machine) (flush : Bool) (count : Nat) :
    m.Reaches (run.advance flush count).machine := by
  induction count generalizing run with
  | zero => exact h
  | succ count ih =>
      rw [Run.advance]
      split
      · exact h
      · exact ih (h.next flush)

theorem run (h : m.Reaches m') (limit : Option Int) (flush : Bool) (fuel : Nat) :
    m.Reaches (m'.run limit flush fuel).machine := by
  have hstart : m.Reaches (Run.start m').machine := h
  cases limit with
  | none => exact hstart.advance flush fuel
  | some limit =>
      have hend := hstart.advance flush limit.toNat
      simp only [Machine.run, Run.finish, Run.atLimit]
      split
      · exact hend
      · split
        · exact hend
        · exact hend

/-- What every step and every flush keeps is true of all machines that are reached. -/
theorem invariant {P : Machine → Prop} (h : m.Reaches m') (hm : P m)
    (hstep : ∀ m, P m → P m.step.machine) (hrefresh : ∀ m, P m → P m.refresh.1) : P m' := by
  induction h with
  | refl => exact hm
  | @step m' flush _ ih =>
      rcases m'.stepAndFlush_machine flush with hturn | hturn
      · rw [hturn]
        exact hstep m' ih
      · rw [hturn]
        exact hrefresh _ (hstep m' ih)

end Reaches

/-- A step alone is one without a flush behind it. -/
theorem Passes.plainStep {before : List Machine} (h : m.Passes before m') :
    m.Passes (before ++ [m']) m'.step.machine :=
  h.step false

theorem Passes.reaches {before : List Machine} (h : m.Passes before m') : m.Reaches m' := by
  induction h with
  | refl => exact .refl
  | step flush _ ih => exact ih.step flush

/-- What is reached is what is come to by passing some machines. -/
theorem reaches_iff_exists_passes : m.Reaches m' ↔ ∃ before, m.Passes before m' := by
  constructor
  · intro h
    induction h with
    | refl => exact ⟨[], .refl⟩
    | step flush _ ih =>
        obtain ⟨before, hbefore⟩ := ih
        exact ⟨_, hbefore.step flush⟩
  · rintro ⟨before, h⟩
    exact h.reaches

end RegisterMachine.Machine
