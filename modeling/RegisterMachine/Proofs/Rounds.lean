import RegisterMachine.Proofs.Control
import RegisterMachine.Proofs.Transcript

set_option autoImplicit false

/-! # Runs in pieces

A run with a step limit does what a caller does who steps the machine by hand: a round is a step,
with an update of the screen behind it if the screen is to be flushed, and there are rounds until
the machine is halted or the limit is used up (`Machine.byHand`). As long as every step gives an
answer, a run is such rounds (`advance_byHand`); and as rounds can be made in pieces (`byHand_add`),
so can runs (`run_in_pieces`). -/

namespace RegisterMachine

/-- What happens besides logging. -/
def Event.unlogged (events : List Event) : List Event :=
  events.filter fun
    | .logged _ => false
    | _ => true

@[simp] theorem Event.unlogged_append (before after : List Event) :
    unlogged (before ++ after) = unlogged before ++ unlogged after := by
  rw [unlogged, List.filter_append]
  rfl

namespace Machine

/-! ## Rounds -/

def Operation.isStep : Operation → Bool
  | step => true
  | _ => false

/-- A step, and an update of the screen if it is to be flushed. -/
def round (flush : Bool) : List Operation :=
  .step :: if flush then [.screen .update] else []

/-- What is done by hand: up to a number of rounds, as long as the machine is not halted. -/
def byHand (flush : Bool) : Nat → Machine → List Operation
  | 0, _ => []
  | count + 1, m =>
    if m.halted then [] else round flush ++ byHand flush count (m.operateAll (round flush))

theorem byHand_of_halted {m : Machine} (h : m.halted = true) (flush : Bool) (count : Nat) :
    byHand flush count m = [] := by
  cases count with
  | zero => rfl
  | succ count => rw [byHand, if_pos h]

theorem byHand_add (flush : Bool) (a b : Nat) (m : Machine) :
    byHand flush (a + b) m =
      byHand flush a m ++ byHand flush b (m.operateAll (byHand flush a m)) := by
  induction a generalizing m with
  | zero =>
      rw [Nat.zero_add]
      rfl
  | succ a ih =>
      rw [Nat.succ_add, byHand, byHand]
      split_ifs with hm
      · exact (byHand_of_halted hm flush b).symm
      · rw [ih, operateAll_append, List.append_assoc]

/-- A round is a step of a run, as long as that gives an answer. -/
theorem stepAndFlush_eq_round {m : Machine} (flush : Bool) (h : m.step.failure = none) :
    (m.stepAndFlush flush).machine = m.operateAll (round flush) ∧
      (m.stepAndFlush flush).events = m.eventsOf (round flush) := by
  cases flush with
  | false => exact ⟨rfl, (List.append_nil _).symm⟩
  | true =>
      have hflush : (true && m.step.failure.isNone) = true := by rw [h]; rfl
      rw [stepAndFlush, if_pos hflush]
      refine ⟨rfl, ?_⟩
      show _ = m.step.events ++ (m.step.machine.screen.update.2.toList.map Event.flushed ++ [])
      rw [List.append_nil]
      rfl

theorem countP_isStep_round (flush : Bool) : (round flush).countP Operation.isStep = 1 := by
  cases flush <;> rfl

end Machine

/-! ## Runs -/

/-- The machine is halted or stands where its position can be written, in a program that is short
    enough for all its positions to be. -/
structure Machine.Placed (m : Machine) : Prop where
  size : m.program.size < Decimal.writableBound
  position : m.halted = true ∨ Decimal.Writable m.pc

namespace Run

open Machine

variable {run : Run} {flush : Bool} {count : Nat}

/-- A run that has no failure has had none before. -/
theorem failure_of_advance (h : (run.advance flush count).failure = none) : run.failure = none := by
  cases hfailure : run.failure with
  | none => rfl
  | some failure =>
      have hstopped : run.stopped = true := by
        rw [stopped, hfailure, Option.isSome_some, Bool.or_true]
      rw [advance_of_stopped hstopped, hfailure] at h
      cases h

theorem next_failure (run : Run) (flush : Bool) :
    (run.next flush).failure = run.machine.step.failure :=
  run.machine.stepAndFlush_failure flush

/-- A run makes a round, as long as its step gives an answer. -/
theorem next_eq_round (flush : Bool) (h : run.machine.step.failure = none) :
    (run.next flush).machine = run.machine.operateAll (round flush) ∧
      (run.next flush).steps = run.steps + 1 ∧
      (run.next flush).events.toList = run.events.toList ++ run.machine.eventsOf (round flush) := by
  obtain ⟨hmachine, hevents⟩ := stepAndFlush_eq_round flush h
  have hfailure : (run.machine.stepAndFlush flush).failure.isNone = true := by
    rw [stepAndFlush_failure, h]
    rfl
  refine ⟨hmachine, if_pos hfailure, ?_⟩
  show (run.events ++ (run.machine.stepAndFlush flush).events).toList = _
  rw [Array.toList_appendList, hevents]

/-- What becomes of the machine of a run does not depend on the steps and events so far. -/
theorem advance_congr {other : Run} (hmachine : run.machine = other.machine)
    (hfailure : run.failure = other.failure) (flush : Bool) (count : Nat) :
    (run.advance flush count).machine = (other.advance flush count).machine ∧
      (run.advance flush count).failure = (other.advance flush count).failure := by
  induction count generalizing run other with
  | zero => exact ⟨hmachine, hfailure⟩
  | succ count ih =>
      have hstopped : run.stopped = other.stopped := by rw [stopped, stopped, hmachine, hfailure]
      rw [advance, advance, hstopped]
      split_ifs
      · exact ⟨hmachine, hfailure⟩
      · refine ih ?_ ?_
        · exact congrArg (fun m => (m.stepAndFlush flush).machine) hmachine
        · exact congrArg (fun m => (m.stepAndFlush flush).failure) hmachine

/-- As long as every step gives an answer, advancing is making rounds. -/
theorem advance_byHand (h : (run.advance flush count).failure = none) :
    (run.advance flush count).machine =
        run.machine.operateAll (byHand flush count run.machine) ∧
      (run.advance flush count).steps =
        run.steps + (byHand flush count run.machine).countP Operation.isStep ∧
      (run.advance flush count).events.toList =
        run.events.toList ++ run.machine.eventsOf (byHand flush count run.machine) := by
  induction count generalizing run with
  | zero => exact ⟨rfl, rfl, (List.append_nil _).symm⟩
  | succ count ih =>
      have hfailure := failure_of_advance h
      rw [advance] at h ⊢
      cases hm : run.machine.halted with
      | true =>
          have hstopped : run.stopped = true := by rw [stopped, hm, Bool.true_or]
          rw [if_pos hstopped, byHand_of_halted hm]
          exact ⟨rfl, rfl, (List.append_nil _).symm⟩
      | false =>
          have hgoing : ¬ run.stopped = true := not_stopped_iff.2 ⟨hm, hfailure⟩
          rw [if_neg hgoing] at h ⊢
          have hstep : run.machine.step.failure = none := by
            rw [← next_failure run flush]
            exact failure_of_advance h
          obtain ⟨hmachine, hsteps, hevents⟩ := next_eq_round flush hstep
          obtain ⟨ihmachine, ihsteps, ihevents⟩ := ih h
          rw [hmachine] at ihmachine ihsteps ihevents
          rw [byHand, if_neg (Bool.not_eq_true _ ▸ hm)]
          refine ⟨?_, ?_, ?_⟩
          · rw [ihmachine, operateAll_append]
          · rw [ihsteps, hsteps, List.countP_append, countP_isStep_round, Nat.add_assoc]
          · rw [ihevents, hevents, eventsOf_append, List.append_assoc]

theorem placed_next (h : run.machine.Placed) (hfailure : (run.next flush).failure = none) :
    (run.next flush).machine.Placed := by
  have hreaches : run.machine.Reaches (run.next flush).machine := Reaches.refl.next flush
  have hsize : (run.next flush).machine.program.size < Decimal.writableBound := by
    rw [program_of_reaches hreaches]
    exact h.size
  refine ⟨hsize, ?_⟩
  rcases next_settled hfailure with hhalted | hpc
  · exact .inl hhalted
  · have := hpc.1
    have := hpc.2
    exact .inr (by unfold Decimal.Writable; omega)

theorem placed_advance (h : run.machine.Placed)
    (hfailure : (run.advance flush count).failure = none) :
    (run.advance flush count).machine.Placed := by
  induction count generalizing run with
  | zero => exact h
  | succ count ih =>
      rw [advance] at hfailure ⊢
      split_ifs at hfailure ⊢
      · exact h
      · exact ih (placed_next h (failure_of_advance hfailure)) hfailure

@[simp] theorem unlogged_atLimit (limit : Int) (run : Run) :
    Event.unlogged (run.atLimit limit).events.toList = Event.unlogged run.events.toList := by
  unfold atLimit
  split_ifs
  · rfl
  · rw [Array.toList_push, Event.unlogged_append]
    exact List.append_nil _
  · rfl

end Run

namespace Machine

/-- A run with a limit whose steps all give an answer, as rounds. -/
theorem run_byHand {m : Machine} {flush : Bool} {limit : Nat}
    (h : ((Run.start m).advance flush limit).failure = none) (fuel : Nat) :
    (m.run (some limit) flush fuel).machine = m.operateAll (byHand flush limit m) ∧
      (m.run (some limit) flush fuel).steps = (byHand flush limit m).countP Operation.isStep ∧
      Event.unlogged (m.run (some limit) flush fuel).events.toList =
        Event.unlogged (m.eventsOf (byHand flush limit m)) := by
  obtain ⟨hmachine, hsteps, hevents⟩ := Run.advance_byHand h
  obtain ⟨hlast, hcount, -⟩ := atLimit_machine limit ((Run.start m).advance flush limit)
  have hstart : Event.unlogged (Run.start m).events.toList = [] := rfl
  simp only [run, Run.finish, Int.toNat_natCast, hlast, hcount, Run.unlogged_atLimit]
  refine ⟨hmachine, hsteps.trans (Nat.zero_add _), ?_⟩
  rw [hevents, Event.unlogged_append, hstart]
  rfl

/-- Such a run fails at most for the notice of its limit. -/
theorem run_answers {m : Machine} {flush : Bool} {limit : Nat}
    (h : ((Run.start m).advance flush limit).failure = none) (hm : m.Placed)
    (hlimit : Decimal.Writable limit) (fuel : Nat) :
    (m.run (some limit) flush fuel).failure = none ∧
      (m.run (some limit) flush fuel).machine.Placed := by
  have hplaced : ((Run.start m).advance flush limit).machine.Placed := Run.placed_advance hm h
  simp only [run, Run.finish, Int.toNat_natCast]
  refine ⟨atLimit_failure h hlimit hplaced.position, ?_⟩
  rw [(atLimit_machine limit _).1]
  exact hplaced

/-- If every step gives an answer, a run of `a` steps and one of `b` steps leave the machine as one
    of `a + b` steps does, with as many steps in all and with the same lines, sleeps and frames in
    the same order; and so does a caller who steps the machine by hand. The runs themselves give
    their answers unless a limit or a position is too long to be written in a notice. -/
theorem run_in_pieces {m : Machine} {flush : Bool} {a b : Nat}
    (h : ((Run.start m).advance flush (a + b)).failure = none) (fuel : Nat) :
    let first := m.run (some a) flush fuel
    let second := first.machine.run (some b) flush fuel
    let whole := m.run (some ((a + b : Nat) : Int)) flush fuel
    let rounds := byHand flush (a + b) m
    (second.machine = whole.machine ∧ first.steps + second.steps = whole.steps ∧
      Event.unlogged (first.events.toList ++ second.events.toList) =
        Event.unlogged whole.events.toList) ∧
    (m.operateAll rounds = whole.machine ∧ rounds.countP Operation.isStep = whole.steps ∧
      Event.unlogged (m.eventsOf rounds) = Event.unlogged whole.events.toList) ∧
    (m.Placed → Decimal.Writable ((a + b : Nat) : Int) →
      first.failure = none ∧ second.failure = none ∧ whole.failure = none) := by
  intro first second whole rounds
  have hfirst : ((Run.start m).advance flush a).failure = none := by
    rw [Run.advance_add] at h
    exact Run.failure_of_advance h
  -- The second run goes on like the whole one, except that it counts its own steps.
  have hmachine : (Run.start first.machine).machine = ((Run.start m).advance flush a).machine :=
    (atLimit_machine a _).1
  have hsecond : ((Run.start first.machine).advance flush b).failure = none := by
    rw [(Run.advance_congr hmachine hfirst.symm flush b).2, ← Run.advance_add]
    exact h
  obtain ⟨hleft, hleftSteps, hleftEvents⟩ := run_byHand hfirst fuel
  obtain ⟨hright, hrightSteps, hrightEvents⟩ := run_byHand hsecond fuel
  obtain ⟨hwhole, hwholeSteps, hwholeEvents⟩ := run_byHand h fuel
  have hrounds : byHand flush (a + b) m = byHand flush a m ++ byHand flush b first.machine := by
    rw [byHand_add, ← hleft]
  refine ⟨⟨?_, ?_, ?_⟩, ⟨hwhole.symm, hwholeSteps.symm, hwholeEvents.symm⟩, ?_⟩
  · rw [hright, hwhole, hrounds, operateAll_append, ← hleft]
  · rw [hleftSteps, hrightSteps, hwholeSteps, hrounds, List.countP_append]
  · rw [Event.unlogged_append, hleftEvents, hrightEvents, hwholeEvents, hrounds, eventsOf_append,
      Event.unlogged_append, ← hleft]
  · intro hm hlimit
    have hpart {n : Nat} (hn : n ≤ a + b) : Decimal.Writable n := by
      unfold Decimal.Writable at hlimit ⊢
      omega
    obtain ⟨hfirstFailure, hplaced⟩ := run_answers hfirst hm (hpart (Nat.le_add_right a b)) fuel
    exact ⟨hfirstFailure, (run_answers hsecond hplaced (hpart (Nat.le_add_left b a)) fuel).1,
      (run_answers h hm hlimit fuel).1⟩

/-- A program that prints in the first piece and halts in the second, before its limit. -/
theorem run_in_pieces_halting :
    let m := (fresh Screen.dot).load [11, 0, 7, 60, 0, 62, 255] "" false
    let first := m.run (some (2 : Nat)) true 0
    let second := first.machine.run (some (5 : Nat)) true 0
    let whole := m.run (some (7 : Nat)) true 0
    first.steps = 2 ∧ whole.steps = 4 ∧ first.steps + second.steps = whole.steps ∧
      second.machine = whole.machine ∧ m.operateAll (byHand true 7 m) = whole.machine := by
  intro m first second whole
  have hfailure : ((Run.start m).advance true (2 + 5)).failure = none := by decide +kernel
  have hfirst : first.steps = 2 := by decide +kernel
  have hwhole : whole.steps = 4 := by decide +kernel
  obtain ⟨⟨hmachine, hsteps, -⟩, ⟨hrounds, -⟩, -⟩ := run_in_pieces hfailure 0
  exact ⟨hfirst, hwhole, hsteps, hmachine, hrounds⟩

end Machine

end RegisterMachine
