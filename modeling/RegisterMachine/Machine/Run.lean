import RegisterMachine.Machine.Step

set_option autoImplicit false

/-! # Runs

A `Run` is a machine on its way, with the steps it has made and the events of all of them.
`Run.advance` makes up to a number of further steps and stops early where the machine halts or a
step gives no answer. Advancing in pieces is advancing at once (`advance_add`), and a stopped run
stays as it is (`advance_of_stopped`). `Run.finish` goes on to the end or to a step limit; without a
limit it makes at most `fuel` steps, and `Run.ending` tells whether that was enough. -/

namespace RegisterMachine

/-- A run, so far. -/
structure Run where
  machine : Machine
  /-- The steps that were completed. -/
  steps : Nat
  events : Array Event
  failure : Option Failure

/-- How a run stands. -/
inductive Ending where
  /-- The machine is halted. -/
  | halted
  /-- A step gave no answer. -/
  | failed (failure : Failure)
  /-- The machine can go on. -/
  | paused
  deriving DecidableEq, Repr

namespace Machine

/-- Lets the screen flush. -/
def refresh (m : Machine) : Machine × List Event :=
  let (screen, frame) := m.screen.update
  ({ m with screen }, frame.toList.map Event.flushed)

/-- One step, followed by a flush if asked for. -/
def stepAndFlush (m : Machine) (flush : Bool) : Turn :=
  let turn := m.step
  if flush && turn.failure.isNone then
    let (machine, events) := turn.machine.refresh
    { turn with machine, events := turn.events ++ events }
  else turn

end Machine

namespace Run

/-- A run before its first step. -/
def start (m : Machine) : Run :=
  ⟨m, 0, #[.logged (.running m.program.size)], none⟩

/-- Whether a run makes no further steps. -/
def stopped (run : Run) : Bool :=
  run.machine.halted || run.failure.isSome

/-- How a run stands. -/
def ending (run : Run) : Ending :=
  match run.failure with
  | some failure => .failed failure
  | none => if run.machine.halted then .halted else .paused

/-- The run after one more step. A step that gives no answer does not count. -/
def next (flush : Bool) : Run → Run
  | ⟨machine, steps, events, _⟩ =>
    let turn := machine.stepAndFlush flush
    let steps := if turn.failure.isNone then steps + 1 else steps
    ⟨turn.machine, steps, events ++ turn.events, turn.failure⟩

/-- The run after up to a number of further steps. -/
def advance (flush : Bool) : Nat → Run → Run
  | 0, run => run
  | count + 1, run => if run.stopped then run else advance flush count (run.next flush)

/-- The run with the notice that its step limit is used up, if it could go on. -/
def atLimit (limit : Int) (run : Run) : Run :=
  if run.stopped then run
  else if Decimal.Writable limit ∧ Decimal.Writable run.machine.pc then
    { run with events := run.events.push (.logged (.stepLimit limit run.machine.pc)) }
  else { run with failure := some .tooManyDigits }

/-- The run at its end or at its step limit, if it has one. Without a limit, `fuel` bounds the
    steps. -/
def finish (limit : Option Int) (flush : Bool) (fuel : Nat) (run : Run) : Run :=
  match limit with
  | some limit => (run.advance flush limit.toNat).atLimit limit
  | none => run.advance flush fuel

/-! ## Laws -/

theorem advance_of_stopped {flush : Bool} {run : Run} (h : run.stopped = true) (count : Nat) :
    run.advance flush count = run := by
  cases count <;> simp [advance, h]

theorem advance_add (flush : Bool) (a b : Nat) (run : Run) :
    run.advance flush (a + b) = (run.advance flush a).advance flush b := by
  induction a generalizing run with
  | zero => simp [advance]
  | succ a ih =>
    rw [Nat.succ_add]
    cases h : run.stopped with
    | true => simp [advance, h, advance_of_stopped h]
    | false => simp [advance, h, ih]

/-- The last of some steps is made by the run that the others lead to, unless that has stopped. -/
theorem advance_succ (flush : Bool) (count : Nat) (run : Run) :
    run.advance flush (count + 1) =
      if (run.advance flush count).stopped then run.advance flush count
      else (run.advance flush count).next flush := by
  rw [advance_add]
  rfl

theorem not_stopped_iff {run : Run} :
    ¬ run.stopped = true ↔ run.machine.halted = false ∧ run.failure = none := by
  simp [stopped]

end Run

/-- The run of a machine from its first notice on. -/
def Machine.run (m : Machine) (limit : Option Int) (flush : Bool) (fuel : Nat) : Run :=
  (Run.start m).finish limit flush fuel

end RegisterMachine
