import RegisterMachine.Machine.Run

set_option autoImplicit false

/-! # Executions

An execution loads a program into a new machine and runs it. `Machine.verdict` sums up how it ended
in a notice and an exit code: a machine that can go on was stopped by its limit, a halted one has a
fault or has ended well (`verdict_of_fault`, `verdict_of_halted`). -/

namespace RegisterMachine

/-- The execution of a program on a new machine with a screen, before the first step. -/
def Run.ofProgram (program : List Int) (screen : Screen) : Run :=
  let run := Run.start ((Machine.fresh screen).load program "" false)
  { run with events := #[.logged .initializing] ++ run.events }

/-- Executes a program on a new machine with a screen, for at most `limit` steps if there is a limit
    and at most `fuel` otherwise. -/
def execute (program : List Int) (screen : Screen) (limit : Option Int) (fuel : Nat) : Run :=
  (Run.ofProgram program screen).finish limit true fuel

/-- The exit code of an execution that ended well. -/
def exitHalted : Nat := 0

/-- The exit code of an execution that ended with a fault. -/
def exitFault : Nat := 2

/-- The exit code of an execution that was stopped by its step limit. -/
def exitStepLimit : Nat := 4

/-- How an execution ended, as a notice and an exit code. -/
def Machine.verdict (m : Machine) : Notice × Nat :=
  if m.halted then match m.fault with
    | some fault => (.haltedOnFault fault, exitFault)
    | none => (.haltedGracefully, exitHalted)
  else (.stoppedByLimit, exitStepLimit)

theorem Machine.verdict_of_fault {m : Machine} {fault : Fault} (hm : m.halted = true)
    (h : m.fault = some fault) : m.verdict = (.haltedOnFault fault, exitFault) := by
  simp [verdict, hm, h]

theorem Machine.verdict_of_halted {m : Machine} (hm : m.halted = true) (h : m.fault = none) :
    m.verdict = (.haltedGracefully, exitHalted) := by
  simp [verdict, hm, h]

end RegisterMachine
