import RegisterMachine.Command.Assemble
import RegisterMachine.Command.Emulate

set_option autoImplicit false

/-! # The command line

The assembler and the emulator as two commands of one program. This module alone has effects: it
reads the files, performs the events of an execution as they happen, and shows the report. Notices
go to the standard error. -/

namespace RegisterMachine

/-- The bytes of a file, if it can be read. -/
def readFile? (path : String) : IO (Option ByteArray) := do
  return (← (IO.FS.readBinFile path).toBaseIO).toOption

/-- Shows a notice. -/
def showNotice (notice : Notice) : IO Unit := do
  let level := notice.level.name
  let text := notice.text
  IO.eprintln s!"[{level}] - {text}"

/-- Shows what a command leaves behind, and gives its exit code. -/
def showReport (report : Command.Report) : IO UInt32 := do
  report.notices.forM showNotice
  IO.print report.output
  return report.exitCode.toUInt32

/-- Performs an event. A flushed frame has no window to go to. -/
def performEvent (verbose : Bool) : Event → IO Unit
  | .logged notice => if Command.isShown verbose notice then showNotice notice else pure ()
  | .printed line => IO.println line
  | .slept seconds => IO.sleep (seconds * 1000).floor.toNat.toUInt32
  | .flushed _ => pure ()

/-- Makes at most so many steps and performs the events of each before the next. -/
partial def performRun (verbose : Bool) (remaining : Option Nat) (run : Run) : IO Run := do
  run.events.forM (performEvent verbose)
  let performed := { run with events := #[] }
  if performed.stopped || remaining == some 0 then return performed
  let screen := run.machine.screen
  let screen := (screen.setClock (← IO.monoMsNow)).toOption.getD screen
  let timed := { performed with machine := { run.machine with screen } }
  performRun verbose (remaining.map (· - 1)) (timed.next true)

/-- Assembles a file. -/
def runAssemble (arguments : List String) : IO UInt32 := do
  match Command.AssembleUse.ofArguments? arguments with
  | none => showReport Command.usageError
  | some use => match ← readFile? use.source with
    | none => showReport Command.usageError
    | some bytes => showReport (use.run bytes)

/-- Assembles a file and executes it. -/
def runEmulate (arguments : List String) : IO UInt32 := do
  let some use := Command.EmulateUse.ofArguments? arguments | showReport Command.usageError
  let some source ← readFile? use.source | showReport Command.usageError
  let config ← match use.config with
    | none => pure none
    | some path => match ← readFile? path with
      | none => return ← showReport Command.usageError
      | some bytes => pure (some bytes)
  let preparation := use.prepare config source
  match preparation.outcome with
  | .error _ => showReport (use.abort preparation.notices "")
  | .ok (words, screen) =>
    (preparation.notices.filter (Command.isShown use.verbose)).forM showNotice
    let limit := use.maxSteps
    let run ← performRun use.verbose (limit.map Int.toNat) (Run.ofProgram words screen)
    showReport (use.conclude [] (limit.elim run run.atLimit))

end RegisterMachine

/-- Carries out the command that the first argument names. -/
def main (arguments : List String) : IO UInt32 :=
  match arguments with
  | "assemble" :: rest => RegisterMachine.runAssemble rest
  | "emulate" :: rest => RegisterMachine.runEmulate rest
  | _ => do
    IO.eprintln "The commands are assemble and emulate."
    return 2
