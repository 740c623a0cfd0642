import RegisterMachine.Assembly.Encode
import RegisterMachine.Command.Arguments
import RegisterMachine.Command.Path
import RegisterMachine.Command.Report
import RegisterMachine.Config.Load
import RegisterMachine.Execution
import RegisterMachine.Screen.Render

set_option autoImplicit false

/-! # The emulator command

`Command.emulate?` assembles one file and executes it. It has two pure halves around the execution:
`EmulateUse.prepare` gets from the files to a program and a screen, and `EmulateUse.conclude` gets
from the machine to an exit code. Whatever fails in between is reported as a general error. -/

namespace RegisterMachine.Command

/-! ## Command line -/

/-- The options of the emulator. -/
inductive EmulateOption where
  | verbose
  | config
  | refreshMs
  | maxSteps
  | showScreen
  deriving DecidableEq

/-- How the options of the emulator are written. -/
def emulateForms : List (OptionForm EmulateOption) :=
  [ ⟨.verbose, some 'v', ['v', 'e', 'r', 'b', 'o', 's', 'e'], false⟩,
    ⟨.config, some 'c', ['c', 'o', 'n', 'f', 'i', 'g'], true⟩,
    ⟨.refreshMs, none, ['r', 'e', 'f', 'r', 'e', 's', 'h', '-', 'm', 's'], true⟩,
    ⟨.maxSteps, none, ['m', 'a', 'x', '-', 's', 't', 'e', 'p', 's'], true⟩,
    ⟨.showScreen, none, ['s', 'h', 'o', 'w', '-', 's', 'c', 'r', 'e', 'e', 'n'], false⟩ ]

/-- A use of the emulator. -/
structure EmulateUse where
  verbose : Bool
  config : Option String
  refreshMs : Option Int
  maxSteps : Option Int
  showScreen : Bool
  source : String

/-- The integer that an option is set to, if it is; `none` where its value spells no integer. -/
def integerSetting? (option : EmulateOption) (items : List (Argument EmulateOption)) :
    Option (Option Int) :=
  match lastSetting? option items with
  | none => some none
  | some value => match Value.integerOfText value.toList with
    | .ok n => some (some n)
    | .error _ => none

/-- The use that a command line asks for, or `none` for a usage error. -/
def EmulateUse.ofArguments? (arguments : List String) : Option EmulateUse := do
  let items ← parseArguments? emulateForms none arguments
  let refreshMs ← integerSetting? .refreshMs items
  let maxSteps ← integerSetting? .maxSteps items
  match operands items with
  | [source] =>
    return {
      verbose := isSwitchedOn .verbose items
      config := lastSetting? .config items
      refreshMs
      maxSteps
      showScreen := isSwitchedOn .showScreen items
      source }
  | _ => none

/-! ## Preparation -/

/-- What was reported on the way to a program and a screen, and these unless that failed. -/
structure Preparation where
  notices : List Notice
  outcome : Except Failure (List Int × Screen)

/-- The configuration of a use, given the bytes of its configuration file if it names one. -/
def EmulateUse.configuration (use : EmulateUse) (config : Option ByteArray) :
    Except Failure Configuration := do
  let base ← match config with
    | some bytes => Configuration.ofBytes bytes
    | none => .ok {}
  return match use.refreshMs with
    | some ms => base.set .refreshMs ms
    | none => base

/-- The program and the screen of a use. -/
def EmulateUse.prepare (use : EmulateUse) (config : Option ByteArray) (source : ByteArray) :
    Preparation :=
  let opening := .emulatorStarted :: use.config.toList.map fun path =>
    Notice.loadingConfiguration (displayPath path)
  match use.configuration config with
  | .error failure => ⟨opening, .error failure⟩
  | .ok configuration =>
    let opening := opening ++ [.assembling (displayPath use.source)]
    match Text.decode? source with
    | none => ⟨opening, .error .malformedEncoding⟩
    | some text =>
      let encoded := Assembly.assemble text
      match encoded.outcome with
      | .error failure => ⟨opening ++ encoded.notices, .error failure⟩
      | .ok words =>
        ⟨opening ++ encoded.notices ++ [.assembled words],
          configuration.screen.map fun screen => (words, screen)⟩

/-! ## Conclusion -/

/-- What a finished execution still prints. -/
def EmulateUse.closing (use : EmulateUse) (m : Machine) : String :=
  if use.showScreen then unlines [m.screen.renderText] else ""

/-- The exit code of a command that could not be carried out. -/
def exitGeneralError : Nat := 100

/-- The report on a command that could not be carried out. -/
def EmulateUse.abort (use : EmulateUse) (notices : List Notice) (printed : String) : Report :=
  { exitCode := exitGeneralError
    output := printed
    notices := (notices ++ [Notice.generalError]).filter (isShown use.verbose) }

/-- The report on a run that followed the notices of its preparation. -/
def EmulateUse.conclude (use : EmulateUse) (before : List Notice) (run : Run) : Report :=
  let events := run.events.toList
  let printed := unlines (Event.lines events)
  let notices := before ++ Event.notices events
  match run.failure, run.machine.dump with
  | none, .ok dump =>
    let (notice, exitCode) := run.machine.verdict
    { exitCode
      output := printed ++ use.closing run.machine
      notices := (notices ++ [dump, notice]).filter (isShown use.verbose) }
  | _, _ => use.abort notices printed

/-! ## The command -/

/-- Prepares, executes and concludes. Without a step limit the execution makes at most `fuel` steps,
    and there is no report if it could go on then. -/
def EmulateUse.run? (use : EmulateUse) (config : Option ByteArray) (source : ByteArray)
    (fuel : Nat) : Option Report :=
  let preparation := use.prepare config source
  match preparation.outcome with
  | .error _ => some (use.abort preparation.notices "")
  | .ok (words, screen) =>
    let run := execute words screen use.maxSteps fuel
    if use.maxSteps.isNone ∧ run.ending = .paused then none
    else some (use.conclude preparation.notices run)

/-- The emulator command, with the files that its arguments may name. -/
def emulate? (files : String → Option ByteArray) (arguments : List String) (fuel : Nat) :
    Option Report :=
  match EmulateUse.ofArguments? arguments with
  | none => some usageError
  | some use =>
    match files use.source, use.config, use.config.bind files with
    | none, _, _ => some usageError
    | some _, some _, none => some usageError
    | some source, _, config => use.run? config source fuel

end RegisterMachine.Command
