import RegisterMachine.Failure
import RegisterMachine.Notice

set_option autoImplicit false

/-! # Reports

What a command leaves behind: its exit code, what it printed, the notices it showed, and the failure
that ended it if it has no exit code of its own for that. -/

namespace RegisterMachine.Command

/-- The outcome of a command. -/
structure Report where
  exitCode : Nat
  output : String
  notices : List Notice
  failure : Option Failure := none

/-- The outcome of a command that was not used as it should. -/
def usageError : Report :=
  { exitCode := 2, output := "", notices := [] }

/-- Whether a notice is shown: all are if the command is verbose, and else those that matter more
    than debugging. -/
def isShown (verbose : Bool) (notice : Notice) : Bool :=
  verbose || notice.level != .debug

/-- Lines, each with its end. -/
def unlines (lines : List String) : String :=
  String.join (lines.map (· ++ "\n"))

end RegisterMachine.Command
