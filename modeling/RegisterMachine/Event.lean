import RegisterMachine.Notice
import RegisterMachine.Screen.Basic

set_option autoImplicit false

/-! # Events

What an operation does besides changing the machine is a list of `Event`s in the order in which they
happen. The views `notices`, `lines`, `sleeps` and `frames` pick out one kind, in the same order
(`notices_append`, `lines_append`). -/

namespace RegisterMachine

/-- Something that an operation does to the outside. -/
inductive Event where
  /-- A message is logged. -/
  | logged (notice : Notice)
  /-- A number is printed on a line of its own. -/
  | printed (line : String)
  /-- The machine sleeps for a number of seconds. -/
  | slept (seconds : Rat)
  /-- A frame is flushed. -/
  | flushed (frame : Frame)

namespace Event

/-- The logged messages. -/
def notices (events : List Event) : List Notice :=
  events.filterMap fun
    | logged notice => some notice
    | _ => none

/-- The printed lines. -/
def lines (events : List Event) : List String :=
  events.filterMap fun
    | printed line => some line
    | _ => none

/-- The durations of the sleeps. -/
def sleeps (events : List Event) : List Rat :=
  events.filterMap fun
    | slept seconds => some seconds
    | _ => none

/-- The flushed frames. -/
def frames (events : List Event) : List Frame :=
  events.filterMap fun
    | flushed frame => some frame
    | _ => none

@[simp] theorem notices_append (before after : List Event) :
    notices (before ++ after) = notices before ++ notices after := by
  simp [notices]

@[simp] theorem lines_append (before after : List Event) :
    lines (before ++ after) = lines before ++ lines after := by
  simp [lines]

end Event

end RegisterMachine
