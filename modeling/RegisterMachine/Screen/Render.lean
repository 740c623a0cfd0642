import RegisterMachine.Screen.Basic
import RegisterMachine.Text.Trim

set_option autoImplicit false

/-! # The screen as text

`Screen.renderText` shows each pixel by the shade of its colour, one line per row, without the
blanks at the end of a line and without the empty lines at the end. -/

namespace RegisterMachine.Screen

/-- The shades of one row. -/
def rowShades (screen : Screen) (row : Nat) : List Char :=
  let width := screen.width.toNat
  let bytes := screen.framebuffer.extract (row * width) ((row + 1) * width)
  bytes.toList.map fun byte => shade (screen.palette.colour byte)

/-- The lines that show the screen. -/
def textLines (screen : Screen) : List (List Char) :=
  let rows := (List.range screen.height.toNat).map fun row =>
    Text.dropTrailing (· == ' ') (screen.rowShades row)
  Text.dropTrailing (·.isEmpty) rows

/-- The text that shows the screen. -/
def renderText (screen : Screen) : String :=
  String.ofList (List.intercalate ['\n'] screen.textLines)

theorem getLast?_textLines (screen : Screen) : screen.textLines.getLast? ≠ some [] := by
  intro h
  simpa using Text.getLast?_dropTrailing _ _ _ h

end RegisterMachine.Screen
