set_option autoImplicit false

/-! # Lines and encoded text

A text is cut into lines at line feeds only (`lines`). A file's bytes are read as UTF-8, and the
two other line ends, carriage return and carriage return with line feed, become line feeds
(`normalizeNewlines`). -/

namespace RegisterMachine.Text

/-- The lines of a text: it is cut at every line feed, and there is always at least one line. -/
def lines (text : List Char) : List (List Char) :=
  text.splitOn '\n'

/-- Every carriage return, with the line feed that may follow it, becomes one line feed. -/
def normalizeNewlines : List Char → List Char
  | [] => []
  | '\r' :: '\n' :: rest => '\n' :: normalizeNewlines rest
  | c :: rest => (if c = '\r' then '\n' else c) :: normalizeNewlines rest

/-- The text that a file's bytes spell, or `none` where they are not UTF-8. -/
def decode? (bytes : ByteArray) : Option String :=
  (String.fromUTF8? bytes).map fun text => String.ofList (normalizeNewlines text.toList)

end RegisterMachine.Text
