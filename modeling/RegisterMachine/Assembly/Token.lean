import RegisterMachine.Text.Lines
import RegisterMachine.Text.Separator
import RegisterMachine.Text.Trim
import RegisterMachine.Text.Upper

set_option autoImplicit false

/-! # Tokens of a source text

A source text is read line by line: what follows the first `//` of a line is comment, what is left
is cut into its maximal runs of non-separators, and every run is put into upper case. Operands that
begin with an `R` lose the commas at their end. Lines without tokens are dropped, so a `TokenLine`
of `tokenLines` is never empty (`ne_nil_of_mem_tokenLines`). -/

namespace RegisterMachine

/-- A token, by its characters. -/
abbrev Token := List Char

/-- The tokens of one line. -/
abbrev TokenLine := List Token

namespace Assembly

/-! ## Lines -/

/-- The part of a line before the first `//`. -/
def beforeComment : List Char → List Char
  | [] => []
  | '/' :: '/' :: _ => []
  | c :: rest => c :: beforeComment rest

/-- The maximal runs of characters that are no separators. -/
def runs (text : List Char) : List (List Char) :=
  (text.splitOnP Text.isSeparator).filter (· ≠ [])

/-! ## Tokens -/

/-- Whether a token has the form of a register operand. -/
def looksLikeRegister (token : Token) : Bool :=
  token.head? == some 'R'

/-- An operand in the form of a register, without the commas at its end; any other operand as it
    is. -/
def stripComma (token : Token) : Token :=
  if looksLikeRegister token then Text.dropTrailing (· == ',') token else token

/-- The first token of a line names an operation, and the operands after it lose their commas. -/
def stripOperandCommas : TokenLine → TokenLine
  | [] => []
  | operation :: operands => operation :: operands.map stripComma

/-- The tokens of one line. -/
def tokensOfLine (line : List Char) : TokenLine :=
  stripOperandCommas ((runs (beforeComment line)).map Text.upper)

/-- The tokens of a source text, line by line, without the lines that have none. -/
def tokenLines (source : String) : List TokenLine :=
  ((Text.lines source.toList).map tokensOfLine).filter (· ≠ [])

theorem ne_nil_of_mem_tokenLines {source : String} {line : TokenLine}
    (h : line ∈ tokenLines source) : line ≠ [] := by
  simpa using (List.mem_filter.1 h).2

end Assembly

end RegisterMachine
