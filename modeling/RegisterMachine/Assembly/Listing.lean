import RegisterMachine.Failure
import RegisterMachine.Instruction.Opcode
import RegisterMachine.Numeric.Decimal

set_option autoImplicit false

/-! # Listings

`Listing.rows` cuts a list of words into rows, an opcode with as many operands as its signature has;
a word that is no opcode is a row of its own, and the last row has what is left. The rows hold all
words in order (`words_rows`). -/

namespace RegisterMachine

namespace Listing

/-- One row of a listing. -/
structure Row where
  /-- The position of the row's first word. -/
  address : Nat
  /-- The first word. -/
  opcode : Int
  /-- The words after it. -/
  operands : List Int
  deriving DecidableEq, Repr

/-- The words of a row. -/
def Row.words (row : Row) : List Int :=
  row.opcode :: row.operands

/-- How many operands follow a word. -/
def operandCount (word : Int) : Nat :=
  match Opcode.ofCode? word with
  | some op => op.arity
  | none => 0

/-- The rows of words, the first of which is at `address`. -/
def rowsFrom (address : Nat) : List Int → List Row
  | [] => []
  | word :: rest =>
    let count := operandCount word
    ⟨address, word, rest.take count⟩ :: rowsFrom (address + 1 + count) (rest.drop count)
termination_by words => words.length
decreasing_by simp only [List.length_cons, List.length_drop]; omega

/-- The rows of a list of words. -/
def rows (words : List Int) : List Row :=
  rowsFrom 0 words

theorem words_rowsFrom (address : Nat) (words : List Int) :
    (rowsFrom address words).flatMap Row.words = words := by
  fun_induction rowsFrom address words with
  | case1 => rfl
  | case2 address word rest count ih => simp [ih, Row.words]

@[simp] theorem words_rows (words : List Int) : (rows words).flatMap Row.words = words :=
  words_rowsFrom 0 words

/-! ## Text -/

/-- The name of a row: its opcode's, or the word itself. -/
def Row.name (row : Row) : String :=
  match Opcode.ofCode? row.opcode with
  | some op => op.mnemonic
  | none => Decimal.text row.opcode

/-- The kinds of the operands that a row should have. -/
def Row.signature (row : Row) : List OperandKind :=
  match Opcode.ofCode? row.opcode with
  | some op => op.signature
  | none => []

/-- An operand as its kind is written. -/
def operandText : OperandKind → Int → String
  | .register, n => "R" ++ Decimal.text n
  | .value, n | .address, n => Decimal.text n

/-- A row after its address. -/
def Row.body (row : Row) : String :=
  String.intercalate " " (row.name :: List.zipWith operandText row.signature row.operands)

/-- The text of a row: its address with at least four digits, its name and its operands. -/
def Row.text (row : Row) : String :=
  Decimal.padded 4 row.address ++ ": " ++ row.body

/-- Whether all numbers that a row's text names are within the decimal digit limit. -/
def Row.Writable (row : Row) : Prop :=
  ∀ n ∈ row.words, Decimal.Writable n

instance (row : Row) : Decidable row.Writable :=
  inferInstanceAs (Decidable (∀ n ∈ row.words, Decimal.Writable n))

/-- The text of a row, if it can be written. -/
def Row.text? (row : Row) : Except Failure String :=
  if row.Writable then .ok row.text else .error .tooManyDigits

end Listing

end RegisterMachine
