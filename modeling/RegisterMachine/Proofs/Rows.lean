import RegisterMachine.Assembly.Listing
import RegisterMachine.Instruction.Basic
import RegisterMachine.Machine.Fault
import Mathlib.Data.List.Basic

set_option autoImplicit false

/-! # The rows of a listing

A listing walks a list of words from row to row, and `rowAt?` is the row that it forms at any one
address. The walk that starts at the address of a row is the rest of the whole listing
(`rowsFrom_suffix_of_mem`), so the word after a row is the first word of a row again or lies behind
the last word (`exists_row_at_next`).

A row is `Whole` if its first word is an opcode, no operand is missing and every register operand
names a register; `Row.offence?` is the first thing, from left to right, that keeps a row from being
whole (`offence?_eq_none_iff`). -/

namespace RegisterMachine.Listing

/-! ## The walk -/

/-- The row that a listing forms at an address. -/
def rowAt? (words : List Int) (address : Nat) : Option Row :=
  (rowsFrom address (words.drop address)).head?

/-- The position behind the words that belong to a row. -/
def Row.next (row : Row) : Nat :=
  row.address + 1 + operandCount row.opcode

theorem drop_succ_of_drop {words rest : List Int} {address : Nat} {word : Int}
    (h : words.drop address = word :: rest) : words.drop (address + 1) = rest := by
  rw [← List.drop_drop, h]
  rfl

/-- The row at an address, and the rows after it. -/
theorem rowsFrom_of_drop {words rest : List Int} {address : Nat} {word : Int}
    (h : words.drop address = word :: rest) :
    rowsFrom address (words.drop address) =
      ⟨address, word, rest.take (operandCount word)⟩ ::
        rowsFrom (address + 1 + operandCount word)
          (words.drop (address + 1 + operandCount word)) := by
  rw [← List.drop_drop, drop_succ_of_drop h, h, rowsFrom]

theorem rowAt?_of_drop {words rest : List Int} {address : Nat} {word : Int}
    (h : words.drop address = word :: rest) :
    rowAt? words address = some ⟨address, word, rest.take (operandCount word)⟩ := by
  rw [rowAt?, rowsFrom_of_drop h]
  rfl

/-- A row begins with the word at its address and has what follows of the operands. -/
theorem drop_of_rowAt? {words : List Int} {address : Nat} {row : Row}
    (h : rowAt? words address = some row) :
    ∃ rest, words.drop address = row.opcode :: rest ∧
      row.operands = rest.take (operandCount row.opcode) := by
  cases hdrop : words.drop address with
  | nil => simp [rowAt?, hdrop, rowsFrom] at h
  | cons word rest =>
      rw [rowAt?_of_drop hdrop, Option.some.injEq] at h
      subst h
      exact ⟨rest, rfl, rfl⟩

theorem rowsFrom_of_rowAt? {words : List Int} {address : Nat} {row : Row}
    (h : rowAt? words address = some row) :
    row.address = address ∧
      rowsFrom address (words.drop address) = row :: rowsFrom row.next (words.drop row.next) := by
  cases hdrop : words.drop address with
  | nil => simp [rowAt?, hdrop, rowsFrom] at h
  | cons word rest =>
      rw [rowAt?_of_drop hdrop, Option.some.injEq] at h
      subst h
      exact ⟨rfl, hdrop ▸ rowsFrom_of_drop hdrop⟩

/-- Every row of a walk is the row at its address, and the walk from there on is the rest of it. -/
theorem rowsFrom_suffix_of_mem {words : List Int} {address : Nat} {row : Row}
    (h : row ∈ rowsFrom address (words.drop address)) :
    rowAt? words row.address = some row ∧
      rowsFrom row.address (words.drop row.address) <:+ rowsFrom address (words.drop address) := by
  -- The walk is followed row by row; `hrest` says that the words left are those at its address.
  generalize hrest : words.drop address = rest at h ⊢
  fun_induction rowsFrom address rest with
  | case1 => exact absurd h List.not_mem_nil
  | case2 address word rest count ih =>
      rcases List.mem_cons.1 h with rfl | htail
      · refine ⟨rowAt?_of_drop hrest, ?_⟩
        simp only [hrest, rowsFrom]
        exact List.suffix_refl _
      · have hdrop : words.drop (address + 1 + count) = rest.drop count := by
          rw [← List.drop_drop, drop_succ_of_drop hrest]
        obtain ⟨hrow, hsuffix⟩ := ih hdrop htail
        exact ⟨hrow, hsuffix.trans (List.suffix_cons _ _)⟩

theorem rowAt?_of_mem_rows {words : List Int} {row : Row} (h : row ∈ rows words) :
    rowAt? words row.address = some row := by
  have hmem : row ∈ rowsFrom 0 (words.drop 0) := h
  exact (rowsFrom_suffix_of_mem hmem).1

/-- The position behind a row is the address of the row after it, unless no word is left. -/
theorem exists_row_at_next {words : List Int} {row : Row} (h : row ∈ rows words)
    (hnext : row.next < words.length) : ∃ later ∈ rows words, later.address = row.next := by
  have hmem : row ∈ rowsFrom 0 (words.drop 0) := h
  obtain ⟨hrow, hsuffix⟩ := rowsFrom_suffix_of_mem hmem
  rw [(rowsFrom_of_rowAt? hrow).2] at hsuffix
  have hdrop := List.drop_eq_getElem_cons hnext
  rw [rowsFrom_of_drop hdrop] at hsuffix
  exact ⟨_, hsuffix.subset (List.mem_cons_of_mem _ List.mem_cons_self), rfl⟩

/-- A list of words that is not empty has a row at its beginning. -/
theorem exists_row_at_zero {words : List Int} (h : 0 < words.length) :
    ∃ row ∈ rows words, row.address = 0 := by
  have hdrop := List.drop_eq_getElem_cons h
  have hwalk := rowsFrom_of_drop hdrop
  exact ⟨_, hwalk ▸ List.mem_cons_self, rfl⟩

theorem le_address_of_mem_rowsFrom {address : Nat} {words : List Int} {row : Row}
    (h : row ∈ rowsFrom address words) : address ≤ row.address := by
  fun_induction rowsFrom address words with
  | case1 => exact absurd h List.not_mem_nil
  | case2 address word rest count ih =>
      rcases List.mem_cons.1 h with rfl | hlater
      · exact Nat.le_refl _
      · have hle := ih hlater
        omega

/-- Every row is behind the rows before it. -/
theorem pairwise_address_rowsFrom (address : Nat) (words : List Int) :
    (rowsFrom address words).Pairwise (·.address < ·.address) := by
  fun_induction rowsFrom address words with
  | case1 => exact .nil
  | case2 address word rest count ih =>
      refine .cons (fun later hlater => ?_) ih
      have hle := le_address_of_mem_rowsFrom hlater
      show address < later.address
      omega

/-! ## Whole rows -/

/-- Whether a word can stand for an operand of a kind: a register operand has to name a register. -/
def Accepts (kind : OperandKind) (word : Int) : Prop :=
  kind = .register → 0 ≤ word ∧ word < registerCount

instance (kind : OperandKind) (word : Int) : Decidable (Accepts kind word) :=
  inferInstanceAs (Decidable (_ → _))

/-- A row has an opcode, all operands of its signature, and a register wherever one has to be. -/
structure Row.Whole (row : Row) (op : Opcode) : Prop where
  opcode : Opcode.ofCode? row.opcode = some op
  length_operands : row.operands.length = op.arity
  accepts : ∀ operand ∈ op.signature.zip row.operands, Accepts operand.1 operand.2

/-- The first operand, from left to right, that is missing or names no register. -/
def operandOffence? : List OperandKind → List Int → Option FaultCause
  | [], _ => none
  | _ :: _, [] => some .truncated
  | kind :: kinds, word :: words =>
    if Accepts kind word then operandOffence? kinds words else some (.invalidRegister word)

/-- The first thing that keeps a row from being whole. -/
def Row.offence? (row : Row) : Option FaultCause :=
  match Opcode.ofCode? row.opcode with
  | none => some (.unknownOpcode row.opcode)
  | some op => operandOffence? op.signature row.operands

theorem operandOffence?_eq_none_iff (kinds : List OperandKind) (words : List Int) :
    operandOffence? kinds words = none ↔
      kinds.length ≤ words.length ∧ ∀ operand ∈ kinds.zip words, Accepts operand.1 operand.2 := by
  fun_induction operandOffence? kinds words with
  | case1 => simp
  | case2 => simp
  | case3 kind kinds word words haccepts ih =>
      simp only [List.length_cons, Nat.add_le_add_iff_right, List.zip_cons_cons,
        List.forall_mem_cons, haccepts, true_and]
      exact ih
  | case4 kind kinds word words haccepts => simp [haccepts]

/-- Only as many words count as the signature has operands. -/
theorem operandOffence?_take (kinds : List OperandKind) (words : List Int) :
    operandOffence? kinds (words.take kinds.length) = operandOffence? kinds words := by
  fun_induction operandOffence? kinds words with
  | case1 => simp [operandOffence?]
  | case2 => simp [operandOffence?]
  | case3 kind kinds word words haccepts ih => simp [operandOffence?, haccepts, ih]
  | case4 kind kinds word words haccepts => simp [operandOffence?, haccepts]

theorem operandCount_of_ofCode? {word : Int} {op : Opcode} (h : Opcode.ofCode? word = some op) :
    operandCount word = op.arity := by
  simp [operandCount, h]

theorem operandCount_code (op : Opcode) : operandCount op.code = op.arity :=
  operandCount_of_ofCode? (Opcode.ofCode?_code op)

/-- No row has more operands than its signature. -/
theorem length_operands_le_of_rowAt? {words : List Int} {address : Nat} {row : Row}
    (h : rowAt? words address = some row) : row.operands.length ≤ operandCount row.opcode := by
  obtain ⟨rest, -, htake⟩ := drop_of_rowAt? h
  rw [htake]
  exact List.length_take_le _ _

/-- The rows of a listing in which nothing is wrong are the whole ones. -/
theorem offence?_eq_none_iff {words : List Int} {address : Nat} {row : Row}
    (h : rowAt? words address = some row) : row.offence? = none ↔ ∃ op, row.Whole op := by
  have hlength := length_operands_le_of_rowAt? h
  constructor
  · intro hnone
    cases hop : Opcode.ofCode? row.opcode with
    | none => simp [Row.offence?, hop] at hnone
    | some op =>
        rw [operandCount_of_ofCode? hop] at hlength
        simp only [Row.offence?, hop, operandOffence?_eq_none_iff] at hnone
        exact ⟨op, hop, Nat.le_antisymm hlength hnone.1, hnone.2⟩
  · rintro ⟨op, hop, hoperands, haccepts⟩
    simp only [Row.offence?, hop, operandOffence?_eq_none_iff]
    exact ⟨Nat.le_of_eq hoperands.symm, haccepts⟩

end RegisterMachine.Listing
