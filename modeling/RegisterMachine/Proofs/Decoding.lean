import RegisterMachine.Machine.Fetch
import RegisterMachine.Proofs.Rows

set_option autoImplicit false

/-! # Decoding by the table

`Instruction.fetchOperands` reads the operands of each opcode on its own. Here it is compared with
`scan`, which reads whatever operands a signature asks for (`map_operands_fetchOperands`), and so
with the rows of a listing: an instruction is fetched exactly where the row is whole
(`fetch_of_whole`), and it is refused for the row's first offence (`fetch_of_offence`). -/

namespace RegisterMachine.Instruction

open Listing

/-! ## Reading a signature -/

/-- The operand of a kind at an offset, a register by its index. -/
def scanOperand (word? : Nat → Option Int) (offset : Nat) : OperandKind → Except Refusal Int
  | .register => return (← fetchRegister word? offset).val
  | .value | .address => fetchWord word? offset

/-- The operands that a signature asks for, in order from an offset. -/
def scan (word? : Nat → Option Int) (offset : Nat) : List OperandKind → Except Refusal (List Int)
  | [] => return []
  | kind :: kinds => return (← scanOperand word? offset kind) :: (← scan word? (offset + 1) kinds)

theorem map_operands_fetchOperands (word? : Nat → Option Int) (op : Opcode) :
    operands <$> fetchOperands word? op = scan word? 1 op.signature := by
  cases op <;>
    simp only [fetchOperands, scan, scanOperand, Opcode.signature, map_bind, bind_assoc, map_pure,
      pure_bind, operands]

theorem opcode_of_fetchOperands {word? : Nat → Option Int} {op : Opcode} {i : Instruction}
    (h : fetchOperands word? op = .ok i) : i.opcode = op := by
  -- Every branch of `fetchOperands` ends in an instruction of its own opcode.
  have hmap : opcode <$> fetchOperands word? op = (fun _ => op) <$> fetchOperands word? op := by
    cases op <;> simp only [fetchOperands, map_bind, map_pure, opcode]
  rw [h] at hmap
  exact Except.ok.inj hmap

theorem words_injective {i j : Instruction} (h : i.words = j.words) : i = j := by
  have hi := fetch_of_words i []
  rw [h] at hi
  exact Except.ok.inj (hi.symm.trans (fetch_of_words j []))

/-! ## Reading a list of words -/

theorem scanOperand_of_nil {words : List Int} {offset : Nat} (h : words.drop offset = [])
    (kind : OperandKind) : scanOperand (words[·]?) offset kind = .error ⟨.truncated, offset⟩ := by
  have hword : words[offset]? = none := by
    rw [← Nat.add_zero offset, ← List.getElem?_drop, h]
    rfl
  cases kind with
  | register => simp only [scanOperand, fetchRegister, hword]; rfl
  | value => simp only [scanOperand, fetchWord, hword]
  | address => simp only [scanOperand, fetchWord, hword]

theorem scanOperand_of_cons {words rest : List Int} {offset : Nat} {word : Int}
    (h : words.drop offset = word :: rest) (kind : OperandKind) :
    scanOperand (words[·]?) offset kind =
      if Accepts kind word then .ok word else .error ⟨.invalidRegister word, offset + 1⟩ := by
  have hword : words[offset]? = some word := by
    rw [← Nat.add_zero offset, ← List.getElem?_drop, h]
    rfl
  cases kind with
  | register =>
      simp only [scanOperand, fetchRegister, hword, Accepts, forall_const]
      by_cases hindex : 0 ≤ word ∧ word < registerCount
      · obtain ⟨r, hr⟩ := Option.isSome_iff_exists.1 ((Register.isSome_ofIndex? word).2 hindex)
        rw [if_pos hindex, hr, Register.ofIndex?_eq_some_iff.1 hr]
        rfl
      · have hr : Register.ofIndex? word = none := by
          simpa using mt (Register.isSome_ofIndex? word).1 hindex
        rw [if_neg hindex, hr]
        rfl
  | value => simp [scanOperand, fetchWord, hword, Accepts]
  | address => simp [scanOperand, fetchWord, hword, Accepts]

/-- Operands of which none is missing or out of place are read as they stand. -/
theorem scan_of_operandOffence?_none {words : List Int} {kinds : List OperandKind} {offset : Nat}
    (h : operandOffence? kinds (words.drop offset) = none) :
    scan (words[·]?) offset kinds = .ok ((words.drop offset).take kinds.length) := by
  induction kinds generalizing offset with
  | nil => rfl
  | cons kind kinds ih =>
      cases hdrop : words.drop offset with
      | nil => simp [hdrop, operandOffence?] at h
      | cons word rest =>
          rw [hdrop, operandOffence?] at h
          split_ifs at h with haccepts
          rw [← drop_succ_of_drop hdrop] at h
          rw [scan, scanOperand_of_cons hdrop, if_pos haccepts, ih h, drop_succ_of_drop hdrop]
          rfl

/-- Reading operands stops at the first one that is missing or out of place. -/
theorem scan_of_operandOffence?_some {words : List Int} {kinds : List OperandKind} {offset : Nat}
    {cause : FaultCause} (h : operandOffence? kinds (words.drop offset) = some cause) :
    ∃ read ≥ offset, scan (words[·]?) offset kinds = .error ⟨cause, read⟩ := by
  induction kinds generalizing offset with
  | nil => simp [operandOffence?] at h
  | cons kind kinds ih =>
      cases hdrop : words.drop offset with
      | nil =>
          simp only [hdrop, operandOffence?, Option.some.injEq] at h
          subst h
          exact ⟨offset, Nat.le_refl _, by rw [scan, scanOperand_of_nil hdrop]; rfl⟩
      | cons word rest =>
          rw [hdrop, operandOffence?] at h
          rw [scan, scanOperand_of_cons hdrop]
          split_ifs at h ⊢ with haccepts
          · rw [← drop_succ_of_drop hdrop] at h
            obtain ⟨read, hle, hread⟩ := ih h
            exact ⟨read, Nat.le_of_succ_le hle, by rw [hread]; rfl⟩
          · simp only [Option.some.injEq] at h
            subst h
            exact ⟨offset + 1, Nat.le_succ _, rfl⟩

/-! ## Rows of instructions -/

/-- The operands of an instruction are of the kinds that its signature asks for. -/
theorem accepts_operands (i : Instruction) :
    ∀ operand ∈ i.opcode.signature.zip i.operands, Accepts operand.1 operand.2 := by
  have hregister (r : Register) : Accepts .register r.val := fun _ => by
    have := r.isLt
    omega
  have hvalue (n : Int) : Accepts .value n := nofun
  have haddress (n : Int) : Accepts .address n := nofun
  cases i <;> simp [opcode, operands, Opcode.signature, hregister, hvalue, haddress]

/-- The words of an instruction are a whole row. -/
theorem whole_row (i : Instruction) (address : Nat) :
    Row.Whole ⟨address, i.opcode.code, i.operands⟩ i.opcode where
  opcode := Opcode.ofCode?_code i.opcode
  length_operands := i.length_operands
  accepts := i.accepts_operands

/-- Where the words of an instruction stand, they are the row. -/
theorem rowAt?_of_words {i : Instruction} {words rest : List Int} {address : Nat}
    (h : words.drop address = i.words ++ rest) :
    rowAt? words address = some ⟨address, i.opcode.code, i.operands⟩ := by
  rw [rowAt?_of_drop h, operandCount_code, ← i.length_operands]
  exact congrArg (fun operands => some (Row.mk address i.opcode.code operands)) List.take_left

/-! ## Reading a row -/

section

variable {words : List Int} {address : Nat} {row : Row}

/-- The instruction of a whole row is fetched. -/
theorem fetch_of_whole {op : Opcode} (hrow : rowAt? words address = some row) (h : row.Whole op) :
    ∃ i, fetch ((words.drop address)[·]?) = .ok i ∧ i.opcode = op ∧ i.operands = row.operands := by
  obtain ⟨rest, hdrop, htake⟩ := drop_of_rowAt? hrow
  rw [operandCount_of_ofCode? h.opcode] at htake
  have hnone : operandOffence? op.signature rest = none := by
    rw [← operandOffence?_take, operandOffence?_eq_none_iff, ← Opcode.arity, ← htake]
    exact ⟨Nat.le_of_eq h.length_operands.symm, h.accepts⟩
  have hscan : operands <$> fetchOperands ((row.opcode :: rest)[·]?) op = .ok row.operands := by
    rw [map_operands_fetchOperands, scan_of_operandOffence?_none hnone, htake]
    rfl
  cases hfetch : fetchOperands ((row.opcode :: rest)[·]?) op with
  | error refusal => rw [hfetch] at hscan; cases hscan
  | ok i =>
      rw [hfetch] at hscan
      refine ⟨i, ?_, opcode_of_fetchOperands hfetch, Except.ok.inj hscan⟩
      simp only [fetch, hdrop, List.getElem?_cons_zero, h.opcode, hfetch]

/-- The row that holds the words of an instruction is fetched as that instruction. -/
theorem fetch_of_row {i : Instruction} (hrow : rowAt? words address = some row)
    (h : row.words = i.words) : fetch ((words.drop address)[·]?) = .ok i := by
  obtain ⟨rest, hdrop, htake⟩ := drop_of_rowAt? hrow
  have hwords : words.drop address = i.words ++ rest.drop (operandCount row.opcode) := by
    rw [← h, Row.words, List.cons_append, htake, List.take_append_drop, hdrop]
  rw [hwords]
  exact fetch_of_words i _

/-- A row that is not whole is refused, for the first thing that is wrong with it, when its first
    word at least has been read. -/
theorem fetch_of_offence {cause : FaultCause} (hrow : rowAt? words address = some row)
    (h : row.offence? = some cause) :
    ∃ read ≥ 1, fetch ((words.drop address)[·]?) = .error ⟨cause, read⟩ := by
  obtain ⟨rest, hdrop, htake⟩ := drop_of_rowAt? hrow
  cases hop : Opcode.ofCode? row.opcode with
  | none =>
      simp only [Row.offence?, hop, Option.some.injEq] at h
      subst h
      exact ⟨1, Nat.le_refl _, by simp only [fetch, hdrop, List.getElem?_cons_zero, hop]⟩
  | some op =>
      rw [operandCount_of_ofCode? hop, Opcode.arity] at htake
      simp only [Row.offence?, hop, htake, operandOffence?_take] at h
      have hfirst : operandOffence? op.signature ((row.opcode :: rest).drop 1) = some cause := h
      obtain ⟨read, hread, hscan⟩ := scan_of_operandOffence?_some hfirst
      rw [← map_operands_fetchOperands] at hscan
      cases hfetch : fetchOperands ((row.opcode :: rest)[·]?) op with
      | ok i => rw [hfetch] at hscan; cases hscan
      | error refusal =>
          rw [hfetch] at hscan
          have hrefusal : refusal = ⟨cause, read⟩ := Except.error.inj hscan
          refine ⟨read, hread, ?_⟩
          simp only [fetch, hdrop, List.getElem?_cons_zero, hop, hfetch, hrefusal]

end

end RegisterMachine.Instruction
