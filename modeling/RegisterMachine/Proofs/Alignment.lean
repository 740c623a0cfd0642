import RegisterMachine.Proofs.Malformed
import RegisterMachine.Proofs.Reach

set_option autoImplicit false

/-! # Aligned execution

A position is a landing of a program if it is the address of a row or outside the program. In a
program whose rows are whole, whose jumps go to landings and which pushes no data, the program
counter and all stack entries stay landings (`Aligned.step`): the stack then holds nothing but the
positions behind calls. So every instruction begins at a row, and the only thing that can be wrong
with it is a pixel outside the screen (`Aligned.reaches`). -/

namespace RegisterMachine

namespace Listing

/-- A position is the address of a row or outside the program. -/
def Landing (words : List Int) (position : Int) : Prop :=
  0 ≤ position → position < words.length → ∃ row ∈ rows words, (row.address : Int) = position

/-- All rows are whole, all jumps go to landings, and no data is pushed. -/
def WellFormed (words : List Int) : Prop :=
  ∀ row ∈ rows words, ∃ op, row.Whole op ∧ op ≠ .push ∧
    ∀ operand ∈ op.signature.zip row.operands, operand.1 = .address → Landing words operand.2

theorem landing_zero (words : List Int) : Landing words 0 := by
  intro _ hlength
  have hpos : 0 < words.length := by omega
  obtain ⟨row, hrow, haddress⟩ := exists_row_at_zero hpos
  exact ⟨row, hrow, by omega⟩

/-- Behind a row there is a row again or the end of the program. -/
theorem landing_next {words : List Int} {row : Row} (h : row ∈ rows words) :
    Landing words row.next := by
  intro _ hlength
  obtain ⟨later, hlater, haddress⟩ := exists_row_at_next h (by omega)
  exact ⟨later, hlater, by omega⟩

end Listing

namespace Machine

open Listing

/-! ## The invariant -/

/-- The machine runs a program from row to row, and has recorded no fault but a pixel outside the
    screen. -/
structure Aligned (words : List Int) (m : Machine) : Prop where
  program : m.program = words.toArray
  pc : Landing words m.pc
  stack : ∀ address ∈ m.stack, Landing words address
  fault : ∀ fault, m.fault = some fault → (∃ x y, fault.cause = .offScreen x y) ∧
    ∃ row ∈ rows words, row.opcode = Opcode.draw.code ∧ (row.address : Int) = fault.position

variable {words : List Int} {m : Machine}

theorem aligned_load (m : Machine) (words : List Int) (output : String) (resetRegisters : Bool) :
    Aligned words (m.load words output resetRegisters) where
  program := rfl
  pc := landing_zero words
  stack := fun _ h => absurd h List.not_mem_nil
  fault := fun _ h => absurd h (by simp [load])

/-- At the address of a row of the program, the row is the one at the program counter. -/
theorem row?_of_mem_rows (hprogram : m.program = words.toArray) {row : Row}
    (hrow : row ∈ rows words) (haddress : (row.address : Int) = m.pc) : m.row? = some row := by
  rw [Machine.row?, hprogram, ← haddress, Int.toNat_natCast]
  exact rowAt?_of_mem_rows hrow

namespace Aligned

/-- A machine inside its program stands at a row. -/
theorem exists_row (h : Aligned words m) (hpc : m.InBounds) :
    ∃ row ∈ rows words, (row.address : Int) = m.pc ∧ m.row? = some row := by
  have hlength : m.pc < words.length := by
    have := hpc.2
    rwa [h.program, List.size_toArray] at this
  obtain ⟨row, hrow, haddress⟩ := h.pc hpc.1 hlength
  exact ⟨row, hrow, haddress, row?_of_mem_rows h.program hrow haddress⟩

variable {row : Row} {i : Instruction}

/-- The row at the program counter of a machine inside its program is one of the listing. -/
theorem mem_rows (h : Aligned words m) (hpc : m.InBounds) (hrow : m.row? = some row) :
    row ∈ rows words ∧ (row.address : Int) = m.pc := by
  obtain ⟨row', hmem, haddress, hrow'⟩ := h.exists_row hpc
  obtain rfl := Option.some.inj (hrow.symm.trans hrow')
  exact ⟨hmem, haddress⟩

/-- The position behind the instruction at the program counter is a landing. -/
theorem landing_behind (hrow : row ∈ rows words) (haddress : (row.address : Int) = m.pc)
    (hwords : row.words = i.words) : Landing words (m.pc + i.width) := by
  have hnext : (row.next : Int) = m.pc + i.width := by
    rw [Row.next_of_words hwords, ← haddress, Nat.cast_add]
  exact hnext ▸ landing_next hrow

/-- The address operands of an instruction in a well-formed program are landings. -/
theorem landing_of_address (hwell : WellFormed words) (hrow : row ∈ rows words)
    (hwords : row.words = i.words) {address : Int}
    (haddress : (OperandKind.address, address) ∈ i.opcode.signature.zip i.operands) :
    Landing words address := by
  obtain ⟨op, hwhole, -, hlandings⟩ := hwell row hrow
  rw [Instruction.zip_operands_of_whole hwhole hwords] at haddress
  exact hlandings _ haddress rfl

/-- The next entry of the stack, or the beginning of the program, is a landing. -/
theorem landing_top (h : Aligned words m) : Landing words (m.stack.headD 0) := by
  cases hstack : m.stack with
  | nil => exact landing_zero words
  | cons top rest => exact h.stack top (hstack ▸ List.mem_cons_self)

/-- An instruction of a well-formed program goes on at a landing. -/
theorem landing_pcAfter (h : Aligned words m) (hwell : WellFormed words)
    (hrow : row ∈ rows words) (haddress : (row.address : Int) = m.pc)
    (hwords : row.words = i.words) : Landing words (m.pcAfter i) := by
  rcases m.pcAfter_cases i with hpc | hnamed | ⟨-, hpc⟩
  · rw [hpc]
    exact landing_behind hrow haddress hwords
  · exact landing_of_address hwell hrow hwords hnamed
  · rw [hpc]
    exact h.landing_top

/-- An instruction of a well-formed program leaves nothing but landings on the stack. -/
theorem landing_stackAfter (h : Aligned words m) (hwell : WellFormed words)
    (hrow : row ∈ rows words) (haddress : (row.address : Int) = m.pc)
    (hwords : row.words = i.words) : ∀ address ∈ m.stackAfter i, Landing words address := by
  have hbehind := landing_behind hrow haddress hwords
  cases i with
  | push source =>
      obtain ⟨op, hwhole, hpush, -⟩ := hwell row hrow
      -- Data on the stack could be returned to, so there must be none.
      exact absurd (Instruction.opcode_of_whole hwhole hwords).symm hpush
  | call target =>
      intro address hmem
      rcases List.mem_cons.1 hmem with rfl | hmem
      · exact hbehind
      · exact h.stack address hmem
  | pop target => exact fun address hmem => h.stack address (List.mem_of_mem_tail hmem)
  | ret => exact fun address hmem => h.stack address (List.mem_of_mem_tail hmem)
  | _ => exact h.stack

/-- Where the machine stands nothing is wrong with the row but, perhaps, a pixel. -/
theorem offence?_eq_none (h : Aligned words m) (hwell : WellFormed words) (hpc : m.InBounds)
    (hrow : m.row? = some row) : row.offence? = none := by
  obtain ⟨op, hwhole, -⟩ := hwell row (h.mem_rows hpc hrow).1
  exact (offence?_eq_none_iff hrow).2 ⟨op, hwhole⟩

/-- A machine that has only begun an instruction stands behind it. -/
theorem begun (h : Aligned words m) (hrow : row ∈ rows words)
    (haddress : (row.address : Int) = m.pc) (hwords : row.words = i.words) :
    Aligned words (m.begun i) where
  program := h.program
  pc := landing_behind hrow haddress hwords
  stack := h.stack
  fault := h.fault

/-- A refused pixel is recorded at its row, or leaves the machine behind it. -/
theorem refuse_pixel {x y colour : Register} (h : Aligned words m) (hrow : row ∈ rows words)
    (haddress : (row.address : Int) = m.pc)
    (hwords : row.words = (Instruction.draw x y colour).words) (column line : Int) :
    Aligned words ((m.begun (.draw x y colour)).refuse (.offScreen column line)).machine := by
  have hbegun := h.begun hrow haddress hwords
  by_cases hwritable : (FaultCause.offScreen column line).Writable
  · rw [refuse_of_writable _ hwritable]
    refine ⟨h.program, h.pc, h.stack, fun fault hfault => ?_⟩
    obtain rfl := Option.some.inj hfault
    exact ⟨⟨column, line, rfl⟩, row, hrow, (List.cons.inj hwords).1, haddress⟩
  · -- Without a text for its message the fault is not recorded, and the step fails.
    rw [refuse, if_neg hwritable]
    exact hbegun

/-- One step of a well-formed program keeps the machine aligned. -/
theorem step (h : Aligned words m) (hwell : WellFormed words) : Aligned words m.step.machine := by
  have hstepped := m.stepped
  generalize m.step = turn at hstepped
  cases hstepped with
  | resting => exact h
  | outside => exact ⟨h.program, h.pc, h.stack, h.fault⟩
  | refused _ hpc hrow hcause =>
      rw [h.offence?_eq_none hwell hpc hrow] at hcause
      cases hcause
  | offScreen _ hpc hrow hwords =>
      obtain ⟨hmem, haddress⟩ := h.mem_rows hpc hrow
      exact h.refuse_pixel hmem haddress hwords _ _
  | failed _ hpc hrow hwords =>
      obtain ⟨hmem, haddress⟩ := h.mem_rows hpc hrow
      exact h.begun hmem haddress hwords
  | executed _ hpc hrow hwords =>
      obtain ⟨hmem, haddress⟩ := h.mem_rows hpc hrow
      constructor
      · rw [effect_program, h.program]
      · rw [effect_pc]
        exact h.landing_pcAfter hwell hmem haddress hwords
      · rw [effect_stack]
        exact h.landing_stackAfter hwell hmem haddress hwords
      · rw [(m.effect_fault _).1]
        exact h.fault

theorem refresh (h : Aligned words m) : Aligned words m.refresh.1 :=
  ⟨h.program, h.pc, h.stack, h.fault⟩

/-- All machines that an aligned one comes to are aligned. -/
theorem reaches {m' : Machine} (h : Aligned words m) (hwell : WellFormed words)
    (hreaches : m.Reaches m') : Aligned words m' :=
  hreaches.invariant h (fun _ h => h.step hwell) (fun _ h => h.refresh)

end Aligned

/-! ## Well-formed programs -/

/-- However far a well-formed program has been executed, it stands at one of its rows, nothing is
    wrong with the row but a pixel that may be outside the screen, and no other fault than such a
    pixel has been recorded. -/
theorem faults_only_off_screen {m m' : Machine} {words : List Int} (hwell : WellFormed words)
    {output : String} {resetRegisters : Bool}
    (hreaches : (m.load words output resetRegisters).Reaches m') :
    (m'.halted = false → m'.InBounds →
      ∃ row ∈ rows words, (row.address : Int) = m'.pc ∧ m'.row? = some row ∧
        ∀ cause, m'.Malformed row cause → ∃ x y, cause = .offScreen x y) ∧
    ∀ fault, m'.fault = some fault → (∃ x y, fault.cause = .offScreen x y) ∧
      ∃ row ∈ rows words, row.opcode = Opcode.draw.code ∧ (row.address : Int) = fault.position := by
  have haligned := (aligned_load m words output resetRegisters).reaches hwell hreaches
  refine ⟨fun _ hpc => ?_, haligned.fault⟩
  obtain ⟨row, hmem, haddress, hrow⟩ := haligned.exists_row hpc
  refine ⟨row, hmem, haddress, hrow, fun cause hmalformed => ?_⟩
  have hnone := haligned.offence?_eq_none hwell hpc hrow
  obtain ⟨x, y, colour, -, -, hcause⟩ := (malformed_iff_of_offence_none hnone).1 hmalformed
  exact ⟨_, _, hcause⟩

/-- A call to the last row, which returns to the row behind the call. -/
theorem faults_only_off_screen_call :
    let words : List Int := [42, 3, 255, 50]
    let called := ((Machine.fresh Screen.dot).load words "" false).step.machine
    ∃ row ∈ rows words, (row.address : Int) = called.step.machine.pc := by
  intro words called
  have hrows : rows words = [⟨0, 42, [3]⟩, ⟨2, 255, []⟩, ⟨3, 50, []⟩] := by
    simp [words, rows, rowsFrom, operandCount, Opcode.ofCode?, Opcode.all, Opcode.code,
      Opcode.arity, Opcode.signature]
  have hwell : WellFormed words := by
    intro row hrow
    rw [hrows] at hrow
    simp only [List.mem_cons, List.not_mem_nil, or_false] at hrow
    rcases hrow with rfl | rfl | rfl
    · refine ⟨.call, ⟨rfl, rfl, by decide⟩, by decide, fun operand hmem _ => ?_⟩
      obtain rfl := List.mem_singleton.1 hmem
      exact fun _ _ => ⟨⟨3, 50, []⟩, by rw [hrows]; decide, rfl⟩
    · exact ⟨.halt, ⟨rfl, rfl, by decide⟩, by decide, fun _ hmem => absurd hmem List.not_mem_nil⟩
    · exact ⟨.ret, ⟨rfl, rfl, by decide⟩, by decide, fun _ hmem => absurd hmem List.not_mem_nil⟩
  have hreaches : ((Machine.fresh Screen.dot).load words "" false).Reaches called.step.machine :=
    Reaches.refl.plainStep.plainStep
  obtain ⟨row, hmem, haddress, -⟩ :=
    (faults_only_off_screen hwell hreaches).1 (by decide) (by decide)
  exact ⟨row, hmem, haddress⟩

end Machine

end RegisterMachine
