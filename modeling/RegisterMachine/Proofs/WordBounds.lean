import RegisterMachine.Proofs.Effect
import RegisterMachine.Proofs.History

set_option autoImplicit false

/-! # The machine stores words

The words of a program are unbounded, but what gets into a register or on the stack is a signed
32-bit value: literals, sums and differences are wrapped, everything else is copied from a register
or the stack, and a return address is at most the length of the program
(`length_words_le_of_rowAt?`). So whatever is true of the 32-bit values and of the positions of the
program is true of all that is stored: `Stores` is what a step keeps (`Stores.step`). -/

namespace RegisterMachine

namespace Listing

/-- A row lies in the program, with all the words that it has. -/
theorem length_words_le_of_rowAt? {words : List Int} {address : Nat} {row : Row}
    (h : rowAt? words address = some row) : address + row.words.length ≤ words.length := by
  obtain ⟨rest, hdrop, htake⟩ := drop_of_rowAt? h
  have hlength : words.length - address = rest.length + 1 := by
    rw [← List.length_drop, hdrop, List.length_cons]
  have hoperands : row.operands.length ≤ rest.length := by
    rw [htake, List.length_take]
    exact Nat.min_le_right _ _
  rw [Row.words, List.length_cons]
  omega

end Listing

namespace Machine

/-- All registers and all entries of the stack have a property, and so has every position of the
    program up to its end. -/
structure Stores (P : Int → Prop) (m : Machine) : Prop where
  registers : ∀ r, P (m.registers.read r)
  stack : ∀ n ∈ m.stack, P n
  positions : ∀ n : Nat, n ≤ m.program.size → P n

/-- The position behind a fetched instruction is at most the end of the program. -/
theorem behind_le_size {m : Machine} {row : Listing.Row} {i : Instruction} (hpc : m.InBounds)
    (hrow : m.row? = some row) (hwords : row.words = i.words) :
    m.pc + i.width ≤ m.program.size := by
  have hlength := Listing.length_words_le_of_rowAt? hrow
  rw [hwords, Instruction.length_words, Array.length_toList] at hlength
  have hlow := hpc.1
  omega

namespace Stores

variable {P : Int → Prop} {m : Machine}

theorem refuse (h : m.Stores P) (cause : FaultCause) : (m.refuse cause).machine.Stores P where
  registers := by
    rw [refuse_registers]
    exact h.registers
  stack := by
    rw [refuse_stack]
    exact h.stack
  positions := by
    rw [refuse_program]
    exact h.positions

theorem stackAfter (h : m.Stores P) {i : Instruction} (hlow : 0 ≤ m.pc)
    (hhigh : m.pc + i.width ≤ m.program.size) : ∀ n ∈ m.stackAfter i, P n := by
  intro n hn
  cases i with
  | push source =>
      rcases List.mem_cons.1 hn with rfl | hn
      · exact h.registers source
      · exact h.stack n hn
  | call address =>
      rcases List.mem_cons.1 hn with rfl | hn
      · -- The return address is at most the length of the program.
        have hwidth : ((Instruction.call address).width : Int) = 2 := rfl
        have hbehind : (((m.pc + 2).toNat : Nat) : Int) = m.pc + 2 := by omega
        rw [← hbehind]
        exact h.positions _ (by omega)
      · exact h.stack n hn
  | pop target => exact h.stack n (List.mem_of_mem_tail hn)
  | ret => exact h.stack n (List.mem_of_mem_tail hn)
  | _ => exact h.stack n hn

variable (hfits : ∀ n, Word.Fits n → P n)

include hfits

/-- What a pop takes has the property, also where there is nothing on the stack. -/
theorem top (h : m.Stores P) : P (m.stack.headD 0) := by
  cases hstack : m.stack with
  | nil => exact hfits 0 Word.fits_zero
  | cons top rest => exact h.stack top (hstack ▸ List.mem_cons_self)

theorem written (h : m.Stores P) {i : Instruction} {target : Register} {content : Int}
    (hwritten : m.written? i = some (target, content)) : P content := by
  cases i with
  | movr _ source =>
      cases hwritten
      exact h.registers source
  | movv _ value =>
      cases hwritten
      exact hfits _ (Word.fits_wrap value)
  | add _ source =>
      cases hwritten
      exact hfits _ (Word.fits_wrap _)
  | sub _ source =>
      cases hwritten
      exact hfits _ (Word.fits_wrap _)
  | pop _ =>
      cases hwritten
      exact h.top hfits
  | _ => cases hwritten

theorem registersAfter (h : m.Stores P) (i : Instruction) (r : Register) :
    P ((m.registersAfter i).read r) := by
  unfold Machine.registersAfter
  cases hwritten : m.written? i with
  | none => exact h.registers r
  | some written =>
      obtain ⟨target, content⟩ := written
      by_cases hr : target = r
      · subst hr
        simp only [Registers.read_write_self]
        exact h.written hfits hwritten
      · simp only [Registers.read_write_of_ne _ _ hr]
        exact h.registers r

theorem step (h : m.Stores P) : m.step.machine.Stores P := by
  have hstepped := m.stepped
  generalize m.step = turn at hstepped
  cases hstepped with
  | resting => exact h
  | outside => exact ⟨h.registers, h.stack, h.positions⟩
  | refused =>
      refine refuse ?_ _
      exact ⟨h.registers, h.stack, h.positions⟩
  | offScreen =>
      refine refuse ?_ _
      exact ⟨h.registers, h.stack, h.positions⟩
  | failed => exact ⟨h.registers, h.stack, h.positions⟩
  | @executed _ i _ hpc hrow hwords =>
      constructor
      · rw [effect_registers]
        exact h.registersAfter hfits i
      · rw [effect_stack]
        exact h.stackAfter hpc.1 (behind_le_size hpc hrow hwords)
      · rw [effect_program]
        exact h.positions

end Stores

section

variable {P : Int → Prop} (hfits : ∀ n, Word.Fits n → P n)

include hfits

theorem stores_fresh (screen : Screen) : (fresh screen).Stores P where
  registers := by
    intro r
    show P (Registers.zero.read r)
    rw [Registers.read_zero]
    exact hfits 0 Word.fits_zero
  stack := fun _ hn => absurd hn List.not_mem_nil
  positions := by
    intro n hn
    obtain rfl : n = 0 := Nat.le_zero.1 hn
    exact hfits 0 Word.fits_zero

/-- A load keeps the registers or sets them to zero, and nothing else is stored. -/
theorem stores_load {m : Machine} (hregisters : ∀ r, P (m.registers.read r)) {program : List Int}
    (hpositions : ∀ n : Nat, n ≤ program.length → P n) (output : String) (resetRegisters : Bool) :
    (m.load program output resetRegisters).Stores P where
  registers := by
    intro r
    cases resetRegisters with
    | false => exact hregisters r
    | true =>
        show P (Registers.zero.read r)
        rw [Registers.read_zero]
        exact hfits 0 Word.fits_zero
  stack := fun _ hn => absurd hn List.not_mem_nil
  positions := hpositions

theorem stores_operateAll (screen : Screen) {history : List Operation}
    (hpositions : ∀ program output resetRegisters,
      .load program output resetRegisters ∈ history → ∀ n : Nat, n ≤ program.length → P n) :
    ((fresh screen).operateAll history).Stores P := by
  refine operateAll_invariant (fun _ h => h.step hfits) ?_ (stores_fresh hfits screen) history ?_
  · intro m screen h
    exact ⟨h.registers, h.stack, h.positions⟩
  · intro program output resetRegisters hmem m h
    have hloaded := hpositions program output resetRegisters hmem
    exact stores_load hfits h.registers hloaded output resetRegisters

end

/-! ## Signed 32-bit values -/

/-- The greatest length of a program whose positions are all signed 32-bit values. -/
def programLimit : Nat := 0x7fffffff

/-- All registers and all entries of the stack are signed 32-bit values, and so is every position of
    the program up to its end. -/
structure Bounded (m : Machine) : Prop where
  registers : ∀ r, Word.Fits (m.registers.read r)
  stack : ∀ n ∈ m.stack, Word.Fits n
  program : m.program.size ≤ programLimit

theorem bounded_operateAll (screen : Screen) {history : List Operation}
    (hlength : ∀ program output resetRegisters,
      .load program output resetRegisters ∈ history → program.length ≤ programLimit) :
    ((fresh screen).operateAll history).Bounded := by
  have hstores : ((fresh screen).operateAll history).Stores Word.Fits := by
    refine stores_operateAll (fun _ h => h) screen ?_
    intro program output resetRegisters hmem n hn
    have hbound := hlength program output resetRegisters hmem
    unfold programLimit at hbound
    unfold Word.Fits
    omega
  have hsize := (hstores.positions _ (Nat.le_refl _)).2
  refine ⟨hstores.registers, hstores.stack, ?_⟩
  unfold programLimit
  omega

/-- After any history of programs that are not too long, there are ten registers, and they and all
    entries of the stack hold signed 32-bit values. -/
theorem stored_words_fit (screen : Screen) {history : List Operation}
    (hlength : ∀ program output resetRegisters,
      .load program output resetRegisters ∈ history → program.length ≤ programLimit) :
    let m := (fresh screen).operateAll history
    m.registers.toList.length = 10 ∧
      (∀ n ∈ m.registers.toList, Word.Fits n) ∧ ∀ n ∈ m.stack, Word.Fits n := by
  intro m
  have hbounded := bounded_operateAll screen hlength
  refine ⟨Vector.length_toList, ?_, hbounded.stack⟩
  intro n hn
  obtain ⟨index, hindex, rfl⟩ := List.getElem_of_mem hn
  rw [Vector.length_toList] at hindex
  exact hbounded.registers ⟨index, hindex⟩

/-- A literal that is wrapped, pushed, and left below the return address of a call in the last
    row. -/
theorem stored_words_fit_wrapped :
    let history : List Operation :=
      [.load [11, 0, 0x80000000, 30, 0, 42, 7] "" true, .run none true 5]
    let m := (fresh Screen.dot).operateAll history
    m.stack = [7, -0x80000000] ∧ ∀ n ∈ m.stack, Word.Fits n := by
  intro history m
  have hlength : ∀ program output resetRegisters,
      .load program output resetRegisters ∈ history → program.length ≤ programLimit := by
    intro program output resetRegisters hmem
    rcases List.mem_pair.1 hmem with hload | hrun
    · cases hload
      decide
    · cases hrun
  exact ⟨by decide +kernel, (stored_words_fit Screen.dot hlength).2.2⟩

end Machine

end RegisterMachine
