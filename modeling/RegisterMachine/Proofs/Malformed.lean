import RegisterMachine.Proofs.Effect

set_option autoImplicit false

/-! # Malformed instructions

An instruction is malformed if its row is not whole or if it sets a pixel outside the screen. The
cause is then the first thing that is wrong. A step records a fault for exactly these causes
(`step_of_malformed`, `step_of_not_malformed`), and it leaves nothing else behind (`faulted`) but
one error in the log, which names what is to blame and where it stands (`reports_faulted`). -/

namespace RegisterMachine

/-! ## Whole rows and instructions -/

namespace Instruction

theorem opcode_of_whole {row : Listing.Row} {op : Opcode} {i : Instruction} (h : row.Whole op)
    (hwords : row.words = i.words) : i.opcode = op := by
  have hcode := h.opcode
  rw [(List.cons.inj hwords).1, Opcode.ofCode?_code] at hcode
  exact Option.some.inj hcode

/-- The operands of a whole row, with their kinds, are those of its instruction. -/
theorem zip_operands_of_whole {row : Listing.Row} {op : Opcode} {i : Instruction}
    (h : row.Whole op) (hwords : row.words = i.words) :
    i.opcode.signature.zip i.operands = op.signature.zip row.operands := by
  rw [opcode_of_whole h hwords, (List.cons.inj hwords).2]

/-- Nothing is wrong with the row of an instruction. -/
theorem offence?_of_words {row : Listing.Row} {i : Instruction} (h : row.words = i.words) :
    row.offence? = none := by
  obtain ⟨hopcode, hoperands⟩ := List.cons.inj h
  simp only [Listing.Row.offence?, hopcode, hoperands, Opcode.ofCode?_code,
    Listing.operandOffence?_eq_none_iff]
  exact ⟨Nat.le_of_eq i.length_operands.symm, i.accepts_operands⟩

end Instruction

namespace Listing

/-- The position behind a row is the position behind its instruction. -/
theorem Row.next_of_words {row : Row} {i : Instruction} (h : row.words = i.words) :
    row.next = row.address + i.width := by
  rw [Row.next, (List.cons.inj h).1, operandCount_code, Instruction.width, Nat.add_assoc]

/-- No operand is faulted as an opcode. -/
theorem ne_unknownOpcode_of_operandOffence {kinds : List OperandKind} {words : List Int}
    {cause : FaultCause} (h : operandOffence? kinds words = some cause) (word : Int) :
    cause ≠ .unknownOpcode word := by
  fun_induction operandOffence? kinds words with
  | case1 => cases h
  | case2 => cases h; simp
  | case3 kind kinds word words haccepts ih => exact ih h
  | case4 kind kinds word words haccepts => cases h; simp

/-- An operand is faulted with a message about itself. -/
theorem numbers_subset_of_operandOffence {kinds : List OperandKind} {words : List Int}
    {cause : FaultCause} (h : operandOffence? kinds words = some cause) :
    cause.numbers ⊆ words := by
  fun_induction operandOffence? kinds words with
  | case1 => cases h
  | case2 => cases h; exact List.nil_subset _
  | case3 kind kinds word words haccepts ih => exact List.subset_cons_of_subset _ (ih h)
  | case4 kind kinds word words haccepts =>
      cases h
      exact List.cons_subset.2 ⟨List.mem_cons_self, List.nil_subset _⟩

/-- The message for a row that is not whole names words of the row only. -/
theorem numbers_subset_of_offence {row : Row} {cause : FaultCause}
    (h : row.offence? = some cause) : cause.numbers ⊆ row.words := by
  cases hop : Opcode.ofCode? row.opcode with
  | none =>
      simp only [Row.offence?, hop, Option.some.injEq] at h
      subst h
      exact List.cons_subset.2 ⟨List.mem_cons_self, List.nil_subset _⟩
  | some op =>
      simp only [Row.offence?, hop] at h
      exact List.subset_cons_of_subset _ (numbers_subset_of_operandOffence h)

theorem words_subset_of_rowAt? {words : List Int} {address : Nat} {row : Row}
    (h : rowAt? words address = some row) : row.words ⊆ words := by
  obtain ⟨rest, hdrop, htake⟩ := drop_of_rowAt? h
  rw [Row.words, htake]
  refine List.Subset.trans (List.cons_subset_cons _ (List.take_subset _ _)) ?_
  rw [← hdrop]
  exact List.drop_subset _ _

end Listing

/-! ## Recorded faults -/

namespace Turn

/-- A step records a fault: the machine keeps it and the log tells it. -/
def Records (turn : Turn) (fault : Fault) : Prop :=
  turn.machine.fault = some fault ∧ Event.logged (.faulted fault) ∈ turn.events

/-- All that a step does to the outside is to log one error, with a certain text. -/
def TellsError (turn : Turn) (text : String) : Prop :=
  ∃ notice, turn.events = [.logged notice] ∧ notice.level = .error ∧ notice.text = text

/-- What a step tells of the cause for which it refuses the instruction at a position. -/
def Reports (turn : Turn) (position : Int) (cause : FaultCause) : Prop :=
  let place := Decimal.text position
  match cause with
  | .unknownOpcode word =>
    let number := Decimal.text word
    turn.TellsError s!"Unknown instruction: {number}(UNKNOWN) at {place}"
  | .truncated => turn.TellsError s!"Truncated instruction at {place}"
  | .invalidRegister index =>
    let number := Decimal.text index
    turn.TellsError s!"Invalid register {number} at {place}"
  | .offScreen x y =>
    let column := Decimal.text x
    let row := Decimal.text y
    turn.TellsError s!"Pixel ({column}, {row}) is off screen at {place}"

end Turn

namespace Machine

/-- What is wrong with the instruction that a row stands for. -/
inductive Malformed (m : Machine) (row : Listing.Row) : FaultCause → Prop where
  /-- The first word is no opcode. -/
  | opcode (h : Opcode.ofCode? row.opcode = none) : Malformed m row (.unknownOpcode row.opcode)
  /-- An operand is missing or names no register, and none before it. -/
  | operand {op : Opcode} {cause : FaultCause} (hop : Opcode.ofCode? row.opcode = some op)
      (h : Listing.operandOffence? op.signature row.operands = some cause) : Malformed m row cause
  /-- The pixel to set is outside the screen. -/
  | pixel {x y colour : Register} (hwords : row.words = (Instruction.draw x y colour).words)
      (h : ¬ m.screen.OnScreen (m.registers.read x) (m.registers.read y)) :
      Malformed m row (.offScreen (m.registers.read x) (m.registers.read y))

variable {m : Machine} {row : Listing.Row} {cause : FaultCause}

/-- Only a word that is no opcode is faulted as one. -/
theorem ofCode?_of_unknownOpcode {word : Int} (h : m.Malformed row (.unknownOpcode word)) :
    Opcode.ofCode? word = none := by
  cases h with
  | opcode hnone => exact hnone
  | operand hop hcause => exact absurd rfl (Listing.ne_unknownOpcode_of_operandOffence hcause word)

/-- A row that is not whole is malformed for its first offence only. -/
theorem malformed_iff_of_offence {first : FaultCause} (h : row.offence? = some first) :
    m.Malformed row cause ↔ cause = first := by
  constructor
  · intro hmalformed
    cases hmalformed with
    | opcode hnone => simpa [Listing.Row.offence?, hnone] using h
    | operand hop hcause => simpa [Listing.Row.offence?, hop, hcause] using h
    | pixel hwords hoff =>
        rw [Instruction.offence?_of_words hwords] at h
        cases h
  · rintro rfl
    cases hop : Opcode.ofCode? row.opcode with
    | none =>
        simp only [Listing.Row.offence?, hop, Option.some.injEq] at h
        subst h
        exact .opcode hop
    | some op =>
        simp only [Listing.Row.offence?, hop] at h
        exact .operand hop h

/-- A row without an offence is malformed only where it sets a pixel outside the screen. -/
theorem malformed_iff_of_offence_none (h : row.offence? = none) :
    m.Malformed row cause ↔ ∃ x y colour, row.words = (Instruction.draw x y colour).words ∧
      ¬ m.screen.OnScreen (m.registers.read x) (m.registers.read y) ∧
      cause = .offScreen (m.registers.read x) (m.registers.read y) := by
  constructor
  · intro hmalformed
    cases hmalformed with
    | opcode hopcode => simp [Listing.Row.offence?, hopcode] at h
    | operand hop hcause => simp [Listing.Row.offence?, hop, hcause] at h
    | pixel hwords hoff => exact ⟨_, _, _, hwords, hoff, rfl⟩
  · rintro ⟨x, y, colour, hwords, hoff, rfl⟩
    exact .pixel hwords hoff

theorem malformed_iff_of_words {i : Instruction} (h : row.words = i.words) :
    m.Malformed row cause ↔ ∃ x y colour, i = .draw x y colour ∧
      ¬ m.screen.OnScreen (m.registers.read x) (m.registers.read y) ∧
      cause = .offScreen (m.registers.read x) (m.registers.read y) := by
  rw [malformed_iff_of_offence_none (Instruction.offence?_of_words h)]
  constructor
  · rintro ⟨x, y, colour, hwords, hpixel⟩
    exact ⟨x, y, colour, Instruction.words_injective (h.symm.trans hwords), hpixel⟩
  · rintro ⟨x, y, colour, rfl, hpixel⟩
    exact ⟨x, y, colour, h, hpixel⟩

theorem not_malformed_of_admits {i : Instruction} (h : row.words = i.words)
    (hadmits : m.Admits i) : ¬ m.Malformed row cause := by
  rw [malformed_iff_of_words h]
  rintro ⟨x, y, colour, rfl, hoff, -⟩
  exact hoff hadmits

theorem not_malformed_of_fails {i : Instruction} {failure : Failure} (h : row.words = i.words)
    (hfails : m.Fails i failure) : ¬ m.Malformed row cause := by
  rw [malformed_iff_of_words h]
  rintro ⟨x, y, colour, rfl, -, -⟩
  cases hfails

/-- The machine that has recorded a fault of the instruction at its program counter, and that is
    otherwise as it was. -/
def faulted (m : Machine) (cause : FaultCause) : Turn :=
  ⟨{ m with start := m.pc, fault := some ⟨cause, m.pc⟩, halted := true },
    [.logged (.faulted ⟨cause, m.pc⟩)], none⟩

theorem faulted_records (m : Machine) (cause : FaultCause) :
    (m.faulted cause).Records ⟨cause, m.pc⟩ :=
  ⟨rfl, List.mem_singleton_self _⟩

theorem tellsError_faulted (m : Machine) (cause : FaultCause) :
    (m.faulted cause).TellsError (Fault.message ⟨cause, m.pc⟩) :=
  ⟨.faulted ⟨cause, m.pc⟩, rfl, rfl, rfl⟩

/-- The log tells the first thing that is wrong with a malformed instruction. -/
theorem reports_faulted (h : m.Malformed row cause) : (m.faulted cause).Reports m.pc cause := by
  have htells := m.tellsError_faulted cause
  cases cause with
  | unknownOpcode word =>
      have hname : mnemonicOf word = "UNKNOWN" := by
        rw [mnemonicOf, ofCode?_of_unknownOpcode h]
      have hjoined : toString "(UNKNOWN) at " =
          toString "(" ++ toString "UNKNOWN" ++ toString ") at " := rfl
      simp only [Turn.Reports, hjoined]
      simpa only [Fault.message, hname, String.append_assoc] using htells
  | _ => exact htells

/-- An effect leaves the recorded fault as it is, and logs no error. -/
theorem effect_fault (m : Machine) (i : Instruction) :
    (m.effect i).machine.fault = m.fault ∧
      ∀ notice, Event.logged notice ∈ (m.effect i).events → notice.level ≠ .error := by
  have hemitted (notice : Notice) : Event.logged notice ∉ m.emitted i := by
    cases i <;> simp [emitted]
  unfold effect
  split_ifs
  · refine ⟨rfl, fun notice hnotice => ?_⟩
    cases List.mem_singleton.1 hnotice
    decide
  · exact ⟨rfl, fun notice hnotice => absurd hnotice (hemitted notice)⟩
  · refine ⟨rfl, fun notice hnotice => ?_⟩
    cases List.mem_singleton.1 ((List.mem_append.1 hnotice).resolve_left (hemitted notice))
    decide

/-! ## The faults of a step -/

/-- A malformed instruction is recorded as a fault where the numbers of its message can be written,
    and nothing else happens. -/
theorem step_of_malformed (hm : m.halted = false) (hpc : m.InBounds) (hrow : m.row? = some row)
    (h : m.Malformed row cause) (hwritable : cause.Writable) : m.step = m.faulted cause := by
  have hstepped := m.stepped
  generalize m.step = turn at hstepped
  cases hstepped with
  | resting hhalted => exact absurd hhalted (by simp [hm])
  | outside _ hout => exact absurd hpc hout
  | refused _ _ hrow' hcause read =>
      obtain rfl := Option.some.inj (hrow.symm.trans hrow')
      obtain rfl := (malformed_iff_of_offence hcause).1 h
      exact refuse_of_writable _ hwritable
  | offScreen _ _ hrow' hwords hoff =>
      obtain rfl := Option.some.inj (hrow.symm.trans hrow')
      obtain ⟨x, y, colour, hdraw, -, rfl⟩ := (malformed_iff_of_words hwords).1 h
      cases hdraw
      exact refuse_of_writable _ hwritable
  | failed _ _ hrow' hwords hfails =>
      obtain rfl := Option.some.inj (hrow.symm.trans hrow')
      exact absurd h (not_malformed_of_fails hwords hfails)
  | executed _ _ hrow' hwords hadmits =>
      obtain rfl := Option.some.inj (hrow.symm.trans hrow')
      exact absurd h (not_malformed_of_admits hwords hadmits)

/-- An instruction that is not malformed records nothing. -/
theorem step_of_not_malformed (hm : m.halted = false) (hpc : m.InBounds)
    (hrow : m.row? = some row) (h : ∀ cause, ¬ m.Malformed row cause) :
    m.step.machine.fault = m.fault ∧
      ∀ notice, Event.logged notice ∈ m.step.events → notice.level ≠ .error := by
  have hstepped := m.stepped
  generalize m.step = turn at hstepped
  cases hstepped with
  | resting hhalted => exact absurd hhalted (by simp [hm])
  | outside _ hout => exact absurd hpc hout
  | refused _ _ hrow' hcause read =>
      obtain rfl := Option.some.inj (hrow.symm.trans hrow')
      exact absurd ((malformed_iff_of_offence hcause).2 rfl) (h _)
  | offScreen _ _ hrow' hwords hoff =>
      obtain rfl := Option.some.inj (hrow.symm.trans hrow')
      exact absurd (.pixel hwords hoff) (h _)
  | failed => exact ⟨rfl, fun _ hnotice => absurd hnotice List.not_mem_nil⟩
  | executed => exact m.effect_fault _

theorem offScreen_writable (hregisters : ∀ r, Decimal.Writable (m.registers.read r))
    (x y : Register) :
    (FaultCause.offScreen (m.registers.read x) (m.registers.read y)).Writable := by
  intro n hn
  rcases List.mem_pair.1 hn with rfl | rfl
  · exact hregisters x
  · exact hregisters y

/-- The message for a malformed instruction can be written if that for an offence of the row can. -/
theorem writable_of_offence_writable
    (hoffence : ∀ first, row.offence? = some first → first.Writable)
    (hregisters : ∀ r, Decimal.Writable (m.registers.read r)) (h : m.Malformed row cause) :
    cause.Writable := by
  cases hcause : row.offence? with
  | some first =>
      obtain rfl := (malformed_iff_of_offence hcause).1 h
      exact hoffence cause hcause
  | none =>
      obtain ⟨x, y, colour, -, -, rfl⟩ := (malformed_iff_of_offence_none hcause).1 h
      exact offScreen_writable hregisters x y

theorem writable_of_malformed (hrow : m.row? = some row)
    (hprogram : ∀ word ∈ m.program, Decimal.Writable word)
    (hregisters : ∀ r, Decimal.Writable (m.registers.read r)) (h : m.Malformed row cause) :
    cause.Writable := by
  refine writable_of_offence_writable ?_ hregisters h
  -- The message for an offence names words of the row only.
  intro first hfirst n hn
  have hword := Listing.words_subset_of_rowAt? hrow (Listing.numbers_subset_of_offence hfirst hn)
  exact hprogram n (Array.mem_toList_iff.1 hword)

/-- One step records a fault exactly if the instruction is malformed, for the first thing that is
    wrong with it. It then changes nothing but the fault, the start and the halt, and logs one error
    that says what is wrong and where; otherwise it logs no error. The numbers that a message may
    name must have a decimal text, as signed 32-bit contents of registers always do. -/
theorem step_records_iff_malformed (hm : m.halted = false) (hpc : m.InBounds)
    (hrow : m.row? = some row) (hprogram : ∀ word ∈ m.program, Decimal.Writable word)
    (hregisters : ∀ r, Decimal.Writable (m.registers.read r)) :
    (∀ fault, m.step.Records fault ↔ ∃ cause, m.Malformed row cause ∧ fault = ⟨cause, m.pc⟩) ∧
      (∀ cause, m.Malformed row cause → m.step = m.faulted cause ∧ m.step.Reports m.pc cause) ∧
      ((∀ cause, ¬ m.Malformed row cause) → m.step.machine.fault = m.fault ∧
        ∀ notice, Event.logged notice ∈ m.step.events → notice.level ≠ .error) := by
  have hfaulted (cause : FaultCause) (h : m.Malformed row cause) : m.step = m.faulted cause :=
    step_of_malformed hm hpc hrow h (writable_of_malformed hrow hprogram hregisters h)
  refine ⟨fun fault => ⟨fun hrecords => ?_, ?_⟩, fun cause h => ⟨hfaulted cause h, ?_⟩,
    step_of_not_malformed hm hpc hrow⟩
  · by_cases hsome : ∃ cause, m.Malformed row cause
    · obtain ⟨cause, h⟩ := hsome
      rw [hfaulted cause h] at hrecords
      exact ⟨cause, h, (Option.some.inj hrecords.1).symm⟩
    · have hnone := step_of_not_malformed hm hpc hrow (fun cause h => hsome ⟨cause, h⟩)
      exact absurd rfl (hnone.2 _ hrecords.2)
  · rintro ⟨cause, h, rfl⟩
    rw [hfaulted cause h]
    exact m.faulted_records cause
  · rw [hfaulted cause h]
    exact reports_faulted h

/-- The operands of a jump are read before it is missed that its address is not there. -/
theorem step_records_first_offence :
    let m : Machine := { Machine.fresh Screen.dot with program := #[41, 0, 12] }
    m.step.Records ⟨.invalidRegister 12, 0⟩ ∧ m.step.TellsError "Invalid register 12 at 0" := by
  intro m
  have hdrop : List.drop 0 [41, 0, 12] = [(41 : Int), 0, 12] := rfl
  have hrow : m.row? = some ⟨0, 41, [0, 12]⟩ := Listing.rowAt?_of_drop hdrop
  have hprogram : ∀ word ∈ m.program, Decimal.Writable word := by
    intro word hword
    have hsmall : word ∈ [41, 0, 12] := Array.mem_toList_iff.2 hword
    exact Decimal.writable_of_natAbs_lt (by simp at hsmall; omega)
  have hregisters : ∀ r, Decimal.Writable (m.registers.read r) := by
    intro r
    rw [show m.registers.read r = 0 from Registers.read_zero r]
    exact Decimal.writable_of_natAbs_lt (by decide)
  have hop : Opcode.ofCode? 41 = some .jl := rfl
  have hmalformed : m.Malformed ⟨0, 41, [0, 12]⟩ (.invalidRegister 12) :=
    .operand hop (by decide)
  obtain ⟨hrecords, hreports, -⟩ :=
    step_records_iff_malformed rfl ⟨by decide, by decide⟩ hrow hprogram hregisters
  have htext : s!"Invalid register {Decimal.text 12} at {Decimal.text 0}" =
      "Invalid register 12 at 0" := by decide +kernel
  refine ⟨(hrecords _).2 ⟨_, hmalformed, rfl⟩, ?_⟩
  rw [← htext]
  exact (hreports _ hmalformed).2

end Machine

end RegisterMachine
