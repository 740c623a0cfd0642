import RegisterMachine.Proofs.Control
import RegisterMachine.Proofs.Duration
import RegisterMachine.Proofs.WordBounds

set_option autoImplicit false

/-! # Steps that give no answer

What goes wrong with an instruction is recorded as a fault, with two exceptions: a sleep whose
duration is beyond binary floating point, and a fault of a word that has too many digits for the
message. `Machine.Escapes` lists them. Such a step leaves the machine running behind the words that
it has read, and without a fault (`Escapes.step_eq`). Nothing else gets out of a step, since all
numbers that are stored have a decimal text (`escapes_of_step`). -/

namespace RegisterMachine.Machine

/-- The machine can neither carry out its instruction nor refuse it. -/
inductive Escapes (m : Machine) : Failure → Prop where
  /-- The duration of a sleep is too long. -/
  | sleep {row : Listing.Row} {ms : Int} (hm : m.halted = false) (hpc : m.InBounds)
      (hrow : m.row? = some row) (hwords : row.words = (Instruction.slp ms).words)
      (hlong : Binary64.overflowMilliseconds ≤ ms) : Escapes m .durationTooLong
  /-- The message for an unknown opcode or a register that there is not has too many digits. -/
  | message {row : Listing.Row} {cause : FaultCause} (hm : m.halted = false) (hpc : m.InBounds)
      (hrow : m.row? = some row) (hcause : row.offence? = some cause) (hlong : ¬ cause.Writable) :
      Escapes m .tooManyDigits

variable {m : Machine} {failure : Failure}

/-- A step without an answer has met one of the two exceptions. -/
theorem escapes_of_step (hregisters : ∀ r, Decimal.Writable (m.registers.read r))
    (h : m.step.failure = some failure) : m.Escapes failure := by
  have hstepped := m.stepped
  generalize m.step = turn at hstepped h
  cases hstepped with
  | resting => cases h
  | outside => cases h
  | @refused row cause hm hpc hrow hcause read =>
      by_cases hwritable : cause.Writable
      · rw [refuse_of_writable _ hwritable] at h
        cases h
      · rw [refuse_of_not_writable _ hwritable] at h
        cases h
        exact .message hm hpc hrow hcause hwritable
  | offScreen =>
      rw [refuse_of_writable _ (offScreen_writable hregisters _ _)] at h
      cases h
  | failed hm hpc hrow hwords hfails =>
      cases h
      -- A print gives an answer, since a register can always be written.
      cases hfails with
      | print hlong => exact absurd (hregisters _) hlong
      | slp hnone =>
          exact .sleep hm hpc hrow hwords (Binary64.ofMilliseconds_eq_none_iff.1 hnone)
  | executed =>
      rw [effect_failure] at h
      cases h

/-- A sleep that is too long leaves the machine behind it. -/
theorem step_of_long_sleep {ms : Int} (h : m.AboutTo (.slp ms))
    (hlong : Binary64.overflowMilliseconds ≤ ms) :
    m.step = ⟨m.begun (.slp ms), [], some .durationTooLong⟩ := by
  have hnone := Binary64.ofMilliseconds_eq_none_iff.2 hlong
  rw [step_of_fetch h.running h.inBounds h.fetch]
  simp only [perform, hnone]

/-- A step without an answer leaves the machine running, behind some words of the instruction. -/
theorem Escapes.step_eq (h : m.Escapes failure) :
    ∃ read : Nat, read ≥ 1 ∧
      m.step = ⟨{ m with start := m.pc, pc := m.pc + read }, [], some failure⟩ := by
  cases h with
  | sleep hm hpc hrow hwords hlong =>
      exact ⟨2, by decide, step_of_long_sleep (aboutTo_of_words hm hpc hrow hwords) hlong⟩
  | message hm hpc hrow hcause hlong =>
      obtain ⟨read, hread, hstep⟩ := step_of_offence hm hpc hrow hcause
      refine ⟨read, hread, ?_⟩
      rw [hstep, refuse_of_not_writable _ hlong]

theorem Escapes.running (h : m.Escapes failure) : m.halted = false := by
  cases h with
  | sleep hm => exact hm
  | message hm => exact hm

/-- A malformed instruction whose message is not too long is recorded as a fault. -/
theorem step_of_not_escapes {row : Listing.Row} {cause : FaultCause}
    (hregisters : ∀ r, Decimal.Writable (m.registers.read r)) (hm : m.halted = false)
    (hpc : m.InBounds) (hrow : m.row? = some row) (h : m.Malformed row cause)
    (hnone : ¬ m.Escapes .tooManyDigits) : m.step = m.faulted cause := by
  refine step_of_malformed hm hpc hrow h (writable_of_offence_writable ?_ hregisters h)
  intro first hfirst
  by_contra hlong
  exact hnone (.message hm hpc hrow hfirst hlong)

/-! ## Every history -/

/-- After any history, whatever it has loaded, the numbers in the registers have a decimal text. -/
theorem registers_writable (screen : Screen) {history : List Operation}
    (hlength : ∀ program output resetRegisters,
      .load program output resetRegisters ∈ history → program.length < Decimal.writableBound)
    (r : Register) : Decimal.Writable (((fresh screen).operateAll history).registers.read r) := by
  refine (stores_operateAll (fun _ h => h.writable) screen ?_).registers r
  intro program output resetRegisters hmem n hn
  exact Nat.lt_of_le_of_lt hn (hlength program output resetRegisters hmem)

/-- After any history, a step gives an answer except for a sleep that is too long and for a word
    that is too long for its message; these leave the machine running and past what it has read. All
    other malformed instructions are recorded as faults where they stand. -/
theorem step_answers_unless_escapes (screen : Screen) {history : List Operation}
    (hlength : ∀ program output resetRegisters,
      .load program output resetRegisters ∈ history → program.length < Decimal.writableBound) :
    let m := (fresh screen).operateAll history
    (∀ failure, m.step.failure = some failure ↔ m.Escapes failure) ∧
    (∀ failure, m.Escapes failure → m.halted = false ∧ m.fault = none ∧ ∃ read : Nat, read ≥ 1 ∧
      m.step = ⟨{ m with start := m.pc, pc := m.pc + read }, [], some failure⟩) ∧
    ((∀ failure, ¬ m.Escapes failure) → ∀ row cause, m.halted = false → m.InBounds →
      m.row? = some row → m.Malformed row cause → m.step = m.faulted cause) := by
  intro m
  have hregisters := registers_writable screen hlength
  refine ⟨fun failure => ⟨escapes_of_step hregisters, ?_⟩, fun failure h => ?_, ?_⟩
  · intro h
    obtain ⟨read, -, hstep⟩ := h.step_eq
    rw [hstep]
  · have hfault := (faultInPlace_operateAll screen history).fault_eq_none h.running
    exact ⟨h.running, hfault, h.step_eq⟩
  · intro hnone row cause hm hpc hrow h
    exact step_of_not_escapes hregisters hm hpc hrow h (hnone _)

/-- A first word that is too long for its message. -/
theorem step_answers_unless_escapes_long_word :
    let history : List Operation := [.load [Decimal.writableBound] "" false]
    let m := (fresh Screen.dot).operateAll history
    m.step.failure = some .tooManyDigits ∧ m.halted = false ∧ m.fault = none := by
  intro history m
  have hlength : ∀ program output resetRegisters,
      .load program output resetRegisters ∈ history → program.length < Decimal.writableBound := by
    intro program output resetRegisters hmem
    cases List.mem_singleton.1 hmem
    decide +kernel
  have hrow : m.row? = some ⟨0, Decimal.writableBound, []⟩ := by
    have hdrop : List.drop 0 [(Decimal.writableBound : Int)] = [↑Decimal.writableBound] := rfl
    have hfirst := Listing.rowAt?_of_drop hdrop
    rwa [List.take_nil] at hfirst
  have hunknown : Opcode.ofCode? Decimal.writableBound = none := by decide +kernel
  have hlong : ¬ (FaultCause.unknownOpcode Decimal.writableBound).Writable := by
    intro hwritable
    have hword := hwritable _ List.mem_cons_self
    rw [Decimal.Writable, Int.natAbs_natCast] at hword
    exact Nat.lt_irrefl _ hword
  have hescapes : m.Escapes .tooManyDigits := by
    refine .message rfl ⟨by decide, by decide⟩ hrow ?_ hlong
    rw [Listing.Row.offence?, hunknown]
  obtain ⟨hfailure, hrunning, -⟩ := step_answers_unless_escapes Screen.dot hlength
  obtain ⟨hm, hfault, -⟩ := hrunning _ hescapes
  exact ⟨(hfailure _).2 hescapes, hm, hfault⟩

/-- The shortest sleep that is too long is not recorded as a fault, and the machine goes on behind
    it. -/
theorem long_sleep_unrecorded :
    let history : List Operation := [.load [70, Binary64.overflowMilliseconds] "" false]
    let m := (fresh Screen.dot).operateAll history
    m.step.failure = some .durationTooLong ∧ m.step.machine.halted = false ∧
      m.step.machine.fault = none ∧ m.step.machine.pc = 2 := by
  intro history m
  have habout : m.AboutTo (.slp Binary64.overflowMilliseconds) :=
    ⟨rfl, ⟨by decide, by decide⟩, rfl⟩
  rw [step_of_long_sleep habout (Int.le_refl _)]
  exact ⟨rfl, rfl, rfl, rfl⟩

end RegisterMachine.Machine
