import RegisterMachine.Machine.Step
import RegisterMachine.Proofs.Decoding
import RegisterMachine.Proofs.Pixels
import Mathlib.Algebra.Order.Field.Rat

set_option autoImplicit false

/-! # The effect of an instruction

The effect of an instruction is told component by component: which register it writes, what becomes
of the stack, where the program counter goes, what it appends to the output, what it draws and what
it does to the outside. All of it depends on the machine before the instruction only.

`Machine.Stepped` lists everything that one step can do (`stepped`), and an instruction that is
fetched and admitted has its effect in one step (`step_eq_effect`). -/

namespace RegisterMachine.Machine

/-! ## Components -/

/-- The register that an instruction writes, with its new content. -/
def written? (m : Machine) : Instruction → Option (Register × Int)
  | .movr target source => some (target, m.registers.read source)
  | .movv target value => some (target, Word.wrap value)
  | .add target source =>
    some (target, Word.wrap (m.registers.read target + m.registers.read source))
  | .sub target source =>
    some (target, Word.wrap (m.registers.read target - m.registers.read source))
  | .pop target => some (target, m.stack.headD 0)
  | _ => none

/-- The registers after an instruction. -/
def registersAfter (m : Machine) (i : Instruction) : Registers :=
  match m.written? i with
  | some (target, content) => m.registers.write target content
  | none => m.registers

/-- The stack after an instruction. -/
def stackAfter (m : Machine) : Instruction → List Int
  | .push source => m.registers.read source :: m.stack
  | .call _ => (m.pc + 2) :: m.stack
  | .pop _ | .ret => m.stack.tail
  | _ => m.stack

/-- The program counter after an instruction. -/
def pcAfter (m : Machine) (i : Instruction) : Int :=
  match i with
  | .jp address | .call address => address
  | .jl left right address =>
    if m.registers.read left < m.registers.read right then address else m.pc + i.width
  | .ret => m.stack.headD 0
  | _ => m.pc + i.width

/-- An instruction goes on behind itself, at an address that it names, or where the stack says. -/
theorem pcAfter_cases (m : Machine) (i : Instruction) :
    m.pcAfter i = m.pc + i.width ∨
      (OperandKind.address, m.pcAfter i) ∈ i.opcode.signature.zip i.operands ∨
      i = .ret ∧ m.pcAfter i = m.stack.headD 0 := by
  cases i with
  | jp address => exact .inr (.inl (List.mem_singleton_self _))
  | call address => exact .inr (.inl (List.mem_singleton_self _))
  | jl left right address =>
      by_cases hless : m.registers.read left < m.registers.read right
      · have hpc : m.pcAfter (.jl left right address) = address := if_pos hless
        rw [hpc]
        exact .inr (.inl (List.mem_cons_of_mem _ (List.mem_cons_of_mem _ List.mem_cons_self)))
      · exact .inl (if_neg hless)
  | ret => exact .inr (.inr ⟨rfl, rfl⟩)
  | _ => exact .inl rfl

/-- The output after an instruction. -/
def outputAfter (m : Machine) : Instruction → String
  | .print source => m.output ++ Decimal.text (m.registers.read source)
  | _ => m.output

/-- The screen after an instruction. -/
def screenAfter (m : Machine) : Instruction → Screen
  | .draw x y colour =>
    m.screen.plot (m.registers.read x) (m.registers.read y) (m.registers.read colour)
  | .cls => m.screen.blank
  | _ => m.screen

/-- What an instruction does to the outside. -/
def emitted (m : Machine) : Instruction → List Event
  | .print source => [.printed (Decimal.text (m.registers.read source))]
  | .slp milliseconds => [.slept ((Binary64.ofMilliseconds (max milliseconds 0)).getD 0)]
  | _ => []

/-- The machine after an instruction, before it is seen whether it can go on. -/
def after (m : Machine) (i : Instruction) : Machine :=
  { m with
    pc := m.pcAfter i
    registers := m.registersAfter i
    stack := m.stackAfter i
    output := m.outputAfter i
    start := m.pc
    screen := m.screenAfter i }

/-- The whole effect of an instruction: one that halts the machine or leaves the program says so. -/
def effect (m : Machine) (i : Instruction) : Turn :=
  if i = .halt then ⟨{ m.after i with halted := true }, [.logged .programHalted], none⟩
  else if (m.after i).InBounds then ⟨m.after i, m.emitted i, none⟩
  else ⟨{ m.after i with halted := true }, m.emitted i ++ [.logged .outOfBounds], none⟩

/-! ## The machine after an effect -/

@[simp] theorem effect_failure (m : Machine) (i : Instruction) : (m.effect i).failure = none := by
  unfold effect
  split_ifs <;> rfl

@[simp] theorem effect_pc (m : Machine) (i : Instruction) :
    (m.effect i).machine.pc = m.pcAfter i := by
  unfold effect
  split_ifs <;> rfl

@[simp] theorem effect_registers (m : Machine) (i : Instruction) :
    (m.effect i).machine.registers = m.registersAfter i := by
  unfold effect
  split_ifs <;> rfl

@[simp] theorem effect_stack (m : Machine) (i : Instruction) :
    (m.effect i).machine.stack = m.stackAfter i := by
  unfold effect
  split_ifs <;> rfl

@[simp] theorem effect_screen (m : Machine) (i : Instruction) :
    (m.effect i).machine.screen = m.screenAfter i := by
  unfold effect
  split_ifs <;> rfl

@[simp] theorem effect_start (m : Machine) (i : Instruction) :
    (m.effect i).machine.start = m.pc := by
  unfold effect
  split_ifs <;> rfl

@[simp] theorem effect_program (m : Machine) (i : Instruction) :
    (m.effect i).machine.program = m.program := by
  unfold effect
  split_ifs <;> rfl

/-! ## The machine after a refusal -/

@[simp] theorem refuse_start (m : Machine) (cause : FaultCause) :
    (m.refuse cause).machine.start = m.start := by
  unfold refuse
  split_ifs <;> rfl

@[simp] theorem refuse_registers (m : Machine) (cause : FaultCause) :
    (m.refuse cause).machine.registers = m.registers := by
  unfold refuse
  split_ifs <;> rfl

@[simp] theorem refuse_stack (m : Machine) (cause : FaultCause) :
    (m.refuse cause).machine.stack = m.stack := by
  unfold refuse
  split_ifs <;> rfl

@[simp] theorem refuse_screen (m : Machine) (cause : FaultCause) :
    (m.refuse cause).machine.screen = m.screen := by
  unfold refuse
  split_ifs <;> rfl

@[simp] theorem refuse_program (m : Machine) (cause : FaultCause) :
    (m.refuse cause).machine.program = m.program := by
  unfold refuse
  split_ifs <;> rfl

/-! ## Performing an instruction -/

/-- What an instruction needs besides its operands: a pixel has to be on the screen, a printed
    number must have a decimal text, as every signed 32-bit number has, and a duration has to be
    finite. -/
def Admits (m : Machine) : Instruction → Prop
  | .draw x y _ => m.screen.OnScreen (m.registers.read x) (m.registers.read y)
  | .print source => Decimal.Writable (m.registers.read source)
  | .slp milliseconds => (Binary64.ofMilliseconds (max milliseconds 0)).isSome = true
  | _ => True

/-- A sleep is admitted where its operand is a finite number of seconds. -/
theorem admits_slp_of_finite (m : Machine) {milliseconds : Int}
    (h : (Binary64.ofMilliseconds milliseconds).isSome = true) : m.Admits (.slp milliseconds) := by
  -- A negative duration is slept as zero, which is finite whatever the operand is.
  rcases Int.le_total milliseconds 0 with hle | hle
  · rw [Admits, max_eq_right hle]
    simp [Binary64.ofMilliseconds]
  · rwa [Admits, max_eq_left hle]

/-- The machine that has begun an instruction: its program counter is behind it. -/
def begun (m : Machine) (i : Instruction) : Machine :=
  { m with start := m.pc, pc := m.pc + i.width }

/-- An instruction that is admitted changes each component as its effect says. -/
theorem perform_of_admits {m : Machine} {i : Instruction} (h : m.Admits i) (hi : i ≠ .halt) :
    (m.begun i).perform i = .ok (m.after i, m.emitted i) := by
  -- Where `perform` tests something, the test is decided first; the rest is computation.
  cases i with
  | jl left right address =>
      by_cases hless : (m.begun (.jl left right address)).registers.read left <
          (m.begun (.jl left right address)).registers.read right
      · have hpc : m.pcAfter (.jl left right address) = address := if_pos hless
        simp only [perform, if_pos hless, after, hpc]
        rfl
      · have hpc : m.pcAfter (.jl left right address) = m.pc + 4 := if_neg hless
        simp only [perform, if_neg hless, after, hpc]
        rfl
  | print source =>
      have hwritable : Decimal.Writable ((m.begun (.print source)).registers.read source) := h
      simp only [perform, if_pos hwritable]
      rfl
  | draw x y colour =>
      have hon : (m.begun (.draw x y colour)).screen.OnScreen
          ((m.begun (.draw x y colour)).registers.read x)
          ((m.begun (.draw x y colour)).registers.read y) := h
      simp only [perform, if_pos hon, Screen.setPixel_of_onScreen hon]
      rfl
  | cls =>
      simp only [perform, Screen.clear_eq_blank]
      rfl
  | slp milliseconds =>
      obtain ⟨seconds, hseconds⟩ := Option.isSome_iff_exists.1 h
      simp only [perform, hseconds, emitted, Option.getD_some]
      rfl
  | halt => exact absurd rfl hi
  | _ => rfl

/-- The instructions that give no answer, and why. -/
inductive Fails (m : Machine) : Instruction → Failure → Prop where
  | print {source : Register} (h : ¬ Decimal.Writable (m.registers.read source)) :
      Fails m (.print source) .tooManyDigits
  | slp {milliseconds : Int} (h : Binary64.ofMilliseconds (max milliseconds 0) = none) :
      Fails m (.slp milliseconds) .durationTooLong

/-- An instruction that is not admitted is a pixel outside the screen or gives no answer. -/
theorem perform_of_not_admits {m : Machine} {i : Instruction} (h : ¬ m.Admits i) :
    (∃ x y colour, i = .draw x y colour ∧
      (m.begun i).perform i =
        .error (.fault (.offScreen (m.registers.read x) (m.registers.read y)))) ∨
    ∃ failure, m.Fails i failure ∧ (m.begun i).perform i = .error (.failure failure) := by
  cases i with
  | draw x y colour =>
      have hoff : ¬ (m.begun (.draw x y colour)).screen.OnScreen
          ((m.begun (.draw x y colour)).registers.read x)
          ((m.begun (.draw x y colour)).registers.read y) := h
      refine Or.inl ⟨x, y, colour, rfl, ?_⟩
      simp only [perform, if_neg hoff]
      rfl
  | print source =>
      have hlong : ¬ Decimal.Writable ((m.begun (.print source)).registers.read source) := h
      exact Or.inr ⟨_, .print h, by simp only [perform, if_neg hlong]⟩
  | slp milliseconds =>
      have hnone : Binary64.ofMilliseconds (max milliseconds 0) = none := by
        simpa only [Admits, Option.not_isSome_iff_eq_none] using h
      exact Or.inr ⟨_, .slp hnone, by simp only [perform, hnone]⟩
  | _ => exact absurd trivial h

/-! ## Fetching an instruction -/

/-- The row that a listing of the program forms at the program counter. -/
def row? (m : Machine) : Option Listing.Row :=
  Listing.rowAt? m.program.toList m.pc.toNat

theorem word?_of_inBounds {m : Machine} (h : m.InBounds) :
    m.word? = ((m.program.toList.drop m.pc.toNat)[·]?) := by
  funext offset
  rw [word?, if_pos h.1, List.getElem?_drop, Array.getElem?_toList]

theorem exists_row_of_inBounds {m : Machine} (h : m.InBounds) : ∃ row, m.row? = some row := by
  have hpc : m.pc.toNat < m.program.toList.length := by
    rw [Array.length_toList]
    have := h.1
    have := h.2
    omega
  exact ⟨_, Listing.rowAt?_of_drop (List.drop_eq_getElem_cons hpc)⟩

/-- At a whole row the row's instruction is fetched. -/
theorem fetch_of_whole {m : Machine} {row : Listing.Row} {op : Opcode} (hpc : m.InBounds)
    (hrow : m.row? = some row) (hwhole : row.Whole op) :
    ∃ i, Instruction.fetch m.word? = .ok i ∧ i.opcode = op ∧ i.operands = row.operands := by
  rw [word?_of_inBounds hpc]
  exact Instruction.fetch_of_whole hrow hwhole

/-- The machine goes on with an instruction, all of which is there. -/
structure AboutTo (m : Machine) (i : Instruction) : Prop where
  running : m.halted = false
  inBounds : m.InBounds
  fetch : Instruction.fetch m.word? = .ok i

/-- The instruction that the machine goes on with, if all of it is there. -/
def upcoming? (m : Machine) : Option Instruction :=
  if m.halted = false ∧ m.InBounds then (Instruction.fetch m.word?).toOption else none

theorem AboutTo.upcoming? {m : Machine} {i : Instruction} (h : m.AboutTo i) :
    m.upcoming? = some i := by
  rw [Machine.upcoming?, if_pos ⟨h.running, h.inBounds⟩, h.fetch]
  rfl

theorem upcoming?_of_halted {m : Machine} (hm : m.halted = true) : m.upcoming? = none := by
  simp [upcoming?, hm]

theorem upcoming?_of_not_inBounds {m : Machine} (hpc : ¬ m.InBounds) : m.upcoming? = none := by
  simp [upcoming?, hpc]

section

variable {m : Machine} {row : Listing.Row}

theorem aboutTo_of_words {i : Instruction} (hm : m.halted = false) (hpc : m.InBounds)
    (hrow : m.row? = some row) (hwords : row.words = i.words) : m.AboutTo i where
  running := hm
  inBounds := hpc
  fetch := by
    rw [word?_of_inBounds hpc]
    exact Instruction.fetch_of_row hrow hwords

/-- At a row that is not whole there is no instruction to go on with. -/
theorem upcoming?_of_offence {cause : FaultCause} (hpc : m.InBounds) (hrow : m.row? = some row)
    (hcause : row.offence? = some cause) : m.upcoming? = none := by
  obtain ⟨read, -, hfetch⟩ := Instruction.fetch_of_offence hrow hcause
  rw [upcoming?, word?_of_inBounds hpc, hfetch]
  split <;> rfl

end

/-! ## One step -/

/-- Everything that one step can make of a machine. -/
inductive Stepped (m : Machine) : Turn → Prop where
  /-- A halted machine stays as it is. -/
  | resting (hm : m.halted = true) : Stepped m ⟨m, [.logged .programHalted], none⟩
  /-- A machine outside its program is halted. -/
  | outside (hm : m.halted = false) (hpc : ¬ m.InBounds) :
      Stepped m ⟨{ m with halted := true }, [.logged .outOfBounds], none⟩
  /-- A row that is not whole is refused, after some of its words have been read. -/
  | refused {row : Listing.Row} {cause : FaultCause} (hm : m.halted = false) (hpc : m.InBounds)
      (hrow : m.row? = some row) (hcause : row.offence? = some cause) (read : Nat) :
      Stepped m ({ m with start := m.pc, pc := m.pc + read }.refuse cause)
  /-- A pixel outside the screen is refused. -/
  | offScreen {row : Listing.Row} {x y colour : Register} (hm : m.halted = false)
      (hpc : m.InBounds) (hrow : m.row? = some row)
      (hwords : row.words = (Instruction.draw x y colour).words)
      (hoff : ¬ m.screen.OnScreen (m.registers.read x) (m.registers.read y)) :
      Stepped m ((m.begun (.draw x y colour)).refuse
        (.offScreen (m.registers.read x) (m.registers.read y)))
  /-- An instruction gives no answer and stays begun. -/
  | failed {row : Listing.Row} {i : Instruction} {failure : Failure} (hm : m.halted = false)
      (hpc : m.InBounds) (hrow : m.row? = some row) (hwords : row.words = i.words)
      (hfails : m.Fails i failure) : Stepped m ⟨m.begun i, [], some failure⟩
  /-- An instruction has its effect. -/
  | executed {row : Listing.Row} {i : Instruction} (hm : m.halted = false) (hpc : m.InBounds)
      (hrow : m.row? = some row) (hwords : row.words = i.words) (hadmits : m.Admits i) :
      Stepped m (m.effect i)

/-- The step of a machine whose next instruction has been fetched. -/
theorem step_of_fetch {m : Machine} {i : Instruction} (hm : m.halted = false) (hpc : m.InBounds)
    (hfetch : Instruction.fetch m.word? = .ok i) :
    m.step = match (m.begun i).perform i with
      | .ok (after, events) => after.settle events
      | .error .halt => ⟨{ m.begun i with halted := true }, [.logged .programHalted], none⟩
      | .error (.fault cause) => (m.begun i).refuse cause
      | .error (.failure failure) => ⟨m.begun i, [], some failure⟩ := by
  rw [step_of_inBounds hm hpc, execute, hfetch]
  rfl

/-- The step of a machine whose next instruction cannot be fetched. -/
theorem step_of_refusal {m : Machine} {refusal : Refusal} (hm : m.halted = false)
    (hpc : m.InBounds) (hfetch : Instruction.fetch m.word? = .error refusal) :
    m.step =
      ({ m with start := m.pc, pc := m.pc + refusal.read } : Machine).refuse refusal.cause := by
  rw [step_of_inBounds hm hpc, execute, hfetch]

/-- At a row that is not whole, the step refuses what has been read of it. -/
theorem step_of_offence {m : Machine} {row : Listing.Row} {cause : FaultCause}
    (hm : m.halted = false) (hpc : m.InBounds) (hrow : m.row? = some row)
    (hcause : row.offence? = some cause) :
    ∃ read : Nat, read ≥ 1 ∧
      m.step = ({ m with start := m.pc, pc := m.pc + read } : Machine).refuse cause := by
  obtain ⟨read, hread, hfetch⟩ := Instruction.fetch_of_offence hrow hcause
  rw [← word?_of_inBounds hpc] at hfetch
  exact ⟨read, hread, step_of_refusal hm hpc hfetch⟩

theorem settle_after (m : Machine) {i : Instruction} (hi : i ≠ .halt) :
    (m.after i).settle (m.emitted i) = m.effect i := by
  rw [settle, effect, if_neg hi]

/-- An admitted instruction has its effect in one step. -/
theorem step_eq_effect {m : Machine} {i : Instruction} (hm : m.halted = false) (hpc : m.InBounds)
    (hfetch : Instruction.fetch m.word? = .ok i) (hadmits : m.Admits i) :
    m.step = m.effect i := by
  rw [step_of_fetch hm hpc hfetch]
  by_cases hi : i = .halt
  · subst hi
    rfl
  · rw [perform_of_admits hadmits hi]
    exact settle_after m hi

theorem AboutTo.step_eq {m : Machine} {i : Instruction} (h : m.AboutTo i) (hadmits : m.Admits i) :
    m.step = m.effect i :=
  step_eq_effect h.running h.inBounds h.fetch hadmits

/-- A step does one of the things that `Stepped` lists. -/
theorem stepped (m : Machine) : m.Stepped m.step := by
  cases hm : m.halted with
  | true =>
      rw [step_of_halted hm]
      exact .resting hm
  | false =>
      by_cases hpc : m.InBounds
      · obtain ⟨row, hrow⟩ := exists_row_of_inBounds hpc
        cases hcause : row.offence? with
        | some cause =>
            obtain ⟨read, -, hstep⟩ := step_of_offence hm hpc hrow hcause
            rw [hstep]
            exact .refused hm hpc hrow hcause read
        | none =>
            obtain ⟨op, hwhole⟩ := (Listing.offence?_eq_none_iff hrow).1 hcause
            obtain ⟨i, hfetch, hopcode, hoperands⟩ := fetch_of_whole hpc hrow hwhole
            have hwords : row.words = i.words := by
              rw [Listing.Row.words, Instruction.words, hopcode, hoperands,
                Opcode.code_of_ofCode? hwhole.opcode]
            by_cases hadmits : m.Admits i
            · rw [step_eq_effect hm hpc hfetch hadmits]
              exact .executed hm hpc hrow hwords hadmits
            · rcases perform_of_not_admits hadmits with ⟨x, y, colour, rfl, hperform⟩ |
                ⟨failure, hfails, hperform⟩
              · rw [step_of_fetch hm hpc hfetch, hperform]
                exact .offScreen hm hpc hrow hwords hadmits
              · rw [step_of_fetch hm hpc hfetch, hperform]
                exact .failed hm hpc hrow hwords hfails
      · rw [step_of_not_inBounds hm hpc]
        exact .outside hm hpc

/-- No step changes the program. -/
theorem step_program (m : Machine) : m.step.machine.program = m.program := by
  have hstepped := m.stepped
  generalize m.step = turn at hstepped
  cases hstepped with
  | resting => rfl
  | outside => rfl
  | refused => exact refuse_program _ _
  | offScreen => exact refuse_program _ _
  | failed => rfl
  | executed => exact m.effect_program _

/-- At a whole row, one step is the effect of the instruction that the row spells, told from the
    machine before the step. A pixel has to be on the screen, an operand of a sleep has to be a
    finite number of seconds, and a printed number must have a decimal text, as every signed 32-bit
    number has. -/
theorem step_of_whole_row {m : Machine} {row : Listing.Row} {op : Opcode} (hm : m.halted = false)
    (hpc : m.InBounds) (hrow : m.row? = some row) (hwhole : row.Whole op) :
    ∃ i : Instruction, i.opcode = op ∧ i.operands = row.operands ∧
      ((∀ x y colour, i = .draw x y colour →
          m.screen.OnScreen (m.registers.read x) (m.registers.read y)) →
        (∀ milliseconds, i = .slp milliseconds →
          (Binary64.ofMilliseconds milliseconds).isSome = true) →
        (∀ source, i = .print source → Decimal.Writable (m.registers.read source)) →
        m.step = m.effect i) := by
  obtain ⟨i, hfetch, hopcode, hoperands⟩ := fetch_of_whole hpc hrow hwhole
  refine ⟨i, hopcode, hoperands, fun hpixel hfinite hprinted => ?_⟩
  have hadmits : m.Admits i := by
    cases i with
    | draw x y colour => exact hpixel x y colour rfl
    | slp milliseconds => exact m.admits_slp_of_finite (hfinite milliseconds rfl)
    | print source => exact hprinted source rfl
    | _ => trivial
  exact step_eq_effect hm hpc hfetch hadmits

/-- The greatest value added to itself, a negative number that is printed, a sleep of a quarter of a
    second, a colour that is longer than a byte, and a lit pixel that is cleared. -/
theorem step_of_whole_row_at_each :
    let m : Machine := { fresh (Screen.dot.plot 0 0 9) with
      program := #[20, 0, 0, 60, 1, 70, 250, 61, 2, 2, 3, 62, 255]
      registers := ((Registers.zero.write 0 0x7fffffff).write 1 (-7)).write 3 0x1ff }
    let turn (pc : Nat) := ({ m with pc } : Machine).step
    ((turn 0).machine.registers.read 0 = -2 ∧ (turn 0).machine.pc = 3) ∧
      ((turn 3).machine.output = "-7" ∧ Event.lines (turn 3).events = ["-7"]) ∧
      Event.sleeps (turn 5).events = [1 / 4] ∧
      (turn 7).machine.screen.framebuffer = #[255] ∧
      (turn 11).machine.screen.framebuffer = #[0] ∧ (turn 11).machine.pc = 12 := by
  intro m turn
  have hturn (pc : Nat) (i : Instruction) {rest : List Int} (hpc : pc < 13)
      (hdrop : m.program.toList.drop pc = i.words ++ rest)
      (hpixel : ∀ x y colour, i = .draw x y colour →
        m.screen.OnScreen (m.registers.read x) (m.registers.read y))
      (hfinite : ∀ milliseconds, i = .slp milliseconds →
        (Binary64.ofMilliseconds milliseconds).isSome = true)
      (hprinted : ∀ source, i = .print source → Decimal.Writable (m.registers.read source)) :
      turn pc = ({ m with pc } : Machine).effect i := by
    have hbounds : ({ m with pc } : Machine).InBounds :=
      ⟨Int.natCast_nonneg pc, Int.ofNat_lt.2 hpc⟩
    obtain ⟨j, hopcode, hoperands, hstep⟩ := step_of_whole_row rfl hbounds
      (Instruction.rowAt?_of_words hdrop) (i.whole_row pc)
    have hij : j = i := by
      apply Instruction.words_injective
      rw [Instruction.words, hopcode, hoperands, Instruction.words]
    subst hij
    exact hstep hpixel hfinite hprinted
  have hpixel : ∀ x y colour, Instruction.draw 2 2 3 = .draw x y colour →
      m.screen.OnScreen (m.registers.read x) (m.registers.read y) := by
    intro x y colour h
    cases h
    decide
  have hfinite : ∀ milliseconds, Instruction.slp 250 = .slp milliseconds →
      (Binary64.ofMilliseconds milliseconds).isSome = true := by
    intro milliseconds h
    cases h
    decide +kernel
  have hprinted : ∀ source, Instruction.print 1 = .print source →
      Decimal.Writable (m.registers.read source) := by
    intro source h
    cases h
    exact Decimal.writable_of_natAbs_lt (by decide)
  have hadd := hturn 0 (.add 0 0) (by decide) rfl (by simp) (by simp) (by simp)
  have hprint := hturn 3 (.print 1) (by decide) rfl (by simp) (by simp) hprinted
  have hslp := hturn 5 (.slp 250) (by decide) rfl (by simp) hfinite (by simp)
  have hdraw := hturn 7 (.draw 2 2 3) (by decide) rfl hpixel (by simp) (by simp)
  have hcls := hturn 11 .cls (by decide) rfl (by simp) (by simp) (by simp)
  refine ⟨⟨?_, ?_⟩, ⟨?_, ?_⟩, ?_, ?_, ?_, ?_⟩
  · rw [hadd]
    decide
  · rw [hadd]
    decide
  · rw [hprint]
    decide +kernel
  · rw [hprint]
    decide +kernel
  · rw [hslp]
    decide +kernel
  · rw [hdraw]
    decide +kernel
  · rw [hcls]
    decide +kernel
  · rw [hcls]
    decide +kernel

end RegisterMachine.Machine
