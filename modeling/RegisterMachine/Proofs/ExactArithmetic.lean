import RegisterMachine.Proofs.ForwardJumps
import Mathlib.Data.Int.ModEq

set_option autoImplicit false

/-! # Arithmetic modulo 2³²

A calculation is an instruction that only copies, loads, adds or subtracts registers, and
`Registers.calculate` is what it computes on unbounded integers. The machine wraps after each
instruction; as wrapping commutes with all that a calculation does (`wraps_registersAfter`), its
registers hold the wrapped values of the exact ones at every moment (`Calculating.step`,
`exists_calculating`). A program of calculations comes to its end, and there each register holds the
one signed 32-bit value that is congruent to the exact one (`register_eq_iff_modEq_exact`). -/

namespace RegisterMachine

/-! ## Wrapping -/

namespace Word

theorem wrap_add_wrap (a b : Int) : wrap (wrap a + wrap b) = wrap (a + b) := by
  simp only [wrap, Int.add_bmod_bmod, Int.bmod_add_bmod]

theorem wrap_sub_wrap (a b : Int) : wrap (wrap a - wrap b) = wrap (a - b) := by
  simp only [wrap, Int.sub_bmod_bmod, Int.bmod_sub_bmod]

/-- The wrapped value is the only signed 32-bit value in its congruence class. -/
theorem wrap_eq_iff {n exact : Int} :
    wrap exact = n ↔ Fits n ∧ n ≡ exact [ZMOD 0x100000000] := by
  constructor
  · rintro rfl
    exact ⟨fits_wrap exact, wrap_emod exact⟩
  · rintro ⟨hfits, hmod⟩
    have hmod : n % 0x100000000 = exact % 0x100000000 := hmod
    calc wrap exact = wrap (exact % 0x100000000) := (Int.emod_bmod exact 0x100000000).symm
      _ = wrap (n % 0x100000000) := by rw [hmod]
      _ = wrap n := Int.emod_bmod n 0x100000000
      _ = n := wrap_of_fits hfits

end Word

/-! ## Calculations -/

/-- An instruction that only computes on registers. -/
inductive Calculation where
  | copy (target source : Register)
  | constant (target : Register) (value : Int)
  | add (target source : Register)
  | sub (target source : Register)

namespace Calculation

def instruction : Calculation → Instruction
  | copy target source => .movr target source
  | constant target value => .movv target value
  | add target source => .add target source
  | sub target source => .sub target source

/-- The words of calculations, one after the other. -/
def program (calculations : List Calculation) : List Int :=
  calculations.flatMap fun calculation => calculation.instruction.words

theorem program_append (before after : List Calculation) :
    program (before ++ after) = program before ++ program after :=
  List.flatMap_append

theorem program_cons (calculation : Calculation) (calculations : List Calculation) :
    program (calculation :: calculations) =
      calculation.instruction.words ++ program calculations :=
  List.flatMap_cons

end Calculation

namespace Registers

/-- The registers after a calculation on unbounded integers. -/
def calculate (registers : Registers) : Calculation → Registers
  | .copy target source => registers.write target (registers.read source)
  | .constant target value => registers.write target value
  | .add target source =>
    registers.write target (registers.read target + registers.read source)
  | .sub target source =>
    registers.write target (registers.read target - registers.read source)

def calculateAll (registers : Registers) (calculations : List Calculation) : Registers :=
  calculations.foldl calculate registers

/-- Each register holds the wrapped value of another's. -/
def Wraps (registers exact : Registers) : Prop :=
  ∀ r, registers.read r = Word.wrap (exact.read r)

theorem wraps_self {registers : Registers} (h : ∀ r, Word.Fits (registers.read r)) :
    registers.Wraps registers := by
  intro r
  exact (Word.wrap_of_fits (h r)).symm

theorem Wraps.write {registers exact : Registers} (h : registers.Wraps exact) (target : Register)
    {content exactContent : Int} (hcontent : content = Word.wrap exactContent) :
    (registers.write target content).Wraps (exact.write target exactContent) := by
  intro r
  by_cases hr : target = r
  · subst hr
    rw [read_write_self, read_write_self, hcontent]
  · rw [read_write_of_ne _ _ hr, read_write_of_ne _ _ hr, h r]

end Registers

/-! ## One step -/

namespace Machine

open Calculation

variable {m : Machine} {exact : Registers} {calculation : Calculation}
  {done left : List Calculation}

/-- What the machine writes is the wrapped value of what is exactly calculated. -/
theorem wraps_registersAfter (h : m.registers.Wraps exact) (calculation : Calculation) :
    (m.registersAfter calculation.instruction).Wraps (exact.calculate calculation) := by
  cases calculation with
  | copy target source => exact h.write target (h source)
  | constant target value => exact h.write target rfl
  | add target source =>
      refine h.write target ?_
      rw [h target, h source, Word.wrap_add_wrap]
  | sub target source =>
      refine h.write target ?_
      rw [h target, h source, Word.wrap_sub_wrap]

/-- The machine has made the first of two parts of a program of calculations, and its registers are
    the wrapped ones. -/
structure Calculating (done left : List Calculation) (exact : Registers) (m : Machine) : Prop where
  program : m.program = (Calculation.program (done ++ left)).toArray
  pc : m.pc = (Calculation.program done).length
  registers : m.registers.Wraps exact
  fault : m.fault = none
  halted : m.halted = true → left = []

namespace Calculating

theorem size_eq (h : Calculating done left exact m) :
    (m.program.size : Int) = m.pc + (Calculation.program left).length := by
  rw [h.program, h.pc, List.size_toArray, program_append, List.length_append, Nat.cast_add]

theorem inBounds_iff (h : Calculating done left exact m) : m.InBounds ↔ left ≠ [] := by
  have hpc := h.pc
  have hsize := h.size_eq
  cases left with
  | nil =>
      have hsize : (m.program.size : Int) = m.pc + (0 : Nat) := hsize
      unfold InBounds
      constructor
      · intro hbounds
        omega
      · exact fun hne => absurd rfl hne
  | cons calculation left =>
      rw [program_cons, List.length_append, Instruction.length_words, Instruction.width] at hsize
      refine ⟨fun _ => List.cons_ne_nil _ _, fun _ => ⟨?_, ?_⟩⟩
      · omega
      · omega

/-- The machine goes on with the first calculation that is left. -/
theorem aboutTo (h : Calculating done (calculation :: left) exact m) (hm : m.halted = false) :
    m.AboutTo calculation.instruction where
  running := hm
  inBounds := h.inBounds_iff.2 (List.cons_ne_nil _ _)
  fetch := by
    have hdrop : m.program.toList.drop m.pc.toNat =
        calculation.instruction.words ++ Calculation.program left := by
      rw [h.program, h.pc, Int.toNat_natCast, program_append, program_cons]
      exact List.drop_left
    rw [word?_of_inBounds (h.inBounds_iff.2 (List.cons_ne_nil _ _)), hdrop]
    exact Instruction.fetch_of_words _ _

theorem step_eq (h : Calculating done (calculation :: left) exact m) (hm : m.halted = false) :
    m.step = m.effect calculation.instruction := by
  refine (h.aboutTo hm).step_eq ?_
  cases calculation <;> exact trivial

/-- A step makes the first calculation that is left. -/
theorem step_cons (h : Calculating done (calculation :: left) exact m) (hm : m.halted = false) :
    Calculating (done ++ [calculation]) left (exact.calculate calculation) m.step.machine := by
  have hbehind : m.pcAfter calculation.instruction =
      (Calculation.program (done ++ [calculation])).length := by
    have hpc : m.pcAfter calculation.instruction = m.pc + calculation.instruction.width := by
      cases calculation <;> rfl
    rw [hpc, h.pc, program_append, List.length_append, Nat.cast_add, program_cons,
      List.length_append, Instruction.length_words]
    rfl
  -- Where the machine stands is settled first, as that decides whether it is halted.
  have hplaced : Calculating (done ++ [calculation]) left (exact.calculate calculation)
      { m.after calculation.instruction with halted := false } := by
    refine ⟨?_, hbehind, wraps_registersAfter h.registers calculation, h.fault, nofun⟩
    rw [List.append_assoc]
    exact h.program
  have hhalt : calculation.instruction ≠ .halt := by
    cases calculation <;> exact nofun
  rw [h.step_eq hm, effect, if_neg hhalt]
  split_ifs with hbounds
  · exact ⟨hplaced.program, hplaced.pc, hplaced.registers, hplaced.fault,
      fun hhalted => absurd hhalted (by simp [after, hm])⟩
  · refine ⟨hplaced.program, hplaced.pc, hplaced.registers, hplaced.fault, fun _ => ?_⟩
    exact not_not.1 (mt hplaced.inBounds_iff.2 hbounds)

/-- When nothing is left, a step halts the machine at most. -/
theorem step_nil (h : Calculating done [] exact m) : Calculating done [] exact m.step.machine := by
  cases hm : m.halted with
  | true =>
      rw [step_of_halted hm]
      exact h
  | false =>
      rw [step_of_not_inBounds hm fun hbounds => h.inBounds_iff.1 hbounds rfl]
      exact ⟨h.program, h.pc, h.registers, h.fault, fun _ => rfl⟩

/-- A step makes one calculation if any is left. -/
theorem step (h : Calculating done left exact m) :
    Calculating (done ++ left.take 1) left.tail (exact.calculateAll (left.take 1))
      m.step.machine := by
  cases left with
  | nil =>
      rw [List.take_nil, List.append_nil]
      exact h.step_nil
  | cons calculation left =>
      have hm : m.halted = false := by
        rw [← Bool.not_eq_true]
        exact fun hhalted => List.cons_ne_nil _ _ (h.halted hhalted)
      exact h.step_cons hm

theorem step_failure (h : Calculating done left exact m) : m.step.failure = none := by
  cases hm : m.halted with
  | true => rw [step_of_halted hm]
  | false =>
      cases left with
      | nil => rw [step_of_not_inBounds hm fun hbounds => h.inBounds_iff.1 hbounds rfl]
      | cons calculation left =>
          rw [h.step_eq hm]
          exact effect_failure _ _

theorem refresh (h : Calculating done left exact m) : Calculating done left exact m.refresh.1 :=
  ⟨h.program, h.pc, h.registers, h.fault, h.halted⟩

end Calculating

/-! ## Runs -/

/-- Every machine on the way has made some of the calculations. -/
theorem exists_calculating {m m' : Machine} {start : Registers} {calculations : List Calculation}
    (h : m.Reaches m') (hm : Calculating [] calculations start m) :
    ∃ done left, done ++ left = calculations ∧
      Calculating done left (start.calculateAll done) m' := by
  refine h.invariant (P := fun m' => ∃ done left, done ++ left = calculations ∧
    Calculating done left (start.calculateAll done) m') ⟨[], calculations, rfl, hm⟩ ?_ ?_
  · rintro m' ⟨done, left, hparts, hm'⟩
    refine ⟨done ++ left.take 1, left.tail, ?_, ?_⟩
    · rw [List.append_assoc, ← List.drop_one, List.take_append_drop, hparts]
    · rw [Registers.calculateAll, List.foldl_append]
      exact hm'.step
  · rintro m' ⟨done, left, hparts, hm'⟩
    exact ⟨done, left, hparts, hm'.refresh⟩

/-- A run halts behind the last calculation that is left, and after one step if none is left. -/
theorem advance_calculating {run : Run} (h : Calculating done left exact run.machine)
    (hgoing : run.stopped = false) (flush : Bool) {count : Nat}
    (hcount : max 1 left.length ≤ count) :
    (run.advance flush count).failure = none ∧
      (run.advance flush count).machine.halted = true := by
  induction count generalizing run done left exact with
  | zero => omega
  | succ count ih =>
      have hfailure : (run.next flush).failure = none :=
        (run.machine.stepAndFlush_failure flush).trans h.step_failure
      have hnext : Calculating (done ++ left.take 1) left.tail (exact.calculateAll (left.take 1))
          (run.next flush).machine := by
        show Calculating _ _ _ (run.machine.stepAndFlush flush).machine
        rcases run.machine.stepAndFlush_machine flush with hturn | hturn
        · rw [hturn]
          exact h.step
        · rw [hturn]
          exact h.step.refresh
      rw [Run.advance_of_going hgoing]
      cases hhalted : (run.next flush).machine.halted with
      | true =>
          have hstopped : (run.next flush).stopped = true := by
            rw [Run.stopped, hhalted, Bool.true_or]
          rw [Run.advance_of_stopped hstopped]
          exact ⟨hfailure, hhalted⟩
      | false =>
          have hstopped : (run.next flush).stopped = false := by
            rw [Run.stopped, hhalted, hfailure]
            rfl
          -- A machine that can go on is inside its program, so there is something left.
          have hbounds : (run.next flush).machine.InBounds :=
            (next_settled hfailure).resolve_left (by simp [hhalted])
          have hleft := List.length_pos_of_ne_nil (hnext.inBounds_iff.1 hbounds)
          refine ih hnext hstopped ?_
          rw [List.length_tail] at hleft ⊢
          omega

/-- A program that is a sequence of calculations comes to its end without a fault, and wherever it
    has ended, however it was stepped and flushed, each register holds the only signed 32-bit value
    that is congruent modulo 2³² to what the same sequence computes on unbounded integers. -/
theorem register_eq_iff_modEq_exact {m : Machine} (hregisters : ∀ r, Word.Fits (m.registers.read r))
    (calculations : List Calculation) (output : String) (flush : Bool) {fuel : Nat}
    (hfuel : max 1 calculations.length ≤ fuel) :
    let loaded := m.load (Calculation.program calculations) output false
    let exact := m.registers.calculateAll calculations
    ((loaded.run none flush fuel).failure = none ∧
      (loaded.run none flush fuel).machine.halted = true) ∧
    ∀ m', loaded.Reaches m' → m'.halted = true →
      m'.fault = none ∧ m'.pc = m'.program.size ∧
        ∀ r n, m'.registers.read r = n ↔ Word.Fits n ∧ n ≡ exact.read r [ZMOD 0x100000000] := by
  intro loaded exact
  have hloaded : Calculating [] calculations m.registers loaded :=
    ⟨rfl, rfl, Registers.wraps_self hregisters, rfl, nofun⟩
  have hstart : Calculating [] calculations m.registers (Run.start loaded).machine := hloaded
  have hend := advance_calculating hstart rfl flush hfuel
  refine ⟨hend, fun m' hreaches hhalted => ?_⟩
  obtain ⟨done, left, hparts, hm'⟩ := exists_calculating hreaches hloaded
  obtain rfl := hm'.halted hhalted
  rw [List.append_nil] at hparts
  subst hparts
  refine ⟨hm'.fault, ?_, fun r n => ?_⟩
  · rw [hm'.size_eq]
    exact (Int.add_zero m'.pc).symm
  · rw [hm'.registers r]
    exact Word.wrap_eq_iff

/-- The greatest value added to itself again and again, a literal that is longer than a word, and a
    register taken away from itself. -/
theorem register_eq_iff_modEq_exact_overflow :
    let calculations : List Calculation :=
      [.constant 0 0x7fffffff, .add 0 0, .add 0 0, .constant 1 (-0x1234567890), .sub 1 0,
        .copy 2 1, .sub 0 0]
    let loaded := (fresh Screen.dot).load (Calculation.program calculations) "" false
    let exact := Registers.zero.calculateAll calculations
    let finished := (loaded.run none false 7).machine
    exact.read 1 = -0x143456788c ∧ finished.halted = true ∧
      finished.registers.read 1 = -0x3456788c ∧ finished.registers.read 2 = -0x3456788c ∧
      finished.registers.read 0 = 0 := by
  intro calculations loaded exact finished
  have hregisters : ∀ r, Word.Fits ((fresh Screen.dot).registers.read r) := by decide
  have hfuel : max 1 calculations.length ≤ 7 := by decide
  have hhalted : finished.halted = true := by decide +kernel
  have hreaches : loaded.Reaches finished := Reaches.refl.run none false 7
  obtain ⟨-, hend⟩ := register_eq_iff_modEq_exact hregisters calculations "" false hfuel
  obtain ⟨-, -, hread⟩ := hend finished hreaches hhalted
  refine ⟨by decide +kernel, hhalted, (hread 1 _).2 ?_, (hread 2 _).2 ?_, (hread 0 _).2 ?_⟩
  · decide +kernel
  · decide +kernel
  · decide +kernel

end Machine

end RegisterMachine
