import RegisterMachine.Proofs.History
import RegisterMachine.Proofs.Malformed

set_option autoImplicit false

/-! # The control state

A machine is running or halted. A step that gives an answer leaves it halted or inside its program
(`step_settled`), and so does a run that has made a step (`run_settled`). A recorded fault stands at
the program counter of a halted machine, which is the position of the instruction that was begun
last (`FaultInPlace`). Only a load gets a halted machine going again; until then only its screen can
change, and no step or run changes that (`operateAll_of_halted`). -/

namespace RegisterMachine.Machine

/-- The machine is halted or can go on. -/
def Settled (m : Machine) : Prop :=
  m.halted = true ∨ m.InBounds

instance (m : Machine) : Decidable m.Settled :=
  inferInstanceAs (Decidable (_ ∨ _))

/-- A recorded fault is that of the instruction where the machine was halted. -/
def FaultInPlace (m : Machine) : Prop :=
  ∀ fault, m.fault = some fault →
    m.halted = true ∧ m.pc = fault.position ∧ m.start = fault.position ∧ m.InBounds

/-! ## Where a step ends -/

theorem effect_settled (m : Machine) (i : Instruction) : (m.effect i).machine.Settled := by
  unfold effect
  split_ifs with hhalt hpc
  · exact Or.inl rfl
  · exact Or.inr hpc
  · exact Or.inl rfl

/-- A refusal that gives an answer halts the machine. -/
theorem refuse_halted {m : Machine} {cause : FaultCause} (h : (m.refuse cause).failure = none) :
    (m.refuse cause).machine.halted = true := by
  unfold refuse at h ⊢
  by_cases hwritable : cause.Writable
  · rw [if_pos hwritable]
  · simp [hwritable] at h

theorem step_settled {m : Machine} (h : m.step.failure = none) : m.step.machine.Settled := by
  have hstepped := m.stepped
  generalize m.step = turn at hstepped h
  cases hstepped with
  | resting hm => exact Or.inl hm
  | outside => exact Or.inl rfl
  | refused => exact Or.inl (refuse_halted h)
  | offScreen => exact Or.inl (refuse_halted h)
  | failed => cases h
  | executed => exact m.effect_settled _

/-! ## Where a run ends -/

/-- All machines on the way have the same program. -/
theorem program_of_reaches {m m' : Machine} (h : m.Reaches m') : m'.program = m.program := by
  refine h.invariant (P := fun m' => m'.program = m.program) rfl ?_ ?_
  · intro before hbefore
    exact before.step_program.trans hbefore
  · intro before hbefore
    exact hbefore

theorem refresh_settled {m : Machine} (h : m.Settled) : m.refresh.1.Settled := h

theorem stepAndFlush_failure (m : Machine) (flush : Bool) :
    (m.stepAndFlush flush).failure = m.step.failure := by
  cases hflush : flush && m.step.failure.isNone with
  | true => simp [stepAndFlush, hflush]
  | false => simp [stepAndFlush, hflush]

theorem next_settled {flush : Bool} {run : Run} (h : (run.next flush).failure = none) :
    (run.next flush).machine.Settled := by
  have hfailure : run.machine.step.failure = none := by
    rw [← run.machine.stepAndFlush_failure flush]
    exact h
  have hstep := step_settled hfailure
  show (run.machine.stepAndFlush flush).machine.Settled
  rcases run.machine.stepAndFlush_machine flush with hturn | hturn
  · rw [hturn]
    exact hstep
  · rw [hturn]
    exact refresh_settled hstep

/-- A run that has made its last step with an answer stands where that step has ended. -/
theorem advance_settled {flush : Bool} {run : Run}
    (hrun : run.failure = none → 0 < run.steps → run.machine.Settled) (count : Nat)
    (h : (run.advance flush count).failure = none) (hsteps : 0 < (run.advance flush count).steps) :
    (run.advance flush count).machine.Settled := by
  induction count generalizing run with
  | zero => exact hrun h hsteps
  | succ count ih =>
      rw [Run.advance] at h hsteps ⊢
      split at h
      · rename_i hstopped
        rw [if_pos hstopped] at hsteps ⊢
        exact hrun h hsteps
      · rename_i hgoing
        rw [if_neg hgoing] at hsteps ⊢
        refine ih ?_ h hsteps
        intro hnext _
        exact next_settled hnext

/-- At its limit a run makes no step, and it may fail for the text of the notice. -/
theorem atLimit_machine (limit : Int) (run : Run) :
    (run.atLimit limit).machine = run.machine ∧ (run.atLimit limit).steps = run.steps ∧
      ((run.atLimit limit).failure = none → run.failure = none) := by
  unfold Run.atLimit
  split_ifs with hstopped hwritable
  · exact ⟨rfl, rfl, id⟩
  · exact ⟨rfl, rfl, id⟩
  · exact ⟨rfl, rfl, fun h => by cases h⟩

/-- At its limit a run does not fail where the limit and its position have a decimal text. -/
theorem atLimit_failure {limit : Int} {run : Run} (h : run.failure = none)
    (hlimit : Decimal.Writable limit)
    (hpc : run.machine.halted = true ∨ Decimal.Writable run.machine.pc) :
    (run.atLimit limit).failure = none := by
  unfold Run.atLimit
  split_ifs with hstopped hwritable
  · exact h
  · exact h
  · have hgoing := (Run.not_stopped_iff.1 hstopped).1
    rcases hpc with hhalted | hpc
    · rw [hgoing] at hhalted
      cases hhalted
    · exact absurd ⟨hlimit, hpc⟩ hwritable

theorem run_settled {m : Machine} {limit : Option Int} {flush : Bool} {fuel : Nat}
    (h : (m.run limit flush fuel).failure = none) (hsteps : 0 < (m.run limit flush fuel).steps) :
    (m.run limit flush fuel).machine.Settled := by
  have hstart : (Run.start m).failure = none → 0 < (Run.start m).steps →
      (Run.start m).machine.Settled := by
    intro _ hpos
    exact absurd hpos (Nat.lt_irrefl 0)
  cases limit with
  | none => exact advance_settled hstart fuel h hsteps
  | some limit =>
      obtain ⟨hmachine, hcount, hfailure⟩ :=
        atLimit_machine limit ((Run.start m).advance flush limit.toNat)
      simp only [run, Run.finish] at h hsteps ⊢
      rw [hcount] at hsteps
      rw [hmachine]
      exact advance_settled hstart limit.toNat (hfailure h) hsteps

/-! ## Recorded faults -/

theorem faultInPlace_of_none {m : Machine} (h : m.fault = none) : m.FaultInPlace := by
  intro fault hfault
  rw [h] at hfault
  cases hfault

/-- A machine that is not halted has no fault. -/
theorem FaultInPlace.fault_eq_none {m : Machine} (h : m.FaultInPlace) (hm : m.halted = false) :
    m.fault = none := by
  cases hfault : m.fault with
  | none => rfl
  | some fault =>
      have hhalted := (h fault hfault).1
      rw [hm] at hhalted
      cases hhalted

/-- A fault is recorded at the instruction that has been begun, wherever it was found. -/
theorem refuse_faultInPlace {m : Machine} {cause : FaultCause} (hfault : m.fault = none)
    (hlow : 0 ≤ m.start) (hhigh : m.start < m.program.size) :
    (m.refuse cause).machine.FaultInPlace := by
  by_cases hwritable : cause.Writable
  · rw [refuse_of_writable m hwritable]
    intro fault hrecorded
    cases hrecorded
    exact ⟨rfl, rfl, rfl, hlow, hhigh⟩
  · rw [refuse, if_neg hwritable]
    exact faultInPlace_of_none hfault

theorem FaultInPlace.step {m : Machine} (h : m.FaultInPlace) : m.step.machine.FaultInPlace := by
  have hstepped := m.stepped
  generalize m.step = turn at hstepped
  cases hstepped with
  | resting => exact h
  | outside hm => exact faultInPlace_of_none (h.fault_eq_none hm)
  | refused hm hpc => exact refuse_faultInPlace (h.fault_eq_none hm) hpc.1 hpc.2
  | offScreen hm hpc => exact refuse_faultInPlace (h.fault_eq_none hm) hpc.1 hpc.2
  | failed hm => exact faultInPlace_of_none (h.fault_eq_none hm)
  | @executed _ i hm =>
      refine faultInPlace_of_none ?_
      rw [(m.effect_fault i).1]
      exact h.fault_eq_none hm

theorem faultInPlace_operateAll (screen : Screen) (operations : List Operation) :
    ((fresh screen).operateAll operations).FaultInPlace := by
  refine operateAll_invariant (fun _ h => h.step) (fun _ _ h => h) ?_ operations ?_
  · exact faultInPlace_of_none rfl
  · intro program output resetRegisters _ m _
    exact faultInPlace_of_none rfl

/-! ## Halted machines -/

theorem run_of_halted {m : Machine} (h : m.halted = true) (limit : Option Int) (flush : Bool)
    (fuel : Nat) : m.run limit flush fuel = Run.start m := by
  have hstopped : (Run.start m).stopped = true := by
    simp only [Run.stopped, Run.start, h, Bool.true_or]
  cases limit with
  | none => exact Run.advance_of_stopped hstopped fuel
  | some limit =>
      simp only [run, Run.finish, Run.advance_of_stopped hstopped, Run.atLimit, if_pos hstopped]

/-- Without a load a halted machine keeps everything but its screen, and that changes only by the
    operations on the screen. -/
theorem operateAll_of_halted {m : Machine} (h : m.halted = true) (operations : List Operation)
    (hload : ∀ operation ∈ operations, operation.isLoad = false) :
    m.operateAll operations =
      { m with screen := m.screen.operateAll (operations.filterMap Operation.onScreen?) } := by
  induction operations generalizing m with
  | nil => rfl
  | cons operation operations ih =>
      obtain ⟨hfirst, hrest⟩ := List.forall_mem_cons.1 hload
      show (m.operate operation).operateAll operations = _
      cases operation with
      | load program output resetRegisters => cases hfirst
      | step =>
          have hstep : m.operate .step = m := by rw [operate, step_of_halted h]
          rw [hstep, ih h hrest]
          rfl
      | run limit flush fuel =>
          have hrun : m.operate (.run limit flush fuel) = m := by
            rw [operate, run_of_halted h]
            rfl
          rw [hrun, ih h hrest]
          rfl
      | screen operation =>
          have hscreen : (m.operate (.screen operation)).halted = true := h
          rw [ih hscreen hrest]
          rfl

/-! ## Every history -/

/-- After any history, a step or a run that gives an answer after a step leaves the machine halted
    or inside its program; a recorded fault stands where the machine was halted; a halted machine
    stays as it is but for its screen until it is loaded, and its runs make no steps; and a load
    gets it going from the beginning. -/
theorem control_consistent (screen : Screen) (history : List Operation) :
    let m := (fresh screen).operateAll history
    (m.step.failure = none → m.step.machine.Settled) ∧
    (∀ limit flush fuel, (m.run limit flush fuel).failure = none →
      0 < (m.run limit flush fuel).steps → (m.run limit flush fuel).machine.Settled) ∧
    (∀ fault, m.fault = some fault →
      m.halted = true ∧ m.pc = fault.position ∧ m.start = fault.position ∧
        0 ≤ m.pc ∧ m.pc < m.program.size) ∧
    (m.halted = true →
      (∀ later : List Operation, (∀ operation ∈ later, operation.isLoad = false) →
        m.operateAll later =
          { m with screen := m.screen.operateAll (later.filterMap Operation.onScreen?) }) ∧
      m.step.failure = none ∧ m.step.machine = m ∧
      ∀ limit flush fuel, (m.run limit flush fuel).failure = none ∧
        (m.run limit flush fuel).steps = 0 ∧ (m.run limit flush fuel).machine = m) ∧
    ∀ program output resetRegisters,
      let loaded := m.load program output resetRegisters
      loaded.halted = false ∧ loaded.fault = none ∧ loaded.pc = 0 ∧ loaded.stack = [] := by
  intro m
  refine ⟨step_settled, fun limit flush fuel => run_settled, faultInPlace_operateAll screen history,
    ?_, fun program output resetRegisters => ⟨rfl, rfl, rfl, rfl⟩⟩
  intro h
  refine ⟨operateAll_of_halted h, ?_, ?_, ?_⟩
  · rw [step_of_halted h]
  · rw [step_of_halted h]
  · intro limit flush fuel
    rw [run_of_halted h]
    exact ⟨rfl, rfl, rfl⟩

/-- A fault at the second row, and then a run and a step that change nothing. -/
theorem control_consistent_after_fault :
    let history : List Operation :=
      [.load [11, 0, 7, 31, 12] "" false, .step, .screen .update, .step]
    let m := (fresh Screen.dot).operateAll history
    m.fault = some ⟨.invalidRegister 12, 3⟩ ∧ m.halted = true ∧ m.pc = 3 ∧ m.start = 3 ∧
      m.registers.read 0 = 7 ∧ (m.run none true 5).steps = 0 ∧
      m.operateAll [.run none true 5, .screen .close, .step] =
        { m with screen := m.screen.operateAll [.close] } := by
  intro history m
  have hfault : m.fault = some ⟨.invalidRegister 12, 3⟩ := by decide +kernel
  have hregister : m.registers.read 0 = 7 := by decide +kernel
  obtain ⟨-, -, hplace, hhalted, -⟩ := control_consistent Screen.dot history
  obtain ⟨hm, hpc, hstart, -⟩ := hplace _ hfault
  obtain ⟨hlater, -, -, hrun⟩ := hhalted hm
  exact ⟨hfault, hm, hpc, hstart, hregister, (hrun none true 5).2.1,
    hlater [.run none true 5, .screen .close, .step] (by decide)⟩

end RegisterMachine.Machine
