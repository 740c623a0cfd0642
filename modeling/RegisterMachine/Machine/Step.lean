import RegisterMachine.Machine.Basic
import RegisterMachine.Machine.Fetch
import RegisterMachine.Numeric.Word

set_option autoImplicit false

/-! # One step

`Machine.step` executes the instruction at the program counter. The instruction is fetched as a
whole before anything changes, so that one that is refused leaves no trace but its fault
(`refuse_of_writable`). A halted machine stays as it is (`step_of_halted`), and a machine whose
program counter leaves the program is halted. -/

namespace RegisterMachine

/-- What one operation made of the machine, what it did to the outside, and why it gave no answer if
    it did not. -/
structure Turn where
  machine : Machine
  events : List Event
  failure : Option Failure

/-- Why an instruction did not simply end. -/
inductive Interruption where
  /-- The instruction halts the program. -/
  | halt
  /-- The instruction cannot be carried out. -/
  | fault (cause : FaultCause)
  /-- The instruction gives no answer. -/
  | failure (failure : Failure)

namespace Machine

/-! ## Instructions -/

/-- The machine with a new value in one register. -/
def setRegister (m : Machine) (r : Register) (value : Int) : Machine :=
  { m with registers := m.registers.write r value }

/-- Carries out an instruction on a machine whose program counter is already behind it. -/
def perform (m : Machine) : Instruction → Except Interruption (Machine × List Event)
  | .movr target source => .ok (m.setRegister target (m.registers.read source), [])
  | .movv target value => .ok (m.setRegister target (Word.wrap value), [])
  | .add target source =>
    .ok (m.setRegister target (Word.wrap (m.registers.read target + m.registers.read source)), [])
  | .sub target source =>
    .ok (m.setRegister target (Word.wrap (m.registers.read target - m.registers.read source)), [])
  | .push source => .ok ({ m with stack := m.registers.read source :: m.stack }, [])
  | .pop target =>
    .ok ({ m.setRegister target (m.stack.headD 0) with stack := m.stack.tail }, [])
  | .jp address => .ok ({ m with pc := address }, [])
  | .jl left right address =>
    .ok (if m.registers.read left < m.registers.read right then { m with pc := address } else m, [])
  | .call address => .ok ({ m with pc := address, stack := m.pc :: m.stack }, [])
  | .ret => .ok ({ m with pc := m.stack.headD 0, stack := m.stack.tail }, [])
  | .print source =>
    let value := m.registers.read source
    if Decimal.Writable value then
      let line := Decimal.text value
      .ok ({ m with output := m.output ++ line }, [.printed line])
    else .error (.failure .tooManyDigits)
  | .draw x y colour =>
    let column := m.registers.read x
    let row := m.registers.read y
    if m.screen.OnScreen column row then
      match m.screen.setPixel column row (m.registers.read colour) with
      | .ok screen => .ok ({ m with screen }, [])
      | .error failure => .error (.failure failure)
    else .error (.fault (.offScreen column row))
  | .cls => .ok ({ m with screen := m.screen.clear }, [])
  | .slp milliseconds => match Binary64.ofMilliseconds (max milliseconds 0) with
    | some seconds => .ok (m, [.slept seconds])
    | none => .error (.failure .durationTooLong)
  | .halt => .error .halt

/-! ## Steps -/

/-- The machine after an instruction that did not halt it: it goes on inside its program and is
    halted outside. -/
def settle (m : Machine) (events : List Event) : Turn :=
  if m.InBounds then ⟨m, events, none⟩
  else ⟨{ m with halted := true }, events ++ [.logged .outOfBounds], none⟩

/-- Records a fault of the instruction at `start` and goes back there. A fault that cannot be put
    into words is not recorded and leaves the machine running. -/
def refuse (m : Machine) (cause : FaultCause) : Turn :=
  if cause.Writable then
    let fault : Fault := ⟨cause, m.start⟩
    let halted := { m with pc := m.start, fault := some fault, halted := true }
    ⟨halted, [.logged (.faulted fault)], none⟩
  else ⟨m, [], some .tooManyDigits⟩

/-- Executes the instruction at the program counter. -/
def execute (m : Machine) : Turn :=
  let begun := { m with start := m.pc }
  match Instruction.fetch m.word? with
  | .error refusal => refuse { begun with pc := m.pc + refusal.read } refusal.cause
  | .ok instruction =>
    let advanced := { begun with pc := m.pc + instruction.width }
    match advanced.perform instruction with
    | .ok (after, events) => after.settle events
    | .error .halt => ⟨{ advanced with halted := true }, [.logged .programHalted], none⟩
    | .error (.fault cause) => advanced.refuse cause
    | .error (.failure failure) => ⟨advanced, [], some failure⟩

/-- One step of the machine. -/
def step (m : Machine) : Turn :=
  if m.halted then ⟨m, [.logged .programHalted], none⟩
  else if m.InBounds then m.execute
  else m.settle []

/-! ## Laws -/

theorem step_of_halted {m : Machine} (h : m.halted = true) :
    m.step = ⟨m, [.logged .programHalted], none⟩ := by
  simp [step, h]

theorem step_of_inBounds {m : Machine} (hm : m.halted = false) (h : m.InBounds) :
    m.step = m.execute := by
  simp [step, hm, h]

theorem step_of_not_inBounds {m : Machine} (hm : m.halted = false) (h : ¬ m.InBounds) :
    m.step = ⟨{ m with halted := true }, [.logged .outOfBounds], none⟩ := by
  simp [step, settle, hm, h]

theorem refuse_of_writable (m : Machine) {cause : FaultCause} (h : cause.Writable) :
    m.refuse cause =
      ⟨{ m with pc := m.start, fault := some ⟨cause, m.start⟩, halted := true },
        [.logged (.faulted ⟨cause, m.start⟩)], none⟩ := by
  simp [refuse, h]

theorem refuse_of_not_writable (m : Machine) {cause : FaultCause} (h : ¬ cause.Writable) :
    m.refuse cause = ⟨m, [], some .tooManyDigits⟩ := by
  simp [refuse, h]

end Machine

end RegisterMachine
