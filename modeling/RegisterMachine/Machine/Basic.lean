import RegisterMachine.Event

set_option autoImplicit false

/-! # The machine

A `Machine` is a program with its program counter, registers, stack, printed output and screen, and
with how its execution ended. `Machine.load` puts in a program and keeps the registers unless told
otherwise. -/

namespace RegisterMachine

/-- The state of a machine. -/
structure Machine where
  /-- The position of the next word. -/
  pc : Int
  registers : Registers
  /-- Data and return addresses, the top first. -/
  stack : List Int
  program : Array Int
  halted : Bool
  /-- The texts of all printed numbers, one after the other. -/
  output : String
  /-- The fault that halted the machine. -/
  fault : Option Fault
  /-- The position of the last instruction that began executing. -/
  start : Int
  screen : Screen

namespace Machine

/-- A machine without a program. -/
def fresh (screen : Screen) : Machine where
  pc := 0
  registers := Registers.zero
  stack := []
  program := #[]
  halted := false
  output := ""
  fault := none
  start := 0
  screen := screen

/-- Puts a program into the machine, with an output to begin with. -/
def load (m : Machine) (program : List Int) (output : String) (resetRegisters : Bool) : Machine :=
  { m with
    pc := 0
    registers := if resetRegisters then Registers.zero else m.registers
    stack := []
    program := program.toArray
    halted := false
    output
    fault := none
    screen := m.screen.clear }

/-- Whether the program counter points into the program. -/
def InBounds (m : Machine) : Prop :=
  0 ≤ m.pc ∧ m.pc < m.program.size

instance (m : Machine) : Decidable m.InBounds :=
  inferInstanceAs (Decidable (_ ∧ _))

/-- The word at a distance from the program counter. -/
def word? (m : Machine) (offset : Nat) : Option Int :=
  if 0 ≤ m.pc then m.program[m.pc.toNat + offset]? else none

/-- The name of the next instruction. -/
def currentMnemonic (m : Machine) : String :=
  match m.word? 0 with
  | some word => mnemonicOf word
  | none => "UNKNOWN"

/-- Whether the program counter and all registers are within the decimal digit limit. -/
def Writable (m : Machine) : Prop :=
  Decimal.Writable m.pc ∧ ∀ r, Decimal.Writable (m.registers.read r)

instance (m : Machine) : Decidable m.Writable :=
  inferInstanceAs (Decidable (_ ∧ _))

/-- The notice that shows the program counter, the depth of the stack and the registers. -/
def dump (m : Machine) : Except Failure Notice :=
  if m.Writable then .ok (.state m.pc m.stack.length m.registers) else .error .tooManyDigits

end Machine

end RegisterMachine
