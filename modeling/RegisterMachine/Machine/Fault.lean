import RegisterMachine.Instruction.Opcode
import RegisterMachine.Numeric.Decimal

set_option autoImplicit false

/-! # Faults

A `Fault` is the recorded end of a program that went wrong: its cause and the position of the
instruction that could not be carried out. `Fault.message` is its one wording. A cause that names a
number beyond the decimal digit limit is not `Writable`, and then there is no message to record. -/

namespace RegisterMachine

/-- Why an instruction could not be carried out. -/
inductive FaultCause where
  /-- The word at the program counter is no opcode. -/
  | unknownOpcode (word : Int)
  /-- The program ends inside the instruction. -/
  | truncated
  /-- A register operand names no register. -/
  | invalidRegister (index : Int)
  /-- A pixel is outside the screen. -/
  | offScreen (x y : Int)
  deriving DecidableEq, Repr

/-- The numbers that the message for a cause names. -/
def FaultCause.numbers : FaultCause → List Int
  | unknownOpcode word => [word]
  | truncated => []
  | invalidRegister index => [index]
  | offScreen x y => [x, y]

/-- Whether all numbers of a cause are within the decimal digit limit. -/
def FaultCause.Writable (cause : FaultCause) : Prop :=
  ∀ n ∈ cause.numbers, Decimal.Writable n

instance (cause : FaultCause) : Decidable cause.Writable :=
  inferInstanceAs (Decidable (∀ n ∈ cause.numbers, Decimal.Writable n))

/-- A cause and the position of the instruction that could not be carried out. -/
structure Fault where
  cause : FaultCause
  position : Int
  deriving DecidableEq, Repr

/-- The text of a fault. -/
def Fault.message (fault : Fault) : String :=
  let position := Decimal.text fault.position
  match fault.cause with
  | .unknownOpcode word =>
    let number := Decimal.text word
    let name := mnemonicOf word
    s!"Unknown instruction: {number}({name}) at {position}"
  | .truncated => s!"Truncated instruction at {position}"
  | .invalidRegister index =>
    let number := Decimal.text index
    s!"Invalid register {number} at {position}"
  | .offScreen x y =>
    let column := Decimal.text x
    let row := Decimal.text y
    s!"Pixel ({column}, {row}) is off screen at {position}"

end RegisterMachine
