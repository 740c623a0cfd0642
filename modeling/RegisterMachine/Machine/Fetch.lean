import RegisterMachine.Instruction.Basic
import RegisterMachine.Machine.Fault

set_option autoImplicit false

/-! # Fetching instructions

`Instruction.fetch` reads an instruction word by word. The words are given by their distance from
the opcode, and the first that is missing or names no register refuses the instruction. The words of
an instruction are read back, whatever follows them (`fetch_of_words`). -/

namespace RegisterMachine

/-- Why an instruction could not be read, and how many of its words had been read by then. -/
structure Refusal where
  cause : FaultCause
  read : Nat
  deriving DecidableEq, Repr

namespace Instruction

/-- The word at an offset. -/
def fetchWord (word? : Nat → Option Int) (offset : Nat) : Except Refusal Int :=
  match word? offset with
  | some word => .ok word
  | none => .error ⟨.truncated, offset⟩

/-- The register that the word at an offset names. -/
def fetchRegister (word? : Nat → Option Int) (offset : Nat) : Except Refusal Register :=
  match word? offset with
  | none => .error ⟨.truncated, offset⟩
  | some index => match Register.ofIndex? index with
    | some r => .ok r
    | none => .error ⟨.invalidRegister index, offset + 1⟩

/-- The operands of an opcode, which follow it in order. -/
def fetchOperands (word? : Nat → Option Int) : Opcode → Except Refusal Instruction
  | .movr => do
    let target ← fetchRegister word? 1
    let source ← fetchRegister word? 2
    return .movr target source
  | .movv => do
    let target ← fetchRegister word? 1
    let value ← fetchWord word? 2
    return .movv target value
  | .add => do
    let target ← fetchRegister word? 1
    let source ← fetchRegister word? 2
    return .add target source
  | .sub => do
    let target ← fetchRegister word? 1
    let source ← fetchRegister word? 2
    return .sub target source
  | .push => do
    let source ← fetchRegister word? 1
    return .push source
  | .pop => do
    let target ← fetchRegister word? 1
    return .pop target
  | .jp => do
    let address ← fetchWord word? 1
    return .jp address
  | .jl => do
    let left ← fetchRegister word? 1
    let right ← fetchRegister word? 2
    let address ← fetchWord word? 3
    return .jl left right address
  | .call => do
    let address ← fetchWord word? 1
    return .call address
  | .ret => return .ret
  | .print => do
    let source ← fetchRegister word? 1
    return .print source
  | .draw => do
    let x ← fetchRegister word? 1
    let y ← fetchRegister word? 2
    let colour ← fetchRegister word? 3
    return .draw x y colour
  | .cls => return .cls
  | .slp => do
    let milliseconds ← fetchWord word? 1
    return .slp milliseconds
  | .halt => return .halt

/-- The instruction whose words are given by their distance from its opcode. -/
def fetch (word? : Nat → Option Int) : Except Refusal Instruction :=
  match word? 0 with
  | none => .error ⟨.truncated, 0⟩
  | some word => match Opcode.ofCode? word with
    | none => .error ⟨.unknownOpcode word, 1⟩
    | some op => fetchOperands word? op

theorem fetch_of_words (i : Instruction) (rest : List Int) :
    fetch ((i.words ++ rest)[·]?) = .ok i := by
  cases i <;>
    simp [fetch, words, opcode, operands, fetchOperands, fetchRegister, fetchWord] <;> rfl

end Instruction

end RegisterMachine
