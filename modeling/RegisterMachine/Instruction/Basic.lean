import RegisterMachine.Instruction.Opcode
import RegisterMachine.Instruction.Register

set_option autoImplicit false

/-! # Instructions

An `Instruction` is an opcode with its operands, each of its own kind. Its words are what a program
holds of it: the opcode's code and one word per operand (`length_words`). -/

namespace RegisterMachine

/-- An instruction with its operands. -/
inductive Instruction where
  | movr (target source : Register)
  | movv (target : Register) (value : Int)
  | add (target source : Register)
  | sub (target source : Register)
  | push (source : Register)
  | pop (target : Register)
  | jp (address : Int)
  | jl (left right : Register) (address : Int)
  | call (address : Int)
  | ret
  | print (source : Register)
  | draw (x y colour : Register)
  | cls
  | slp (milliseconds : Int)
  | halt
  deriving DecidableEq, Repr

namespace Instruction

/-- The opcode of an instruction. -/
def opcode : Instruction → Opcode
  | movr .. => .movr
  | movv .. => .movv
  | add .. => .add
  | sub .. => .sub
  | push .. => .push
  | pop .. => .pop
  | jp .. => .jp
  | jl .. => .jl
  | call .. => .call
  | ret => .ret
  | print .. => .print
  | draw .. => .draw
  | cls => .cls
  | slp .. => .slp
  | halt => .halt

/-- The operand words of an instruction, a register by its index. -/
def operands : Instruction → List Int
  | movr t s | add t s | sub t s => [t.val, s.val]
  | movv t v => [t.val, v]
  | push r | pop r | print r => [r.val]
  | jp a | call a => [a]
  | jl l r a => [l.val, r.val, a]
  | draw x y c => [x.val, y.val, c.val]
  | slp ms => [ms]
  | ret | cls | halt => []

/-- The words of an instruction in a program. -/
def words (i : Instruction) : List Int :=
  i.opcode.code :: i.operands

/-- The number of words that an instruction takes. -/
def width (i : Instruction) : Nat :=
  1 + i.opcode.arity

theorem length_operands (i : Instruction) : i.operands.length = i.opcode.arity := by
  cases i <;> rfl

@[simp] theorem length_words (i : Instruction) : i.words.length = i.width := by
  simp [words, width, length_operands, Nat.add_comm]

end Instruction

end RegisterMachine
