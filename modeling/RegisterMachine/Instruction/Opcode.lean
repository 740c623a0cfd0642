set_option autoImplicit false

/-! # The instruction table

Each `Opcode` has a code word, a spelling and a signature, the kinds of its operands in order. Code
words and spellings are pairwise different, so that they can be read back (`ofCode?_code`,
`ofSpelling?_spelling`) and nothing else is read (`code_of_ofCode?`, `spelling_of_ofSpelling?`). -/

namespace RegisterMachine

/-- The operations of the machine. -/
inductive Opcode where
  /-- Copy a register. -/
  | movr
  /-- Load a value into a register. -/
  | movv
  /-- Add a register to a register. -/
  | add
  /-- Subtract a register from a register. -/
  | sub
  /-- Push a register on the stack. -/
  | push
  /-- Pop the stack into a register; an empty stack gives zero. -/
  | pop
  /-- Jump to an address. -/
  | jp
  /-- Jump to an address if one register is less than another. -/
  | jl
  /-- Push the address of the next instruction and jump. -/
  | call
  /-- Jump to the address on top of the stack; an empty stack gives zero. -/
  | ret
  /-- Print a register. -/
  | print
  /-- Set a pixel of the screen. -/
  | draw
  /-- Clear the screen. -/
  | cls
  /-- Sleep for a number of milliseconds. -/
  | slp
  /-- Halt. -/
  | halt
  deriving DecidableEq, Repr

/-- What an operand word means. -/
inductive OperandKind where
  | register
  | value
  | address
  deriving DecidableEq, Repr

/-- The letter that stands for an operand kind in a printed signature. -/
def OperandKind.letter : OperandKind → Char
  | register => 'r'
  | value => 'v'
  | address => 'a'

namespace Opcode

/-- All opcodes, in the order of their codes. -/
def all : List Opcode :=
  [movr, movv, add, sub, push, pop, jp, jl, call, ret, print, draw, cls, slp, halt]

/-- The word that stands for an opcode in a program. -/
def code : Opcode → Int
  | movr => 10
  | movv => 11
  | add => 20
  | sub => 21
  | push => 30
  | pop => 31
  | jp => 40
  | jl => 41
  | call => 42
  | ret => 50
  | print => 60
  | draw => 61
  | cls => 62
  | slp => 70
  | halt => 255

/-- The letters of an opcode in a source text. -/
def spelling : Opcode → List Char
  | movr => ['M', 'O', 'V', 'R']
  | movv => ['M', 'O', 'V', 'V']
  | add => ['A', 'D', 'D']
  | sub => ['S', 'U', 'B']
  | push => ['P', 'U', 'S', 'H']
  | pop => ['P', 'O', 'P']
  | jp => ['J', 'P']
  | jl => ['J', 'L']
  | call => ['C', 'A', 'L', 'L']
  | ret => ['R', 'E', 'T']
  | print => ['P', 'R', 'I', 'N', 'T']
  | draw => ['D', 'R', 'A', 'W']
  | cls => ['C', 'L', 'S']
  | slp => ['S', 'L', 'P']
  | halt => ['H', 'A', 'L', 'T']

/-- The kinds of an opcode's operands, in order. -/
def signature : Opcode → List OperandKind
  | movr | add | sub => [.register, .register]
  | movv => [.register, .value]
  | push | pop | print => [.register]
  | jp | call => [.address]
  | jl => [.register, .register, .address]
  | draw => [.register, .register, .register]
  | slp => [.value]
  | ret | cls | halt => []

/-- The number of an opcode's operands. -/
def arity (op : Opcode) : Nat :=
  op.signature.length

/-- The name of an opcode in messages and listings. -/
def mnemonic (op : Opcode) : String :=
  String.ofList op.spelling

/-- The opcode that a word stands for. -/
def ofCode? (word : Int) : Option Opcode :=
  all.find? (·.code == word)

/-- The opcode that is spelt so, in capital letters. -/
def ofSpelling? (letters : List Char) : Option Opcode :=
  all.find? (·.spelling == letters)

@[simp] theorem ofCode?_code (op : Opcode) : ofCode? op.code = some op := by
  cases op <;> rfl

theorem code_of_ofCode? {word : Int} {op : Opcode} (h : ofCode? word = some op) :
    op.code = word := by
  simpa using List.find?_some h

@[simp] theorem ofSpelling?_spelling (op : Opcode) : ofSpelling? op.spelling = some op := by
  cases op <;> rfl

theorem spelling_of_ofSpelling? {letters : List Char} {op : Opcode}
    (h : ofSpelling? letters = some op) : op.spelling = letters := by
  simpa using List.find?_some h

end Opcode

/-- The name of the opcode that a word stands for, or a name for all other words. -/
def mnemonicOf (word : Int) : String :=
  match Opcode.ofCode? word with
  | some op => op.mnemonic
  | none => "UNKNOWN"

end RegisterMachine
