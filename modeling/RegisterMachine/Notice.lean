import RegisterMachine.Instruction.Register
import RegisterMachine.Machine.Fault

set_option autoImplicit false

/-! # Notices

A `Notice` is a log message before it is worded: what happened, with the values that belong to it.
`Notice.level` and `Notice.text` give its importance and its wording. -/

namespace RegisterMachine

/-- The importance of a notice. -/
inductive Level where
  | debug
  | info
  | warning
  | error
  deriving DecidableEq, Repr

/-- The name under which a level is shown. -/
def Level.name : Level → String
  | debug => "DEBUG"
  | info => "INFO"
  | warning => "WARNING"
  | error => "ERROR"

/-- What a log tells. -/
inductive Notice where
  /-- The assembler command has started. -/
  | assemblerStarted
  /-- The emulator command has started. -/
  | emulatorStarted
  /-- A configuration file is about to be read. -/
  | loadingConfiguration (path : String)
  /-- A source file is about to be assembled. -/
  | assembling (path : String)
  /-- A source file is about to be read. -/
  | collecting (path : String)
  /-- So many lines with tokens are about to be encoded. -/
  | encoding (lines : Nat)
  /-- A token got the unresolved word at this offset. -/
  | unresolvedToken (token : List Char) (offset : Nat)
  /-- The program about to be executed. -/
  | assembled (words : List Int)
  /-- A program has been put into the machine. -/
  | initializing
  /-- A program of so many words is about to run. -/
  | running (words : Nat)
  /-- The program halted by its own instruction, or is halted already. -/
  | programHalted
  /-- The program counter points outside the program. -/
  | outOfBounds
  /-- An instruction could not be carried out. -/
  | faulted (fault : Fault)
  /-- A run used up its steps. -/
  | stepLimit (limit pc : Int)
  /-- The program counter, the depth of the stack and the registers. -/
  | state (pc : Int) (depth : Nat) (registers : Registers)
  /-- The execution ended at its step limit. -/
  | stoppedByLimit
  /-- The execution ended with a fault. -/
  | haltedOnFault (fault : Fault)
  /-- The execution ended well. -/
  | haltedGracefully
  /-- The execution could not be carried out. -/
  | generalError
  deriving DecidableEq

namespace Notice

/-- How important a notice is. -/
def level : Notice → Level
  | loadingConfiguration _ | collecting _ | encoding _ | unresolvedToken .. | state .. => .debug
  | outOfBounds | stepLimit .. => .warning
  | faulted _ | generalError => .error
  | assemblerStarted | emulatorStarted | assembling _ | assembled _ | initializing | running _
  | programHalted | stoppedByLimit | haltedOnFault _ | haltedGracefully => .info

/-- A register and its contents. -/
def registerText (registers : Registers) (r : Register) : String :=
  let contents := Decimal.text (registers.read r)
  let index := r.val
  s!"R{index}:{contents}"

/-- The wording of a notice. -/
def text : Notice → String
  | assemblerStarted => "XASM"
  | emulatorStarted => "XVM"
  | loadingConfiguration path => s!"Loading machine config {path}"
  | assembling path => s!"Assembling file: {path}"
  | collecting path => s!"Collecting file {path}"
  | encoding lines => s!"Encoding {lines} lines"
  | unresolvedToken token offset =>
    let name := String.ofList token
    s!"Unresolved token {name} at offset {offset}"
  | assembled words =>
    let list := String.intercalate ", " (words.map Decimal.text)
    s!"Bytecode: [{list}]"
  | initializing => "Initializing VM"
  | running words => s!"Running {words} words"
  | programHalted => "Program halted"
  | outOfBounds => "Program counter out of bounds"
  | faulted fault => fault.message
  | stepLimit limit pc =>
    let number := Decimal.text limit
    let position := Decimal.text pc
    s!"Step limit {number} reached at {position}"
  | state pc depth registers =>
    let position := Decimal.text pc
    String.intercalate " " (s!"PC:{position}" :: s!"SP:{depth}" ::
      (List.finRange registerCount).map (registerText registers))
  | stoppedByLimit => "Execution stopped by the step limit"
  | haltedOnFault fault =>
    let message := fault.message
    s!"Execution halted on fault: {message}"
  | haltedGracefully => "Execution halted gracefully"
  | generalError => "Execution halted on general error"

end Notice

end RegisterMachine
