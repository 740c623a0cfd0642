set_option autoImplicit false

/-! # Failures

A `Failure` is a reason why an operation gives no answer at all. It is not a fault of a running
program, which the machine records and stops for. -/

namespace RegisterMachine

/-- Why an operation has no answer. -/
inductive Failure where
  /-- A number is longer than the decimal digit limit. -/
  | tooManyDigits
  /-- A framebuffer would have a negative number of cells. -/
  | negativeSize
  /-- A framebuffer would have more cells than can be addressed. -/
  | sizeTooLarge
  /-- A framebuffer would have more cells than there is memory for. -/
  | outOfMemory
  /-- A duration is beyond the range of binary floating point. -/
  | durationTooLong
  /-- A coordinate is outside the framebuffer. -/
  | outsideFramebuffer
  /-- A palette does not have one entry for every byte. -/
  | paletteLength (got : Nat)
  /-- A configuration key names no parameter. -/
  | unknownParameter (name : String)
  /-- A configuration key is reserved and can name no parameter. -/
  | reservedKey
  /-- A configuration value is a text that spells no integer. -/
  | notAnInteger
  /-- A configuration value is not a number. -/
  | undefinedNumber
  /-- A configuration value is infinite. -/
  | infiniteNumber
  /-- A configuration value is of a kind that has no integer. -/
  | notNumeric
  /-- What should be a table of parameters is something else. -/
  | notATable
  /-- A configuration document is malformed. -/
  | malformedDocument
  /-- A file's bytes are not text. -/
  | malformedEncoding
  deriving DecidableEq, Repr

/-- The warning that goes with a failure, for the failures that have one. -/
def Failure.warning? : Failure → Option String
  | .paletteLength got => some s!"Palette must have 256 entries, got {got}"
  | .unknownParameter name => some s!"Unknown machine parameter {name}"
  | _ => none

end RegisterMachine
