import RegisterMachine.Assembly.Encode
import RegisterMachine.Assembly.Listing
import RegisterMachine.Command.Arguments
import RegisterMachine.Command.Path
import RegisterMachine.Command.Report

set_option autoImplicit false

/-! # The assembler command

`Command.assemble` assembles one file and prints its words on a line, or its listing. -/

namespace RegisterMachine.Command

/-- The options of the assembler. -/
inductive AssembleOption where
  | verbose
  | listing
  deriving DecidableEq

/-- How the options of the assembler are written. -/
def assembleForms : List (OptionForm AssembleOption) :=
  [ ⟨.verbose, some 'v', ['v', 'e', 'r', 'b', 'o', 's', 'e'], false⟩,
    ⟨.listing, some 'l', ['l', 'i', 's', 't', 'i', 'n', 'g'], false⟩ ]

/-- A use of the assembler. -/
structure AssembleUse where
  verbose : Bool
  listing : Bool
  source : String

/-- The use that a command line asks for, or `none` for a usage error. -/
def AssembleUse.ofArguments? (arguments : List String) : Option AssembleUse := do
  let items ← parseArguments? assembleForms none arguments
  match operands items with
  | [source] =>
    return {
      verbose := isSwitchedOn .verbose items
      listing := isSwitchedOn .listing items
      source }
  | _ => none

/-- What is printed for the words of a program. -/
def AssembleUse.print (use : AssembleUse) (words : List Int) : String :=
  if use.listing then unlines ((Listing.rows words).map Listing.Row.text)
  else unlines [String.intercalate " " (words.map Decimal.text)]

/-- Assembles a file's bytes. -/
def AssembleUse.run (use : AssembleUse) (bytes : ByteArray) : Report :=
  let path := displayPath use.source
  let opening := [.assemblerStarted, .assembling path, .collecting path]
  let report (notices : List Notice) (outcome : Except Failure (List Int)) : Report :=
    let shown := (opening ++ notices).filter (isShown use.verbose)
    match outcome with
    | .ok words => { exitCode := 0, output := use.print words, notices := shown }
    | .error failure =>
      { exitCode := 1, output := "", notices := shown, failure := some failure }
  match Text.decode? bytes with
  | none => report [] (.error .malformedEncoding)
  | some source =>
    let encoded := Assembly.assemble source
    report encoded.notices encoded.outcome

/-- The assembler command, with the files that its arguments may name. -/
def assemble (files : String → Option ByteArray) (arguments : List String) : Report :=
  match AssembleUse.ofArguments? arguments with
  | none => usageError
  | some use => match files use.source with
    | none => usageError
    | some bytes => use.run bytes

end RegisterMachine.Command
