set_option autoImplicit false

/-! # Command line arguments

Arguments are options and operands in any order. An option has a long name behind two hyphens and
perhaps a letter behind one hyphen; letters may stand together. An option with a value takes the
rest of its argument, behind an equals sign after a long name, or else the next argument whatever it
looks like. Two hyphens alone end the options. Anything else that begins with a hyphen is a usage
error, and a single hyphen is an operand. -/

namespace RegisterMachine.Command

/-- How an option is written. -/
structure OptionForm (ω : Type) where
  option : ω
  letter : Option Char
  name : List Char
  takesValue : Bool

/-- One item of a command line. -/
inductive Argument (ω : Type) where
  /-- An option that was switched on. -/
  | flag (option : ω)
  /-- An option with its value. -/
  | setting (option : ω) (value : String)
  | operand (content : String)

/-- What one argument is. -/
inductive Reading (ω : Type) where
  | operand
  | endOfOptions
  /-- Complete options, and an option whose value is the next argument. -/
  | options (complete : List (Argument ω)) (awaiting : Option ω)
  | invalid

variable {ω : Type}

/-- The options that letters stand for. -/
def readLetters (forms : List (OptionForm ω)) : List Char → Reading ω
  | [] => .options [] none
  | c :: rest => match forms.find? (·.letter == some c) with
    | none => .invalid
    | some form =>
      if form.takesValue then
        if rest = [] then .options [] (some form.option)
        else .options [.setting form.option (String.ofList rest)] none
      else match readLetters forms rest with
        | .options complete awaiting => .options (.flag form.option :: complete) awaiting
        | other => other

/-- The option behind two hyphens, with its value if one is attached. -/
def readName (forms : List (OptionForm ω)) (content : List Char) : Reading ω :=
  let name := content.takeWhile (· ≠ '=')
  match forms.find? (·.name == name), content.dropWhile (· ≠ '=') with
  | none, _ => .invalid
  | some form, [] =>
    if form.takesValue then .options [] (some form.option)
    else .options [.flag form.option] none
  | some form, _ :: value =>
    if form.takesValue then .options [.setting form.option (String.ofList value)] none
    else .invalid

/-- What an argument is that stands where an option may stand. -/
def read (forms : List (OptionForm ω)) (argument : String) : Reading ω :=
  match argument.toList with
  | ['-', '-'] => .endOfOptions
  | '-' :: '-' :: content => readName forms content
  | ['-'] => .operand
  | '-' :: letters => readLetters forms letters
  | _ => .operand

/-- The items of a command line, or `none` for a usage error. -/
def parseArguments? (forms : List (OptionForm ω)) :
    (awaiting : Option ω) → List String → Option (List (Argument ω))
  | none, [] => some []
  | some _, [] => none
  | some option, value :: rest => (parseArguments? forms none rest).map (.setting option value :: ·)
  | none, argument :: rest => match read forms argument with
    | .operand => (parseArguments? forms none rest).map (.operand argument :: ·)
    | .endOfOptions => some (rest.map .operand)
    | .options complete awaiting => (parseArguments? forms awaiting rest).map (complete ++ ·)
    | .invalid => none

/-- The operands of a command line. -/
def operands (arguments : List (Argument ω)) : List String :=
  arguments.filterMap fun
    | .operand content => some content
    | _ => none

/-- Whether an option was switched on. -/
def isSwitchedOn [BEq ω] (option : ω) (arguments : List (Argument ω)) : Bool :=
  arguments.any fun
    | .flag o => o == option
    | _ => false

/-- The value of an option. Of several the last counts. -/
def lastSetting? [BEq ω] (option : ω) (arguments : List (Argument ω)) : Option String :=
  (arguments.filterMap fun
    | .setting o value => if o == option then some value else none
    | _ => none).getLast?

end RegisterMachine.Command
