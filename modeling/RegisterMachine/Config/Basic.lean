import RegisterMachine.Config.Value

set_option autoImplicit false

/-! # Configurations

A `Configuration` holds the size of the screen and its refresh interval. `Configuration.update` sets
parameters from pairs of names and values, one after the other, and stops at the first pair that
cannot be set; those before it stay set (`assignAll_cons_of_ok`, `assignAll_cons_of_error`). -/

namespace RegisterMachine

/-- The parameters of a machine. -/
structure Configuration where
  screenWidth : Int := 160
  screenHeight : Int := 100
  refreshMs : Int := 16
  deriving DecidableEq, Repr

/-- The names of a configuration's fields. -/
inductive Parameter where
  | screenWidth
  | screenHeight
  | refreshMs
  deriving DecidableEq, Repr

/-- The parameter with a name. -/
def Parameter.ofName? (name : String) : Option Parameter :=
  if name = "screen_width" then some .screenWidth
  else if name = "screen_height" then some .screenHeight
  else if name = "refresh_ms" then some .refreshMs
  else none

namespace Configuration

/-- The value of a parameter. -/
def get (c : Configuration) : Parameter → Int
  | .screenWidth => c.screenWidth
  | .screenHeight => c.screenHeight
  | .refreshMs => c.refreshMs

/-- The configuration with a new value for a parameter. -/
def set (c : Configuration) (p : Parameter) (n : Int) : Configuration :=
  match p with
  | .screenWidth => { c with screenWidth := n }
  | .screenHeight => { c with screenHeight := n }
  | .refreshMs => { c with refreshMs := n }

/-- Sets one parameter by its name. A null value changes nothing, whatever the name. -/
def assign (c : Configuration) (name : String) : Value → Except Failure Configuration
  | .null => .ok c
  | value => match Parameter.ofName? name with
    | none => .error (.unknownParameter name)
    | some p => (value.toInteger).map (c.set p)

/-- Sets parameters in order, up to the first that cannot be set. -/
def assignAll (c : Configuration) : List (String × Value) → Configuration × Option Failure
  | [] => (c, none)
  | (name, value) :: rest => match c.assign name value with
    | .ok c' => c'.assignAll rest
    | .error failure => (c, some failure)

/-- The name that can stand for no parameter. -/
def reservedName : String := "self"

/-- Sets parameters in order, unless the reserved name is among them. -/
def update (c : Configuration) (pairs : List (String × Value)) : Configuration × Option Failure :=
  if pairs.any (·.1 == reservedName) then (c, some .reservedKey) else c.assignAll pairs

@[simp] theorem get_set_self (c : Configuration) (p : Parameter) (n : Int) :
    (c.set p n).get p = n := by
  cases p <;> rfl

theorem get_set_of_ne (c : Configuration) {p q : Parameter} (n : Int) (h : q ≠ p) :
    (c.set p n).get q = c.get q := by
  cases p <;> cases q <;> first | rfl | exact absurd rfl h

theorem assignAll_cons_of_ok {c c' : Configuration} {name : String} {value : Value}
    (rest : List (String × Value)) (h : c.assign name value = .ok c') :
    c.assignAll ((name, value) :: rest) = c'.assignAll rest := by
  simp [assignAll, h]

theorem assignAll_cons_of_error {c : Configuration} {name : String} {value : Value}
    {failure : Failure} (rest : List (String × Value))
    (h : c.assign name value = .error failure) :
    c.assignAll ((name, value) :: rest) = (c, some failure) := by
  simp [assignAll, h]

end Configuration

end RegisterMachine
