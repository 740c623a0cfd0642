import RegisterMachine.Proofs.Reach

set_option autoImplicit false

/-! # Histories

A history is a list of operations: programs are loaded, steps and runs are made, and the screen is
used in between. `Machine.operateAll` is the machine that has gone through one. Whatever loads,
steps and changes of the screen keep is kept by every history (`operateAll_invariant`). -/

namespace RegisterMachine

namespace Screen

/-- What changes a screen from outside, its clock included; reading it changes nothing. -/
inductive Operation where
  | setPixel (x y index : Int)
  | clear
  | setPalette (colours : List Int)
  /-- The clock goes on, or back, to a reading. -/
  | setClock (reading : Rat)
  | update
  | close

/-- The screen after an operation that succeeds. -/
def attempt (screen : Screen) : Operation → Except Failure Screen
  | .setPixel x y index => screen.setPixel x y index
  | .clear => .ok screen.clear
  | .setPalette colours => screen.setPalette colours
  | .setClock reading => .ok { screen with clock := reading }
  | .update => .ok screen.update.1
  | .close => .ok screen.close

/-- The screen after an operation, which changes nothing where it fails. -/
def operate (screen : Screen) (operation : Operation) : Screen :=
  match screen.attempt operation with
  | .ok after => after
  | .error _ => screen

def operateAll (screen : Screen) (operations : List Operation) : Screen :=
  operations.foldl operate screen

end Screen

namespace Machine

/-- What can be done to a machine from outside. A run without a limit makes at most `fuel` steps. -/
inductive Operation where
  | load (program : List Int) (output : String) (resetRegisters : Bool)
  | step
  | run (limit : Option Int) (flush : Bool) (fuel : Nat)
  | screen (operation : Screen.Operation)

namespace Operation

def isLoad : Operation → Bool
  | load .. => true
  | _ => false

/-- The operation on the screen that an operation is, if it is one. -/
def onScreen? : Operation → Option Screen.Operation
  | screen operation => some operation
  | _ => none

end Operation

/-- The machine after an operation. A step or a run that fails leaves what it has done so far. -/
def operate (m : Machine) : Operation → Machine
  | .load program output resetRegisters => m.load program output resetRegisters
  | .step => m.step.machine
  | .run limit flush fuel => (m.run limit flush fuel).machine
  | .screen operation => { m with screen := m.screen.operate operation }

def operateAll (m : Machine) (operations : List Operation) : Machine :=
  operations.foldl operate m

variable {P : Machine → Prop}

/-- What steps and changes of the screen keep is kept by a run. -/
theorem run_invariant (hstep : ∀ m, P m → P m.step.machine)
    (hscreen : ∀ m screen, P m → P { m with screen }) {m : Machine} (hm : P m)
    (limit : Option Int) (flush : Bool) (fuel : Nat) : P (m.run limit flush fuel).machine := by
  have hreaches : m.Reaches (m.run limit flush fuel).machine := Reaches.refl.run limit flush fuel
  refine hreaches.invariant hm hstep ?_
  intro m' hm'
  exact hscreen m' _ hm'

theorem operateAll_invariant (hstep : ∀ m, P m → P m.step.machine)
    (hscreen : ∀ m screen, P m → P { m with screen }) {m : Machine} (hm : P m)
    (operations : List Operation)
    (hload : ∀ program output resetRegisters, .load program output resetRegisters ∈ operations →
      ∀ m, P m → P (m.load program output resetRegisters)) :
    P (m.operateAll operations) := by
  induction operations generalizing m with
  | nil => exact hm
  | cons operation operations ih =>
      have hfirst : P (m.operate operation) := by
        cases operation with
        | load program output resetRegisters =>
            exact hload program output resetRegisters List.mem_cons_self m hm
        | step => exact hstep m hm
        | run limit flush fuel => exact run_invariant hstep hscreen hm limit flush fuel
        | screen operation => exact hscreen m _ hm
      refine ih hfirst ?_
      intro program output resetRegisters hmem
      exact hload program output resetRegisters (List.mem_cons_of_mem _ hmem)

end Machine

end RegisterMachine
