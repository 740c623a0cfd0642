import RegisterMachine.Proofs.Display
import RegisterMachine.Screen.Render

set_option autoImplicit false

/-! # Requests to a screen

A screen is asked to change, or to be read, while its clock goes on or back. `Screen.serve` is what
becomes of one such request: the screen after it, the frames that are handed over, and what is
returned. A request that fails leaves no trace (`serve_of_failure`). A history of requests has one
`Moment` for each of them, the request with the screen that it was made to. -/

namespace RegisterMachine.Screen

/-- What can be asked of a screen. -/
inductive Request where
  | operation (operation : Operation)
  | getPixel (x y : Int)
  | frame
  | renderText
  | isOpen

/-- What a request returns. -/
inductive Response where
  /-- The answer to an operation. -/
  | answer (answer : Answer)
  | byte (byte : UInt8)
  | colours (colours : List Int)
  | text (text : String)
  | flag (isOpen : Bool)

/-- What becomes of a request. -/
structure Service where
  /-- The screen after the request. -/
  screen : Screen
  /-- The frames that are handed over. -/
  frames : List Frame
  outcome : Except Failure Response

/-- Whether the answer is that an update has flushed. -/
def Service.hasFlushed (service : Service) : Bool :=
  match service.outcome with
  | .ok (.answer (.updated flushed)) => flushed
  | _ => false

/-- Serves a request. -/
def serve (screen : Screen) : Request → Service
  | .operation operation =>
    let reply := screen.reply operation
    ⟨screen.operate operation, Event.frames reply.events, reply.outcome.map .answer⟩
  | .getPixel x y => ⟨screen, [], (screen.getPixel x y).map .byte⟩
  | .frame => ⟨screen, [], .ok (.colours screen.frame.colours)⟩
  | .renderText => ⟨screen, [], .ok (.text screen.renderText)⟩
  | .isOpen => ⟨screen, [], .ok (.flag screen.isOpen)⟩

def serveAll (screen : Screen) (requests : List Request) : Screen :=
  requests.foldl (fun screen request => (screen.serve request).screen) screen

theorem serveAll_append (screen : Screen) (before after : List Request) :
    screen.serveAll (before ++ after) = (screen.serveAll before).serveAll after :=
  List.foldl_append

/-! ## Frames -/

/-- The colour that stands in the palette at the place of a byte. -/
def lookUpColour (screen : Screen) (byte : UInt8) : Option Int :=
  screen.palette.toList[byte.toNat]?

theorem lookUpColour_eq (screen : Screen) (byte : UInt8) :
    screen.lookUpColour byte = some (screen.palette.colour byte) := by
  have hplace : byte.toNat < screen.palette.toList.length := by
    rw [Vector.length_toList]
    exact byte.toNat_lt
  rw [lookUpColour, List.getElem?_eq_getElem hplace]
  rfl

/-- A frame shows a screen: it has its dimensions and, for each byte of the framebuffer in order,
    the colour that stands in the palette at the byte's place. -/
structure ShownBy (screen : Screen) (frame : Frame) : Prop where
  width : frame.width = screen.width
  height : frame.height = screen.height
  colours : screen.framebuffer.toList.mapM screen.lookUpColour = some frame.colours

theorem shownBy_frame (screen : Screen) : screen.ShownBy screen.frame where
  width := rfl
  height := rfl
  colours := by
    rw [funext screen.lookUpColour_eq]
    exact List.mapM_pure

/-! ## Moments -/

/-- A request and the screen that it is made to. -/
structure Moment where
  screen : Screen
  request : Request

def Moment.service (moment : Moment) : Service :=
  moment.screen.serve moment.request

/-- The moments of a history, in order. -/
def moments (screen : Screen) : List Request → List Moment
  | [] => []
  | request :: requests =>
    ⟨screen, request⟩ :: (screen.serve request).screen.moments requests

theorem moments_append (screen : Screen) (before after : List Request) :
    screen.moments (before ++ after) =
      screen.moments before ++ (screen.serveAll before).moments after := by
  induction before generalizing screen with
  | nil => rfl
  | cons request before ih =>
      show ⟨screen, request⟩ :: (screen.serve request).screen.moments (before ++ after) = _
      rw [ih]
      rfl

variable {screen : Screen}

/-- A new screen has what it was made with, and no flushes behind it. -/
theorem created {width height refreshMs : Int} {memory : Nat}
    (h : create width height refreshMs memory = .ok screen) :
    screen.width = width ∧ screen.height = height ∧
      Binary64.ofMilliseconds refreshMs = some screen.refreshInterval ∧
      screen.lastFlush = none ∧ screen.flushes = 0 := by
  unfold create at h
  split at h
  · cases h
  · cases h
  · rename_i hinterval
    cases h
    exact ⟨rfl, rfl, hinterval, rfl, rfl⟩

/-- Where something is read from a new screen, there is one. -/
theorem exists_created {β : Type} {read : Screen → β} {value : β} {width height refreshMs : Int}
    {memory : Nat} (h : (create width height refreshMs memory).toOption.map read = some value) :
    ∃ screen, create width height refreshMs memory = .ok screen ∧ read screen = value := by
  cases hcreate : create width height refreshMs memory with
  | error failure =>
      rw [hcreate] at h
      cases h
  | ok screen =>
      rw [hcreate] at h
      exact ⟨screen, rfl, Option.some.inj h⟩

/-! ## Operations -/

/-- The frame of an update is handed over, and that is what the answer says. -/
theorem serve_update (screen : Screen) :
    screen.serve (.operation .update) =
      ⟨screen.update.1, screen.update.2.toList,
        .ok (.answer (.updated screen.update.2.isSome))⟩ := by
  rw [serve, reply]
  cases screen.update.2 <;> rfl

/-- Another operation hands nothing over and returns nothing. -/
theorem serve_operation {operation : Operation} (h : operation ≠ .update) :
    screen.serve (.operation operation) =
      ⟨screen.operate operation, [], (screen.attempt operation).map fun _ => .answer .nothing⟩ := by
  cases operation with
  | update => exact absurd rfl h
  | _ =>
      simp only [serve, reply]
      cases screen.attempt _ <;> rfl

/-- A request that fails changes nothing and hands nothing over. -/
theorem serve_of_failure {request : Request} {failure : Failure}
    (h : (screen.serve request).outcome = .error failure) :
    (screen.serve request).screen = screen ∧ (screen.serve request).frames = [] := by
  cases request with
  | operation operation =>
      by_cases hupdate : operation = .update
      · subst hupdate
        rw [serve_update] at h
        cases h
      · rw [serve_operation hupdate] at h ⊢
        refine ⟨?_, rfl⟩
        cases hattempt : screen.attempt operation with
        | error failure => simp only [operate, hattempt]
        | ok after =>
            rw [hattempt] at h
            cases h
  | getPixel | frame | renderText | isOpen => exact ⟨rfl, rfl⟩

theorem sameSize_serve (screen : Screen) (request : Request) :
    (screen.serve request).screen.SameSize screen := by
  cases request with
  | operation operation => exact screen.sameSize_operate operation
  | _ => exact ⟨rfl, rfl⟩

/-- No request changes the dimensions of a screen. -/
theorem sameSize_serveAll (screen : Screen) (history : List Request) :
    (screen.serveAll history).SameSize screen := by
  induction history generalizing screen with
  | nil => exact ⟨rfl, rfl⟩
  | cons request history ih => exact (ih _).trans (screen.sameSize_serve request)

end RegisterMachine.Screen
