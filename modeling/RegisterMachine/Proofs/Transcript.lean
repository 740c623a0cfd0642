import RegisterMachine.Proofs.History

set_option autoImplicit false

/-! # Transcripts

What an operation shows to the outside is its `Reply`: its events, in the order in which they
happen, and what it returns or why it gives no answer. The transcript of a history has one reply for
each of its operations, and histories that follow each other have transcripts that do
(`transcript_append`). -/

namespace RegisterMachine

/-- What an operation returns. -/
inductive Answer where
  | nothing
  /-- How many steps a run has made. -/
  | steps (count : Nat)
  /-- Whether an update has flushed the screen. -/
  | updated (flushed : Bool)

/-- What an operation shows to the outside. -/
structure Reply where
  events : List Event
  outcome : Except Failure Answer

/-- What an answer becomes where there is a reason why there is none. -/
def Answer.unless (answer : Answer) : Option Failure → Except Failure Answer
  | some failure => .error failure
  | none => .ok answer

namespace Screen

def reply (screen : Screen) : Operation → Reply
  | .update =>
    ⟨screen.update.2.toList.map .flushed, .ok (.updated screen.update.2.isSome)⟩
  | operation => ⟨[], (screen.attempt operation).map fun _ => .nothing⟩

end Screen

namespace Machine

def reply (m : Machine) : Operation → Reply
  | .load .. => ⟨[.logged .initializing], .ok .nothing⟩
  | .step => ⟨m.step.events, Answer.nothing.unless m.step.failure⟩
  | .run limit flush fuel =>
    let run := m.run limit flush fuel
    ⟨run.events.toList, (Answer.steps run.steps).unless run.failure⟩
  | .screen operation => m.screen.reply operation

/-- The replies of the operations of a history, in order. -/
def transcript (m : Machine) : List Operation → List Reply
  | [] => []
  | operation :: operations => m.reply operation :: (m.operate operation).transcript operations

theorem operateAll_append (m : Machine) (before after : List Operation) :
    m.operateAll (before ++ after) = (m.operateAll before).operateAll after :=
  List.foldl_append

theorem transcript_append (m : Machine) (before after : List Operation) :
    m.transcript (before ++ after) =
      m.transcript before ++ (m.operateAll before).transcript after := by
  induction before generalizing m with
  | nil => rfl
  | cons operation before ih =>
      show m.reply operation :: (m.operate operation).transcript (before ++ after) = _
      rw [ih]
      rfl

/-- The events of a history. -/
def eventsOf (m : Machine) (operations : List Operation) : List Event :=
  (m.transcript operations).flatMap Reply.events

theorem eventsOf_append (m : Machine) (before after : List Operation) :
    m.eventsOf (before ++ after) =
      m.eventsOf before ++ (m.operateAll before).eventsOf after := by
  rw [eventsOf, transcript_append, List.flatMap_append]
  rfl

end Machine

end RegisterMachine
