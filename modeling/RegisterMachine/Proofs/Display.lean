import RegisterMachine.Proofs.Control
import RegisterMachine.Proofs.Picture
import RegisterMachine.Proofs.Transcript

set_option autoImplicit false

/-! # The display as a sink

Of its screen a machine reads nothing but the dimensions. On another screen of the same size every
instruction and every step therefore do what they did before, except to the screen
(`perform_withScreen`, `step_withScreen`). Two machines that agree but for their screens keep
agreeing, however often either screen is flushed or changed from outside between the calls, and
their calls have the same replies but for the frames (`agrees_of_same_calls`). -/

namespace RegisterMachine

/-! ## Another screen of the same size -/

/-- The machine with another screen. -/
def Machine.withScreen (m : Machine) (screen : Screen) : Machine :=
  { m with screen }

/-- What has been made of a machine, with another screen. -/
def Turn.withScreen (turn : Turn) (screen : Screen) : Turn :=
  { turn with machine := turn.machine.withScreen screen }

namespace Machine

variable {m m' : Machine} {screen : Screen}

theorem settle_withScreen (m : Machine) (screen : Screen) (events : List Event) :
    (m.withScreen screen).settle events = (m.settle events).withScreen screen := by
  by_cases hpc : m.InBounds
  · have hpc' : (m.withScreen screen).InBounds := hpc
    rw [settle, settle, if_pos hpc, if_pos hpc']
    rfl
  · have hpc' : ¬ (m.withScreen screen).InBounds := hpc
    rw [settle, settle, if_neg hpc, if_neg hpc']
    rfl

theorem refuse_withScreen (m : Machine) (screen : Screen) (cause : FaultCause) :
    (m.withScreen screen).refuse cause = (m.refuse cause).withScreen screen := by
  unfold refuse
  split_ifs <;> rfl

theorem perform_withScreen (h : screen.SameSize m.screen) (i : Instruction) :
    (m.withScreen screen).perform i =
      (m.perform i).map fun done =>
        (done.1.withScreen ((m.withScreen screen).screenAfter i), done.2) := by
  -- Only the instructions that test something are not computed at once.
  cases i with
  | jl left right address =>
      by_cases hless : m.registers.read left < m.registers.read right
      · have hless' : (m.withScreen screen).registers.read left <
            (m.withScreen screen).registers.read right := hless
        rw [perform, perform, if_pos hless, if_pos hless']
        rfl
      · have hless' : ¬ (m.withScreen screen).registers.read left <
            (m.withScreen screen).registers.read right := hless
        rw [perform, perform, if_neg hless, if_neg hless']
        rfl
  | print source =>
      by_cases hwritable : Decimal.Writable (m.registers.read source)
      · have hwritable' : Decimal.Writable ((m.withScreen screen).registers.read source) :=
          hwritable
        simp only [perform, if_pos hwritable, if_pos hwritable']
        rfl
      · have hwritable' : ¬ Decimal.Writable ((m.withScreen screen).registers.read source) :=
          hwritable
        simp only [perform, if_neg hwritable, if_neg hwritable']
        rfl
  | draw x y colour =>
      by_cases hon : m.screen.OnScreen (m.registers.read x) (m.registers.read y)
      · have hon' : (m.withScreen screen).screen.OnScreen
            ((m.withScreen screen).registers.read x) ((m.withScreen screen).registers.read y) :=
          h.onScreen_iff.2 hon
        simp only [perform, if_pos hon, if_pos hon', Screen.setPixel_of_onScreen hon,
          Screen.setPixel_of_onScreen hon']
        rfl
      · have hon' : ¬ (m.withScreen screen).screen.OnScreen
            ((m.withScreen screen).registers.read x) ((m.withScreen screen).registers.read y) :=
          mt h.onScreen_iff.1 hon
        simp only [perform, if_neg hon, if_neg hon']
        rfl
  | slp milliseconds =>
      simp only [perform]
      cases Binary64.ofMilliseconds (max milliseconds 0) <;> rfl
  | _ => rfl

/-- On another screen of the same size, a step does the same but to the screen. -/
theorem step_withScreen (h : screen.SameSize m.screen) :
    ∃ after, (m.withScreen screen).step = m.step.withScreen after := by
  cases hm : m.halted with
  | true =>
      have hm' : (m.withScreen screen).halted = true := hm
      rw [step_of_halted hm, step_of_halted hm']
      exact ⟨screen, rfl⟩
  | false =>
      have hm' : (m.withScreen screen).halted = false := hm
      by_cases hpc : m.InBounds
      · have hpc' : (m.withScreen screen).InBounds := hpc
        cases hfetch : Instruction.fetch m.word? with
        | error refusal =>
            rw [step_of_refusal hm hpc hfetch, step_of_refusal hm' hpc' hfetch]
            let stuck : Machine := { m with start := m.pc, pc := m.pc + refusal.read }
            exact ⟨screen, stuck.refuse_withScreen screen refusal.cause⟩
        | ok i =>
            have hbegun : screen.SameSize (m.begun i).screen := h
            have hperform := perform_withScreen hbegun i
            rw [step_of_fetch hm hpc hfetch, step_of_fetch hm' hpc' hfetch,
              show (m.withScreen screen).begun i = (m.begun i).withScreen screen from rfl, hperform]
            cases (m.begun i).perform i with
            | ok done => exact ⟨_, done.1.settle_withScreen _ done.2⟩
            | error interruption =>
                cases interruption with
                | fault cause => exact ⟨screen, (m.begun i).refuse_withScreen screen cause⟩
                | _ => exact ⟨screen, rfl⟩
      · have hpc' : ¬ (m.withScreen screen).InBounds := hpc
        rw [step_of_not_inBounds hm hpc, step_of_not_inBounds hm' hpc']
        exact ⟨screen, rfl⟩

/-! ## Machines that agree -/

/-- Two machines agree on everything but their screens, which have the same dimensions. -/
structure Agrees (m m' : Machine) : Prop where
  pc : m.pc = m'.pc
  start : m.start = m'.start
  registers : m.registers = m'.registers
  stack : m.stack = m'.stack
  program : m.program = m'.program
  halted : m.halted = m'.halted
  output : m.output = m'.output
  fault : m.fault = m'.fault
  size : m.screen.SameSize m'.screen

namespace Agrees

theorem refl (m : Machine) : m.Agrees m :=
  ⟨rfl, rfl, rfl, rfl, rfl, rfl, rfl, rfl, rfl, rfl⟩

theorem symm (h : m.Agrees m') : m'.Agrees m :=
  ⟨h.pc.symm, h.start.symm, h.registers.symm, h.stack.symm, h.program.symm, h.halted.symm,
    h.output.symm, h.fault.symm, h.size.symm⟩

theorem trans {m'' : Machine} (h : m.Agrees m') (h' : m'.Agrees m'') : m.Agrees m'' :=
  ⟨h.pc.trans h'.pc, h.start.trans h'.start, h.registers.trans h'.registers,
    h.stack.trans h'.stack, h.program.trans h'.program, h.halted.trans h'.halted,
    h.output.trans h'.output, h.fault.trans h'.fault, h.size.trans h'.size⟩

theorem eq_withScreen (h : m.Agrees m') : m' = m.withScreen m'.screen := by
  obtain ⟨hpc, hstart, hregisters, hstack, hprogram, hhalted, houtput, hfault, -⟩ := h
  cases m
  cases m'
  simp only at *
  subst_vars
  rfl

/-- Changes of the screens do not matter. -/
theorem withScreen (h : m.Agrees m') {screen screen' : Screen}
    (hscreen : screen.SameSize m.screen) (hscreen' : screen'.SameSize m'.screen) :
    (m.withScreen screen).Agrees (m'.withScreen screen') :=
  { h with size := (hscreen.trans h.size).trans hscreen'.symm }

end Agrees

end Machine

/-! ## Steps and runs that agree -/

/-- What happens besides the flushes. -/
def Event.withoutFrames (events : List Event) : List Event :=
  events.filter fun
    | .flushed _ => false
    | _ => true

@[simp] theorem Event.withoutFrames_append (before after : List Event) :
    withoutFrames (before ++ after) = withoutFrames before ++ withoutFrames after := by
  rw [withoutFrames, List.filter_append]
  rfl

theorem Event.withoutFrames_flushed (frames : List Frame) :
    withoutFrames (frames.map flushed) = [] := by
  induction frames with
  | nil => rfl
  | cons frame frames ih => exact ih

/-- What has been made of two machines agrees, but for the flushed frames. -/
structure Turn.Agrees (turn turn' : Turn) : Prop where
  machine : turn.machine.Agrees turn'.machine
  events : Event.withoutFrames turn.events = Event.withoutFrames turn'.events
  failure : turn.failure = turn'.failure

theorem Turn.Agrees.symm {turn turn' : Turn} (h : turn.Agrees turn') : turn'.Agrees turn :=
  ⟨h.machine.symm, h.events.symm, h.failure.symm⟩

theorem Turn.Agrees.trans {turn turn' turn'' : Turn} (h : turn.Agrees turn')
    (h' : turn'.Agrees turn'') : turn.Agrees turn'' :=
  ⟨h.machine.trans h'.machine, h.events.trans h'.events, h.failure.trans h'.failure⟩

/-- Two runs agree, but for the flushed frames. -/
structure Run.Agrees (run run' : Run) : Prop where
  machine : run.machine.Agrees run'.machine
  steps : run.steps = run'.steps
  events : Event.withoutFrames run.events.toList = Event.withoutFrames run'.events.toList
  failure : run.failure = run'.failure

namespace Machine

variable {m m' : Machine}

theorem sameSize_step (m : Machine) : m.step.machine.screen.SameSize m.screen :=
  sameSize_of_reaches Reaches.refl.plainStep

theorem Agrees.step (h : m.Agrees m') : m.step.Agrees m'.step := by
  obtain ⟨after, hstep⟩ := step_withScreen h.size.symm
  rw [← h.eq_withScreen] at hstep
  have hsize : m.step.machine.screen.SameSize m'.step.machine.screen :=
    (m.sameSize_step.trans h.size).trans m'.sameSize_step.symm
  rw [hstep] at hsize ⊢
  exact ⟨⟨rfl, rfl, rfl, rfl, rfl, rfl, rfl, rfl, hsize⟩, rfl, rfl⟩

/-- A flush behind a step shows in the frames and on the screen only. -/
theorem stepAndFlush_agrees (m : Machine) (flush : Bool) :
    (m.stepAndFlush flush).Agrees m.step := by
  have hstep : m.step.Agrees m.step := (Agrees.refl m).step
  simp only [stepAndFlush]
  split_ifs
  · refine ⟨hstep.machine.withScreen (Screen.sameSize_update _) ⟨rfl, rfl⟩, ?_, rfl⟩
    rw [Event.withoutFrames_append, refresh, Event.withoutFrames_flushed, List.append_nil]
  · exact hstep

theorem Agrees.stepAndFlush (h : m.Agrees m') (flush flush' : Bool) :
    (m.stepAndFlush flush).Agrees (m'.stepAndFlush flush') :=
  ((m.stepAndFlush_agrees flush).trans h.step).trans (m'.stepAndFlush_agrees flush').symm

end Machine

namespace Run.Agrees

variable {run run' : Run}

theorem start {m m' : Machine} (h : m.Agrees m') : (Run.start m).Agrees (Run.start m') := by
  refine ⟨h, rfl, ?_, rfl⟩
  rw [Run.start, Run.start, h.program]

theorem stopped (h : run.Agrees run') : run.stopped = run'.stopped := by
  rw [Run.stopped, Run.stopped, h.machine.halted, h.failure]

theorem next (h : run.Agrees run') (flush flush' : Bool) :
    (run.next flush).Agrees (run'.next flush') := by
  have hturn := h.machine.stepAndFlush flush flush'
  refine ⟨hturn.machine, ?_, ?_, hturn.failure⟩
  · simp only [Run.next, hturn.failure, h.steps]
  · simp only [Run.next, Array.toList_appendList, Event.withoutFrames_append, h.events,
      hturn.events]

theorem advance (h : run.Agrees run') (flush flush' : Bool) (count : Nat) :
    (run.advance flush count).Agrees (run'.advance flush' count) := by
  induction count generalizing run run' with
  | zero => exact h
  | succ count ih =>
      rw [Run.advance, Run.advance, h.stopped]
      split_ifs
      · exact h
      · exact ih (h.next flush flush')

theorem atLimit (h : run.Agrees run') (limit : Int) :
    (run.atLimit limit).Agrees (run'.atLimit limit) := by
  unfold Run.atLimit
  rw [h.stopped, h.machine.pc]
  split_ifs
  · exact h
  · refine ⟨h.machine, h.steps, ?_, h.failure⟩
    simp only [Array.toList_push, Event.withoutFrames_append, h.events]
  · exact ⟨h.machine, h.steps, h.events, rfl⟩

theorem finish (h : run.Agrees run') (limit : Option Int) (flush flush' : Bool) (fuel : Nat) :
    (run.finish limit flush fuel).Agrees (run'.finish limit flush' fuel) := by
  cases limit with
  | none => exact h.advance flush flush' fuel
  | some limit => exact (h.advance flush flush' limit.toNat).atLimit limit

end Run.Agrees

/-! ## Histories that agree -/

/-- The reply, but for the flushed frames. -/
def Reply.withoutFrames (reply : Reply) : Reply :=
  { reply with events := Event.withoutFrames reply.events }

theorem Screen.sameSize_of_attempt {screen after : Screen} {operation : Screen.Operation}
    (h : screen.attempt operation = .ok after) : after.SameSize screen := by
  cases operation with
  | setPixel x y index =>
      simp only [attempt, setPixel] at h
      split at h
      · cases h
        exact ⟨rfl, rfl⟩
      · cases h
  | setPalette colours =>
      simp only [attempt, setPalette] at h
      split_ifs at h
      cases h
      exact ⟨rfl, rfl⟩
  | update =>
      cases h
      exact screen.sameSize_update
  | clear | setClock reading | close =>
      cases h
      exact ⟨rfl, rfl⟩

/-- No operation changes the dimensions of a screen. -/
theorem Screen.sameSize_operate (screen : Screen) (operation : Screen.Operation) :
    (screen.operate operation).SameSize screen := by
  unfold operate
  split
  · rename_i after hafter
    exact sameSize_of_attempt hafter
  · exact ⟨rfl, rfl⟩

namespace Machine

variable {m m' : Machine}

/-- The call that an operation makes to the machine, without its flushes; an operation on the screen
    makes none. -/
def Operation.call? : Operation → Option Operation
  | .screen _ => none
  | .run limit _ fuel => some (.run limit false fuel)
  | operation => some operation

/-- The replies to the calls of a history, but for the flushed frames. -/
def callReplies (m : Machine) : List Operation → List Reply
  | [] => []
  | operation :: operations =>
    let later := (m.operate operation).callReplies operations
    if operation.call?.isSome then (m.reply operation).withoutFrames :: later else later

theorem Agrees.call (h : m.Agrees m') {operation call : Operation}
    (hcall : operation.call? = some call) :
    (m.operate operation).Agrees (m'.operate call) ∧
      (m.reply operation).withoutFrames = (m'.reply call).withoutFrames := by
  cases operation with
  | load program output resetRegisters =>
      cases hcall
      refine ⟨⟨rfl, h.start, ?_, rfl, rfl, rfl, rfl, rfl, h.size⟩, rfl⟩
      simp only [operate, load, h.registers]
  | step =>
      cases hcall
      have hstep := h.step
      refine ⟨hstep.machine, ?_⟩
      simp only [reply, Reply.withoutFrames, hstep.events, hstep.failure]
  | run limit flush fuel =>
      cases hcall
      have hrun := (Run.Agrees.start h).finish limit flush false fuel
      refine ⟨hrun.machine, ?_⟩
      simp only [reply, run, Reply.withoutFrames, hrun.events, hrun.failure, hrun.steps]
  | screen operation => cases hcall

/-- Leaving out all operations on the screen and all flushes changes nothing else. -/
theorem Agrees.calls (h : m.Agrees m') (operations : List Operation) :
    (m.operateAll operations).Agrees (m'.operateAll (operations.filterMap Operation.call?)) ∧
      m.callReplies operations = m'.callReplies (operations.filterMap Operation.call?) := by
  induction operations generalizing m m' with
  | nil => exact ⟨h, rfl⟩
  | cons operation operations ih =>
      cases hcall : operation.call? with
      | none =>
          have hoperate : (m.operate operation).Agrees m' := by
            cases operation with
            | screen operation =>
                exact h.withScreen (m.screen.sameSize_operate operation) ⟨rfl, rfl⟩
            | _ => cases hcall
          rw [List.filterMap_cons_none hcall]
          obtain ⟨hmachine, hreplies⟩ := ih hoperate
          refine ⟨hmachine, ?_⟩
          simp only [callReplies, hcall, hreplies, Option.isSome_none, Bool.false_eq_true, if_false]
      | some call =>
          have hself : call.call? = some call := by
            cases operation <;> cases hcall <;> rfl
          obtain ⟨hoperate, hreply⟩ := h.call hcall
          rw [List.filterMap_cons_some hcall]
          obtain ⟨hmachine, hreplies⟩ := ih hoperate
          refine ⟨hmachine, ?_⟩
          simp only [callReplies, hcall, hself, hreply, hreplies, Option.isSome_some, if_true]

/-- Machines that agree but for screens of the same size keep agreeing under the same calls, and the
    calls have the same replies but for the frames: it does not matter which runs are flushed, nor
    which operations on the screens come between the calls. -/
theorem agrees_of_same_calls (h : m.Agrees m') {operations operations' : List Operation}
    (hcalls : operations.filterMap Operation.call? = operations'.filterMap Operation.call?) :
    (m.operateAll operations).Agrees (m'.operateAll operations') ∧
      m.callReplies operations = m'.callReplies operations' := by
  obtain ⟨hmachine, hreplies⟩ := h.calls operations
  obtain ⟨hmachine', hreplies'⟩ := (Agrees.refl m').calls operations'
  rw [hcalls] at hmachine hreplies
  exact ⟨hmachine.trans hmachine'.symm, hreplies.trans hreplies'.symm⟩

/-- A program that draws and prints, once with flushes and on a screen that is drawn on, closed and
    given a palette that is too short, and once on a screen that is left alone. -/
theorem agrees_of_same_calls_drawing :
    let program : List Int := [11, 0, 0, 61, 0, 0, 0, 60, 0, 255]
    let m := (fresh Screen.dot).load program "" false
    let m' := (fresh (Screen.dot.plot 0 0 7).close).load program "" false
    let operations : List Operation :=
      [.screen (.setPixel 0 0 9), .run (some 2) true 0, .screen .close, .screen (.setPalette []),
        .screen (.setClock 40), .run none true 5]
    let operations' : List Operation := [.run (some 2) false 0, .run none false 5]
    (m.operateAll operations).Agrees (m'.operateAll operations') ∧
      m.callReplies operations = m'.callReplies operations' ∧
      (m.operateAll operations).output = "0" ∧ (m.operateAll operations).screen.flushes = 4 ∧
      (m'.operateAll operations').screen.flushes = 0 := by
  intro program m m' operations operations'
  have hagrees : m.Agrees m' := ⟨rfl, rfl, rfl, rfl, rfl, rfl, rfl, rfl, rfl, rfl⟩
  have hcalls : operations.filterMap Operation.call? = operations'.filterMap Operation.call? := rfl
  obtain ⟨hmachine, hreplies⟩ := agrees_of_same_calls hagrees hcalls
  exact ⟨hmachine, hreplies, by decide +kernel, by decide +kernel, by decide +kernel⟩

end Machine

end RegisterMachine
