import RegisterMachine.Execution
import RegisterMachine.Proofs.Control

set_option autoImplicit false

/-! # How an execution ends

An execution ends because its program halts, because the program counter leaves the program, with a
fault, or at its step limit. Three observers tell which: the log, the recorded fault, and the exit
code. A step that goes on logs nothing, and one that halts the machine logs once why
(`step_notices`), so there is one notice at the end of an execution (`stands_advance`), and all
three agree on the one `Conclusion` that it has (`concludes_once`). -/

namespace RegisterMachine

/-! ## The notices of a step -/

namespace Machine

/-- Why the step from one machine to another halts it, by the notice that is logged. -/
inductive HaltsWith (before after : Machine) : Notice → Prop where
  | programHalted (h : before.AboutTo .halt) (hfault : after.fault = none) :
      HaltsWith before after .programHalted
  | outOfBounds (hpc : ¬ after.InBounds) (hfault : after.fault = none) :
      HaltsWith before after .outOfBounds
  | faulted {fault : Fault} (hfault : after.fault = some fault) :
      HaltsWith before after (.faulted fault)

/-- What a step that gives an answer makes of a machine that is going: it goes on and has logged
    nothing, or it is halted and has logged why. -/
inductive Advanced (before after : Machine) (notices : List Notice) : Prop where
  | going (hm : after.halted = false) (hfault : after.fault = none) (hlog : notices = [])
  | halting {last : Notice} (hm : after.halted = true) (hlog : notices = [last])
      (hlast : before.HaltsWith after last)

theorem notices_emitted (m : Machine) (i : Instruction) : Event.notices (m.emitted i) = [] := by
  cases i <;> rfl

variable {m : Machine}

theorem effect_advanced {i : Instruction} (hm : m.halted = false) (hfault : m.fault = none)
    (h : m.AboutTo i) :
    m.Advanced (m.effect i).machine (Event.notices (m.effect i).events) := by
  unfold effect
  split_ifs with hhalt hpc
  · subst hhalt
    exact .halting rfl rfl (.programHalted h hfault)
  · exact .going hm hfault (m.notices_emitted i)
  · refine .halting rfl ?_ (.outOfBounds hpc hfault)
    rw [Event.notices_append, notices_emitted]
    rfl

theorem refuse_advanced {before : Machine} {cause : FaultCause}
    (h : (m.refuse cause).failure = none) :
    before.Advanced (m.refuse cause).machine (Event.notices (m.refuse cause).events) := by
  by_cases hwritable : cause.Writable
  · rw [refuse_of_writable m hwritable]
    exact .halting rfl rfl (.faulted rfl)
  · rw [refuse_of_not_writable m hwritable] at h
    cases h

theorem step_notices (hm : m.halted = false) (hfault : m.fault = none)
    (h : m.step.failure = none) : m.Advanced m.step.machine (Event.notices m.step.events) := by
  have hstepped := m.stepped
  generalize m.step = turn at hstepped h
  cases hstepped with
  | resting hhalted =>
      rw [hm] at hhalted
      cases hhalted
  | outside _ hpc => exact .halting rfl rfl (.outOfBounds hpc hfault)
  | refused => exact refuse_advanced h
  | offScreen => exact refuse_advanced h
  | failed => cases h
  | executed _ hpc hrow hwords =>
      exact effect_advanced hm hfault (aboutTo_of_words hm hpc hrow hwords)

/-- A flush logs nothing. -/
theorem notices_stepAndFlush (m : Machine) (flush : Bool) :
    Event.notices (m.stepAndFlush flush).events = Event.notices m.step.events := by
  have hflushed (frame : Option Frame) :
      Event.notices (frame.toList.map Event.flushed) = [] := by
    cases frame <;> rfl
  cases hflush : flush && m.step.failure.isNone with
  | true => simp [Machine.stepAndFlush, refresh, hflush, hflushed]
  | false => simp [Machine.stepAndFlush, hflush]

theorem Advanced.stepAndFlush (h : m.Advanced m.step.machine (Event.notices m.step.events))
    (flush : Bool) :
    m.Advanced (m.stepAndFlush flush).machine (Event.notices (m.stepAndFlush flush).events) := by
  rw [notices_stepAndFlush]
  rcases m.stepAndFlush_machine flush with hturn | hturn
  · rw [hturn]
    exact h
  · rw [hturn]
    cases h with
    | going hm hfault hlog => exact .going hm hfault hlog
    | halting hm hlog hlast =>
        refine .halting hm hlog ?_
        cases hlast with
        | programHalted h hfault => exact .programHalted h hfault
        | outOfBounds hpc hfault => exact .outOfBounds hpc hfault
        | faulted hfault => exact .faulted hfault

end Machine

/-! ## The notices of an execution -/

namespace Run

variable {program : List Int} {screen : Screen}

/-- How an execution stands as long as every step has given an answer: it goes on and has logged
    only its beginning, or its last step has halted the machine and has logged why. -/
inductive Stands (program : List Int) (screen : Screen) (run : Run) : Prop where
  | going (hm : run.machine.halted = false) (hfault : run.machine.fault = none)
      (hlog : Event.notices run.events.toList = [.initializing, .running program.length])
  | ended {count : Nat} {last : Notice} (hm : run.machine.halted = true)
      (hlog : Event.notices run.events.toList = [.initializing, .running program.length, last])
      (hsteps : run.steps = count + 1)
      (hlast : ((ofProgram program screen).advance true count).machine.HaltsWith run.machine last)

theorem stands_ofProgram : Stands program screen (ofProgram program screen) := by
  refine .going rfl rfl ?_
  show [Notice.initializing, .running program.toArray.size] = _
  rw [List.size_toArray]

/-- The next step of an execution that goes on. -/
theorem stands_next {count : Nat} {run : Run}
    (hrun : (ofProgram program screen).advance true count = run) (h : Stands program screen run)
    (hm : run.machine.halted = false) (hsteps : run.steps = count)
    (hfailure : (run.next true).failure = none) :
    Stands program screen (run.next true) ∧ (run.next true).steps = count + 1 := by
  cases h with
  | ended hhalted =>
      rw [hm] at hhalted
      cases hhalted
  | going _ hfault hlog =>
      -- The notices of the step come behind the two that the execution begins with.
      have hturn : (run.machine.stepAndFlush true).failure = none := hfailure
      have hcount : (run.next true).steps = count + 1 := by
        show (if (run.machine.stepAndFlush true).failure.isNone then run.steps + 1
          else run.steps) = _
        rw [hturn, hsteps]
        rfl
      have hnotices : Event.notices (run.next true).events.toList =
          [.initializing, .running program.length] ++
            Event.notices (run.machine.stepAndFlush true).events := by
        show Event.notices (run.events ++ (run.machine.stepAndFlush true).events).toList = _
        rw [Array.toList_appendList, Event.notices_append, hlog]
      rw [run.machine.stepAndFlush_failure] at hturn
      refine ⟨?_, hcount⟩
      cases (Machine.step_notices hm hfault hturn).stepAndFlush true with
      | going hm hfault hnothing =>
          rw [hnothing] at hnotices
          exact .going hm hfault hnotices
      | halting hm hone hlast =>
          rw [hone] at hnotices
          subst hrun
          exact .ended hm hnotices hcount hlast

/-- Every moment of an execution stands as it should, and each step has been counted where it can go
    on. -/
theorem stands_advance (program : List Int) (screen : Screen) (count : Nat)
    (hfailure : ((ofProgram program screen).advance true count).failure = none) :
    Stands program screen ((ofProgram program screen).advance true count) ∧
      (((ofProgram program screen).advance true count).machine.halted = false →
        ((ofProgram program screen).advance true count).steps = count) := by
  -- The steps are counted along: a machine that goes on has been counted at every one.
  induction count with
  | zero => exact ⟨stands_ofProgram, fun _ => rfl⟩
  | succ count ih =>
      rw [advance_succ] at hfailure ⊢
      generalize hrun : (ofProgram program screen).advance true count = run at ih hfailure ⊢
      split_ifs at hfailure ⊢ with hstopped
      · refine ⟨(ih hfailure).1, fun hm => ?_⟩
        exact absurd hstopped (not_stopped_iff.2 ⟨hm, hfailure⟩)
      · obtain ⟨hm, hnone⟩ := not_stopped_iff.1 hstopped
        obtain ⟨hstands, hsteps⟩ := ih hnone
        obtain ⟨hnext, hcount⟩ := stands_next hrun hstands hm (hsteps hm) hfailure
        exact ⟨hnext, fun _ => hcount⟩

end Run

/-! ## Conclusions -/

/-- The ways in which an execution ends. -/
inductive Conclusion where
  /-- The program has executed its halt instruction. -/
  | halted
  /-- The program counter has left the program. -/
  | outside
  /-- An instruction could not be carried out. -/
  | faulted (fault : Fault)
  /-- The steps are used up. -/
  | limited (limit : Int)

namespace Run

/-- After its first two notices an execution has logged one more, of a level and with a text, and it
    has an exit code. -/
def Tells (run : Run) (words : Nat) (level : Level) (text : String) (exitCode : Nat) : Prop :=
  (∃ last, Event.notices run.events.toList = [.initializing, .running words, last] ∧
    last.level = level ∧ last.text = text) ∧ run.machine.verdict.2 = exitCode

/-- What is seen of an execution that has ended in a certain way. -/
def Concludes (program : List Int) (screen : Screen) (limit : Option Int) (run : Run) :
    Conclusion → Prop
  | .halted =>
    run.Tells program.length .info "Program halted" 0 ∧ run.machine.halted = true ∧
      run.machine.fault = none ∧ ∃ count, run.steps = count + 1 ∧
        ((ofProgram program screen).advance true count).machine.AboutTo .halt
  | .outside =>
    run.Tells program.length .warning "Program counter out of bounds" 0 ∧
      run.machine.halted = true ∧ run.machine.fault = none ∧ ¬ run.machine.InBounds
  | .faulted fault =>
    run.Tells program.length .error fault.message 2 ∧ run.machine.halted = true ∧
      run.machine.fault = some fault
  | .limited steps =>
    let number := Decimal.text steps
    let position := Decimal.text run.machine.pc
    run.Tells program.length .warning s!"Step limit {number} reached at {position}" 4 ∧
      run.machine.halted = false ∧ limit = some steps ∧ run.steps = steps.toNat

variable {program : List Int} {screen : Screen} {limit : Option Int}

theorem Tells.level_eq {run : Run} {words exitCode exitCode' : Nat} {level level' : Level}
    {text text' : String} (h : run.Tells words level text exitCode)
    (h' : run.Tells words level' text' exitCode') : level = level' := by
  obtain ⟨⟨last, hlog, hlevel, -⟩, -⟩ := h
  obtain ⟨⟨last', hlog', hlevel', -⟩, -⟩ := h'
  rw [hlog] at hlog'
  cases hlog'
  exact hlevel.symm.trans hlevel'

/-- The halt flag, the recorded fault and the level of the last notice tell the ways apart. -/
theorem Concludes.unique {run : Run} {conclusion other : Conclusion}
    (h : run.Concludes program screen limit conclusion)
    (h' : run.Concludes program screen limit other) : conclusion = other := by
  cases conclusion with
  | halted =>
      cases other with
      | halted => rfl
      | outside => cases h.1.level_eq h'.1
      | faulted fault => cases h.1.level_eq h'.1
      | limited steps => cases h.1.level_eq h'.1
  | outside =>
      cases other with
      | halted => cases h.1.level_eq h'.1
      | outside => rfl
      | faulted fault => cases h.1.level_eq h'.1
      | limited steps => cases h.2.1.symm.trans h'.2.1
  | faulted fault =>
      cases other with
      | faulted fault' => rw [Option.some.inj (h.2.2.symm.trans h'.2.2)]
      | _ => cases h.1.level_eq h'.1
  | limited steps =>
      cases other with
      | halted => cases h.1.level_eq h'.1
      | outside => cases h.2.1.symm.trans h'.2.1
      | faulted fault => cases h.1.level_eq h'.1
      | limited steps' => rw [Option.some.inj (h.2.2.1.symm.trans h'.2.2.1)]

/-- An execution whose machine is halted ends in one of the first three ways. -/
theorem Stands.concludes {run : Run} (h : Stands program screen run)
    (hm : run.machine.halted = true) :
    ∃ conclusion, run.Concludes program screen limit conclusion := by
  cases h with
  | going hgoing =>
      rw [hm] at hgoing
      cases hgoing
  | ended _ hlog hsteps hlast =>
      cases hlast with
      | programHalted hhalt hfault =>
          refine ⟨.halted, ⟨⟨_, hlog, rfl, rfl⟩, ?_⟩, hm, hfault, _, hsteps, hhalt⟩
          rw [Machine.verdict_of_halted hm hfault]
          rfl
      | outOfBounds hpc hfault =>
          refine ⟨.outside, ⟨⟨_, hlog, rfl, rfl⟩, ?_⟩, hm, hfault, hpc⟩
          rw [Machine.verdict_of_halted hm hfault]
          rfl
      | faulted hfault =>
          refine ⟨.faulted _, ⟨⟨_, hlog, rfl, rfl⟩, ?_⟩, hm, hfault⟩
          rw [Machine.verdict_of_fault hm hfault]
          rfl

/-- An execution that could go on at its limit ends in the fourth way. -/
theorem Stands.concludes_limited {run : Run} {steps : Int} (h : Stands program screen run)
    (hm : run.machine.halted = false) (hsteps : run.steps = steps.toNat) :
    { run with events := run.events.push (.logged (.stepLimit steps run.machine.pc)) }.Concludes
      program screen (some steps) (.limited steps) := by
  cases h with
  | ended hhalted =>
      rw [hm] at hhalted
      cases hhalted
  | going _ _ hlog =>
      refine ⟨⟨⟨.stepLimit steps run.machine.pc, ?_, rfl, rfl⟩, ?_⟩, hm, rfl, hsteps⟩
      · rw [Array.toList_push, Event.notices_append, hlog]
        rfl
      · simp [Machine.verdict, hm, exitStepLimit]

end Run

theorem exists_concludes {program : List Int} {screen : Screen} {limit : Option Int} {fuel : Nat}
    (hanswer : (execute program screen limit fuel).failure = none)
    (hended : limit = none → (execute program screen limit fuel).machine.halted = true) :
    ∃ conclusion,
      (execute program screen limit fuel).Concludes program screen limit conclusion := by
  cases limit with
  | none =>
      obtain ⟨hstands, -⟩ := Run.stands_advance program screen fuel hanswer
      exact hstands.concludes (hended rfl)
  | some steps =>
      simp only [execute, Run.finish, Run.atLimit] at hanswer ⊢
      have hadvance := Run.stands_advance program screen steps.toNat
      generalize (Run.ofProgram program screen).advance true steps.toNat = run at hanswer hadvance ⊢
      split_ifs at hanswer ⊢ with hstopped hwritable
      · obtain ⟨hstands, -⟩ := hadvance hanswer
        refine hstands.concludes ?_
        simpa [Run.stopped, hanswer] using hstopped
      · obtain ⟨hstands, hsteps⟩ := hadvance hanswer
        have hm := (Run.not_stopped_iff.1 hstopped).1
        exact ⟨_, hstands.concludes_limited hm (hsteps hm)⟩

/-- An execution that gives an answer ends in exactly one way, and its log, the recorded fault and
    the exit code tell the same one. One that halts with its last step has not reached its limit. -/
theorem concludes_once {program : List Int} {screen : Screen} {limit : Option Int} {fuel : Nat}
    (hanswer : (execute program screen limit fuel).failure = none)
    (hended : limit = none → (execute program screen limit fuel).machine.halted = true) :
    (∃! conclusion, (execute program screen limit fuel).Concludes program screen limit conclusion) ∧
    ∀ steps, limit = some steps →
      ((Run.ofProgram program screen).advance true steps.toNat).machine.halted = true →
      ∀ steps', ¬ (execute program screen limit fuel).Concludes program screen limit
        (.limited steps') := by
  constructor
  · obtain ⟨conclusion, hconclusion⟩ := exists_concludes hanswer hended
    exact ⟨conclusion, hconclusion, fun other hother => hother.unique hconclusion⟩
  · rintro steps rfl hm steps' ⟨-, hgoing, -⟩
    have hmachine := (Machine.atLimit_machine steps
      ((Run.ofProgram program screen).advance true steps.toNat)).1
    rw [execute, Run.finish, hmachine, hm] at hgoing
    cases hgoing

/-- A halt with the last step that the limit allows. -/
theorem concludes_once_at_limit :
    let run := execute [60, 0, 255] Screen.dot (some 2) 0
    (∃! conclusion, run.Concludes [60, 0, 255] Screen.dot (some 2) conclusion) ∧
      ∀ steps, ¬ run.Concludes [60, 0, 255] Screen.dot (some 2) (.limited steps) := by
  have hm : ((Run.ofProgram [60, 0, 255] Screen.dot).advance true (2 : Int).toNat).machine.halted =
      true := by
    decide +kernel
  have hanswer : (execute [60, 0, 255] Screen.dot (some 2) 0).failure = none := by
    decide +kernel
  obtain ⟨honce, hlimit⟩ := concludes_once hanswer nofun
  exact ⟨honce, hlimit 2 rfl hm⟩

end RegisterMachine
