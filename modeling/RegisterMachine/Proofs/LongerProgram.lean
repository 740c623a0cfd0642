import RegisterMachine.Proofs.Conclusion

set_option autoImplicit false

/-! # Longer programs

Words behind a program change nothing in what a machine does before it comes to the end of the
program. A reading that misses no word reads the same with further words behind
(`extends_fetch`), and a step that neither leaves the program nor finds an instruction cut short is
the step of the longer program (`step_extend`). A run that ends inside its program is therefore the
run of every longer one (`run_of_longer_program`). -/

namespace RegisterMachine

/-! ## Reading with further words -/

namespace Instruction

/-- What a reading becomes when there are further words: it stays as it is, unless it has missed a
    word. -/
inductive Extends {α : Type} : Except Refusal α → Except Refusal α → Prop where
  | same (reading : Except Refusal α) : Extends reading reading
  | truncated (read : Nat) (reading : Except Refusal α) :
      Extends (.error ⟨.truncated, read⟩) reading

theorem Extends.bind {α β : Type} {reading longer : Except Refusal α}
    {next next' : α → Except Refusal β} (h : Extends reading longer)
    (hnext : ∀ a, Extends (next a) (next' a)) :
    Extends (reading >>= next) (longer >>= next') := by
  cases h with
  | truncated read longer => exact .truncated read _
  | same reading =>
      cases reading with
      | error refusal => exact .same _
      | ok a => exact hnext a

section

variable {word? more? : Nat → Option Int}
  (h : ∀ offset word, word? offset = some word → more? offset = some word)

include h

theorem extends_fetchWord (offset : Nat) :
    Extends (fetchWord word? offset) (fetchWord more? offset) := by
  unfold fetchWord
  cases hword : word? offset with
  | none => exact .truncated offset _
  | some word =>
      rw [h offset word hword]
      exact .same _

theorem extends_fetchRegister (offset : Nat) :
    Extends (fetchRegister word? offset) (fetchRegister more? offset) := by
  unfold fetchRegister
  cases hword : word? offset with
  | none => exact .truncated offset _
  | some word =>
      rw [h offset word hword]
      exact .same _

theorem extends_fetchOperands (op : Opcode) :
    Extends (fetchOperands word? op) (fetchOperands more? op) := by
  have hregister := extends_fetchRegister h
  have hword := extends_fetchWord h
  -- The opcodes with the same signature read their operands in the same way.
  cases op with
  | movr | add | sub =>
      exact (hregister 1).bind fun _ => (hregister 2).bind fun _ => .same _
  | movv => exact (hregister 1).bind fun _ => (hword 2).bind fun _ => .same _
  | push | pop | print => exact (hregister 1).bind fun _ => .same _
  | jp | call | slp => exact (hword 1).bind fun _ => .same _
  | jl =>
      exact (hregister 1).bind fun _ => (hregister 2).bind fun _ => (hword 3).bind fun _ => .same _
  | draw =>
      exact (hregister 1).bind fun _ => (hregister 2).bind fun _ =>
        (hregister 3).bind fun _ => .same _
  | ret | cls | halt => exact .same _

theorem extends_fetch : Extends (fetch word?) (fetch more?) := by
  unfold fetch
  cases hword : word? 0 with
  | none => exact .truncated 0 _
  | some word =>
      rw [h 0 word hword]
      dsimp only
      cases Opcode.ofCode? word with
      | none => exact .same _
      | some op => exact extends_fetchOperands h op

end

end Instruction

/-! ## A longer program -/

/-- The machine with further words behind its program. -/
def Machine.extend (m : Machine) (more : Array Int) : Machine :=
  { m with program := m.program ++ more }

/-- What has been made of a machine, with further words behind its program. -/
def Turn.extend (turn : Turn) (more : Array Int) : Turn :=
  { turn with machine := turn.machine.extend more }

/-- What ends at the end of the program: a machine that has left it, or one that is halted because
    an instruction is cut short. -/
inductive Turn.AtEnd (turn : Turn) : Prop where
  | outside (h : Notice.outOfBounds ∈ Event.notices turn.events)
  | truncated {fault : Fault} (hm : turn.machine.halted = true)
      (hfault : turn.machine.fault = some fault) (hcause : fault.cause = .truncated)

namespace Machine

variable {m : Machine}

theorem load_append (m : Machine) (program more : List Int) (output : String)
    (resetRegisters : Bool) :
    m.load (program ++ more) output resetRegisters =
      (m.load program output resetRegisters).extend more.toArray := by
  simp only [load, extend, List.append_toArray]

theorem InBounds.extend (h : m.InBounds) (more : Array Int) : (m.extend more).InBounds := by
  obtain ⟨hlow, hhigh⟩ := h
  refine ⟨hlow, ?_⟩
  simp only [Machine.extend, Array.size_append]
  omega

theorem word?_extend {offset : Nat} {word : Int} (more : Array Int)
    (h : m.word? offset = some word) : (m.extend more).word? offset = some word := by
  unfold word? at h
  split_ifs at h with hpc
  have hpc' : 0 ≤ (m.extend more).pc := hpc
  obtain ⟨hoffset, -⟩ := Array.getElem?_eq_some_iff.1 h
  rw [word?, if_pos hpc', ← h]
  exact Array.getElem?_append_left hoffset

theorem perform_extend (m : Machine) (more : Array Int) (i : Instruction) :
    (m.extend more).perform i = (m.perform i).map fun done => (done.1.extend more, done.2) := by
  -- What is tested is the same on both sides; the rest is computation.
  cases i with
  | jl left right address =>
      by_cases hless : m.registers.read left < m.registers.read right
      · have hless' : (m.extend more).registers.read left < (m.extend more).registers.read right :=
          hless
        rw [perform, perform, if_pos hless, if_pos hless']
        rfl
      · have hless' : ¬ (m.extend more).registers.read left <
            (m.extend more).registers.read right := hless
        rw [perform, perform, if_neg hless, if_neg hless']
        rfl
  | print source =>
      by_cases hwritable : Decimal.Writable (m.registers.read source)
      · have hwritable' : Decimal.Writable ((m.extend more).registers.read source) := hwritable
        simp only [perform, if_pos hwritable, if_pos hwritable']
        rfl
      · have hwritable' : ¬ Decimal.Writable ((m.extend more).registers.read source) := hwritable
        simp only [perform, if_neg hwritable, if_neg hwritable']
        rfl
  | draw x y colour =>
      by_cases hon : m.screen.OnScreen (m.registers.read x) (m.registers.read y)
      · have hon' : (m.extend more).screen.OnScreen ((m.extend more).registers.read x)
            ((m.extend more).registers.read y) := hon
        simp only [perform, if_pos hon, if_pos hon', Screen.setPixel_of_onScreen hon,
          Screen.setPixel_of_onScreen hon']
        rfl
      · have hoff' : ¬ (m.extend more).screen.OnScreen ((m.extend more).registers.read x)
            ((m.extend more).registers.read y) := hon
        simp only [perform, if_neg hon, if_neg hoff']
        rfl
  | slp milliseconds =>
      simp only [perform]
      cases Binary64.ofMilliseconds (max milliseconds 0) <;> rfl
  | _ => rfl

theorem refuse_extend (m : Machine) (more : Array Int) (cause : FaultCause) :
    (m.extend more).refuse cause = (m.refuse cause).extend more := by
  simp only [refuse, Machine.extend, Turn.extend]
  split_ifs <;> rfl

theorem refuse_truncated_atEnd (m : Machine) : (m.refuse .truncated).AtEnd := by
  have hwritable : FaultCause.truncated.Writable := nofun
  rw [refuse_of_writable m hwritable]
  exact .truncated rfl rfl rfl

theorem settle_extend (m : Machine) (more : Array Int) (events : List Event) :
    (m.extend more).settle events = (m.settle events).extend more ∨ (m.settle events).AtEnd := by
  by_cases hpc : m.InBounds
  · rw [settle, settle, if_pos hpc, if_pos (hpc.extend more)]
    exact .inl rfl
  · rw [settle, settle, if_neg hpc]
    refine .inr (.outside ?_)
    rw [Event.notices_append]
    exact List.mem_append_right _ List.mem_cons_self

/-- A step that does not end at the end of the program is the step with a longer program. -/
theorem step_extend (m : Machine) (more : Array Int) :
    (m.extend more).step = m.step.extend more ∨ m.step.AtEnd := by
  cases hm : m.halted with
  | true =>
      have hm' : (m.extend more).halted = true := hm
      rw [step_of_halted hm, step_of_halted hm']
      exact .inl rfl
  | false =>
      have hm' : (m.extend more).halted = false := hm
      by_cases hpc : m.InBounds
      · have hread : Instruction.Extends (Instruction.fetch m.word?)
            (Instruction.fetch (m.extend more).word?) :=
          Instruction.extends_fetch fun _ _ hword => word?_extend more hword
        generalize hfetch : Instruction.fetch m.word? = reading at hread
        generalize hfetch' : Instruction.fetch (m.extend more).word? = reading' at hread
        cases hread with
        | truncated read =>
            rw [step_of_refusal hm hpc hfetch]
            exact .inr (refuse_truncated_atEnd _)
        | same =>
            cases reading with
            | error refusal =>
                rw [step_of_refusal hm hpc hfetch, step_of_refusal hm' (hpc.extend more) hfetch']
                let stuck : Machine := { m with start := m.pc, pc := m.pc + refusal.read }
                exact .inl (stuck.refuse_extend more refusal.cause)
            | ok i =>
                rw [step_of_fetch hm hpc hfetch, step_of_fetch hm' (hpc.extend more) hfetch',
                  show (m.extend more).begun i = (m.begun i).extend more from rfl, perform_extend]
                cases (m.begun i).perform i with
                | ok done => exact done.1.settle_extend more done.2
                | error interruption =>
                    cases interruption with
                    | fault cause => exact .inl ((m.begun i).refuse_extend more cause)
                    | _ => exact .inl rfl
      · rw [step_of_not_inBounds hm hpc]
        exact .inr (.outside List.mem_cons_self)

/-- A flush behind a step does not look at the program. -/
theorem stepAndFlush_extend (m : Machine) (more : Array Int) (flush : Bool) :
    (m.extend more).stepAndFlush flush = (m.stepAndFlush flush).extend more ∨
      (m.stepAndFlush flush).AtEnd := by
  rcases m.step_extend more with hstep | hend
  · left
    have hfailure : (m.extend more).step.failure = m.step.failure := by rw [hstep]; rfl
    simp only [stepAndFlush, hfailure]
    split_ifs
    · rw [hstep]
      rfl
    · exact hstep
  · right
    cases hend with
    | outside h =>
        rw [← m.notices_stepAndFlush flush] at h
        exact .outside h
    | truncated hm hfault hcause =>
        rcases m.stepAndFlush_machine flush with hturn | hturn
        · rw [← hturn] at hm hfault
          exact .truncated hm hfault hcause
        · refine .truncated ?_ ?_ hcause
          · rw [hturn]
            exact hm
          · rw [hturn]
            exact hfault

end Machine

/-! ## Runs of a longer program -/

namespace Run

/-- A run has not come to the end of its program: it has not logged that the program counter is
    outside, and no instruction was cut short. -/
structure Inside (run : Run) : Prop where
  inBounds : Notice.outOfBounds ∉ Event.notices run.events.toList
  whole : ∀ fault, run.machine.fault = some fault → fault.cause ≠ .truncated

/-- A run of a longer program stands where the run of the program stands, and since some moment both
    have had the same events. -/
structure Extends (more : Array Int) (before before' : List Event) (run longer : Run) : Prop where
  machine : longer.machine = run.machine.extend more
  steps : longer.steps = run.steps
  failure : longer.failure = run.failure
  events : ∃ later, run.events.toList = before ++ later ∧ longer.events.toList = before' ++ later

variable {run longer : Run} {flush : Bool} {count : Nat}

theorem events_next (run : Run) (flush : Bool) :
    (run.next flush).events.toList =
      run.events.toList ++ (run.machine.stepAndFlush flush).events :=
  Array.toList_appendList

/-- Nothing that has been logged is lost. -/
theorem events_prefix_advance (run : Run) (flush : Bool) (count : Nat) :
    run.events.toList <+: (run.advance flush count).events.toList := by
  induction count generalizing run with
  | zero => exact List.prefix_rfl
  | succ count ih =>
      rw [advance]
      split_ifs
      · exact List.prefix_rfl
      · have hnext := ih (run.next flush)
        rw [events_next] at hnext
        exact (List.prefix_append _ _).trans hnext

/-- A run that has not come to the end of its program has made no step that does. -/
theorem not_atEnd_of_inside (h : ((run.next flush).advance flush count).Inside) :
    ¬ (run.machine.stepAndFlush flush).AtEnd := by
  intro hend
  cases hend with
  | outside hmem =>
      have hnext : Notice.outOfBounds ∈ Event.notices (run.next flush).events.toList := by
        rw [events_next, Event.notices_append]
        exact List.mem_append_right _ hmem
      have hfront := (run.next flush).events_prefix_advance flush count
      exact h.inBounds ((hfront.filterMap _).subset hnext)
  | truncated hm hfault hcause =>
      -- A step that halts the machine is the last one.
      have hstopped : (run.next flush).stopped = true := by
        rw [stopped, Bool.or_eq_true]
        exact .inl hm
      rw [advance_of_stopped hstopped] at h
      exact h.whole _ hfault hcause

namespace Extends

variable {more : Array Int} {before before' : List Event}

theorem stopped_eq (h : run.Extends more before before' longer) : longer.stopped = run.stopped := by
  rw [stopped, stopped, h.machine, h.failure]
  rfl

theorem next (h : run.Extends more before before' longer)
    (hend : ¬ (run.machine.stepAndFlush flush).AtEnd) :
    (run.next flush).Extends more before before' (longer.next flush) := by
  have hturn : longer.machine.stepAndFlush flush =
      (run.machine.stepAndFlush flush).extend more := by
    rw [h.machine]
    exact (run.machine.stepAndFlush_extend more flush).resolve_right hend
  obtain ⟨later, hevents, hevents'⟩ := h.events
  refine ⟨?_, ?_, ?_, later ++ (run.machine.stepAndFlush flush).events, ?_, ?_⟩
  · exact congrArg Turn.machine hturn
  · simp only [Run.next, hturn, h.steps, Turn.extend]
  · show (longer.machine.stepAndFlush flush).failure = _
    rw [hturn]
    rfl
  · rw [events_next, hevents, List.append_assoc]
  · rw [events_next, hevents', hturn, List.append_assoc]
    rfl

/-- As long as the run stays inside its program, the longer program makes the same steps. -/
theorem advance (h : run.Extends more before before' longer)
    (hinside : (run.advance flush count).Inside) :
    (run.advance flush count).Extends more before before' (longer.advance flush count) := by
  induction count generalizing run longer with
  | zero => exact h
  | succ count ih =>
      rw [Run.advance] at hinside
      rw [Run.advance, Run.advance, h.stopped_eq]
      split_ifs at hinside ⊢
      · exact h
      · exact ih (h.next (not_atEnd_of_inside hinside)) hinside

theorem atLimit (h : run.Extends more before before' longer) (limit : Int) :
    (run.atLimit limit).Extends more before before' (longer.atLimit limit) := by
  have hpc : longer.machine.pc = run.machine.pc := by rw [h.machine]; rfl
  rw [Run.atLimit, Run.atLimit, h.stopped_eq, hpc]
  split_ifs
  · exact h
  · obtain ⟨later, hevents, hevents'⟩ := h.events
    refine ⟨h.machine, h.steps, h.failure,
      later ++ [.logged (.stepLimit limit run.machine.pc)], ?_, ?_⟩
    · rw [Array.toList_push, hevents, List.append_assoc]
    · rw [Array.toList_push, hevents', List.append_assoc]
  · exact ⟨h.machine, h.steps, rfl, h.events⟩

end Extends

/-- At its limit a run comes to no end of its program. -/
theorem inside_of_atLimit {limit : Int} (h : (run.atLimit limit).Inside) : run.Inside := by
  refine ⟨fun hmem => h.inBounds ?_, ?_⟩
  · unfold atLimit
    split_ifs
    · exact hmem
    · rw [Array.toList_push, Event.notices_append]
      exact List.mem_append_left _ hmem
    · exact hmem
  · rw [← (Machine.atLimit_machine limit run).1]
    exact h.whole

theorem Extends.finish {more : Array Int} {before before' : List Event} {limit : Option Int}
    {fuel : Nat} (h : run.Extends more before before' longer)
    (hinside : (run.finish limit flush fuel).Inside) :
    (run.finish limit flush fuel).Extends more before before'
      (longer.finish limit flush fuel) := by
  cases limit with
  | none => exact h.advance hinside
  | some limit => exact (h.advance (inside_of_atLimit hinside)).atLimit limit

end Run

namespace Machine

/-- A run that ends inside its program, because the program halts, with a fault that is no missing
    word or at the limit, is the run of every longer program: with the same number of steps it leads
    to the same machine but for the words behind, and apart from the notice of the length of the
    program, with which the runs begin, both have the same events. -/
theorem run_of_longer_program (m : Machine) {program : List Int} (more : List Int) {output : String}
    {resetRegisters : Bool} {limit : Option Int} {flush : Bool} {fuel : Nat}
    (h : ((m.load program output resetRegisters).run limit flush fuel).Inside) :
    let run := (m.load program output resetRegisters).run limit flush fuel
    let longer := (m.load (program ++ more) output resetRegisters).run limit flush fuel
    longer.machine = run.machine.extend more.toArray ∧
      longer.steps = run.steps ∧ longer.failure = run.failure ∧
      ∃ events, run.events.toList = .logged (.running program.length) :: events ∧
        longer.events.toList = .logged (.running (program ++ more).length) :: events := by
  intro run longer
  have hstart : (Run.start (m.load program output resetRegisters)).Extends more.toArray
      [.logged (.running program.length)] [.logged (.running (program ++ more).length)]
      (Run.start (m.load (program ++ more) output resetRegisters)) := by
    refine ⟨m.load_append program more output resetRegisters, rfl, rfl, [], ?_, ?_⟩
    · simp only [Run.start, load, List.size_toArray, List.append_nil]
    · simp only [Run.start, load, List.size_toArray, List.append_nil]
  have hend := hstart.finish h
  obtain ⟨events, hevents, hevents'⟩ := hend.events
  exact ⟨hend.machine, hend.steps, hend.failure, events, hevents, hevents'⟩

/-- A jump whose second operand names no register, and the third operand of which is missing: words
    behind it that could be the operand do not matter. -/
theorem run_of_longer_program_invalid_register :
    let m := fresh Screen.dot
    let program := [11, 3, 5, 60, 3, 41, 3, 12]
    let run := (m.load program "" false).run (some 9) true 0
    let longer := (m.load (program ++ [0, 255]) "" false).run (some 9) true 0
    run.Inside ∧ run.machine.fault = some ⟨.invalidRegister 12, 5⟩ ∧
      longer.machine = run.machine.extend #[0, 255] ∧
      longer.steps = 3 := by
  intro m program run longer
  have hfault : run.machine.fault = some ⟨.invalidRegister 12, 5⟩ := by decide +kernel
  have hsteps : run.steps = 3 := by decide +kernel
  have hinside : run.Inside := by
    refine ⟨by decide +kernel, fun fault h => ?_⟩
    rw [hfault] at h
    cases h
    exact nofun
  obtain ⟨hmachine, hlonger, -⟩ := run_of_longer_program m [0, 255] hinside
  exact ⟨hinside, hfault, hmachine, hlonger.trans hsteps⟩

end Machine

end RegisterMachine
