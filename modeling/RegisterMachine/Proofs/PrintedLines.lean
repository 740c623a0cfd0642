import RegisterMachine.Proofs.Effect
import RegisterMachine.Proofs.Transcript

set_option autoImplicit false

/-! # Printed lines

What a machine prints goes to two places: a line of its own, and the end of the output that the
machine keeps. `Machine.Prints` says that both have been given the same numbers. One step prints the
number that `printing?` foretells, and nothing else does (`step_prints`); as what has been printed
adds up (`Prints.trans`), the two places agree after every history since a load
(`output_mirrors_lines`). -/

namespace RegisterMachine

/-- Flushes print nothing. -/
theorem Event.lines_flushed (frames : List Frame) : lines (frames.map flushed) = [] := by
  induction frames with
  | nil => rfl
  | cons frame frames ih => exact ih

/-- The machines that make the further steps of a run, in order. -/
def Run.passed (flush : Bool) : Nat → Run → List Machine
  | 0, _ => []
  | count + 1, run =>
    if run.stopped then [] else run.machine :: (run.next flush).passed flush count

namespace Machine

/-- The machines that make the steps of an operation, in order. -/
def passedBy (m : Machine) : Operation → List Machine
  | .load .. | .screen _ => []
  | .step => [m]
  | .run none flush fuel => (Run.start m).passed flush fuel
  | .run (some limit) flush _ => (Run.start m).passed flush limit.toNat

/-- The machines that make the steps of a history, in order. -/
def passed (m : Machine) : List Operation → List Machine
  | [] => []
  | operation :: operations => m.passedBy operation ++ (m.operate operation).passed operations

/-- The number that an instruction prints, if it is a print. -/
def numberOf (m : Machine) : Instruction → Option Int
  | .print source => some (m.registers.read source)
  | _ => none

/-- The number that the machine prints with its next step, if that is a print and gives an
    answer. -/
def printing? (m : Machine) : Option Int :=
  match m.upcoming? with
  | some i => if m.step.failure = none then m.numberOf i else none
  | none => none

theorem filterMap_printing?_cons (m : Machine) (later : List Machine) :
    (m :: later).filterMap printing? = m.printing?.toList ++ later.filterMap printing? := by
  rw [List.filterMap_cons]
  cases m.printing? <;> rfl

/-- From one machine to another some numbers are printed: each is a line, and the output has grown
    by all of them, one after the other. -/
structure Prints (m m' : Machine) (events : List Event) (numbers : List Int) : Prop where
  lines : Event.lines events = numbers.map Decimal.text
  output : m'.output = m.output ++ String.join (numbers.map Decimal.text)

variable {m m' : Machine} {events : List Event} {numbers : List Int}

namespace Prints

/-- Where there is no line and the output stays as it is, nothing is printed. -/
theorem nothing (hlines : Event.lines events = [])
    (houtput : m'.output = m.output) : m.Prints m' events [] :=
  ⟨hlines, houtput.trans String.append_empty.symm⟩

theorem trans {m'' : Machine} {later : List Event} {others : List Int}
    (h : m.Prints m' events numbers) (h' : m'.Prints m'' later others) :
    m.Prints m'' (events ++ later) (numbers ++ others) where
  lines := by rw [Event.lines_append, h.lines, h'.lines, List.map_append]
  output := by rw [h'.output, h.output, List.map_append, String.join_append, String.append_assoc]

/-- A flush prints nothing. -/
theorem refresh (h : m.Prints m' events numbers) :
    m.Prints m'.refresh.1 (events ++ m'.refresh.2) numbers where
  lines := by
    rw [Event.lines_append, h.lines, Machine.refresh, Event.lines_flushed, List.append_nil]
  output := h.output

end Prints

/-! ## One step -/

/-- A refusal prints nothing. -/
theorem refuse_prints {cause : FaultCause} (houtput : m'.output = m.output) :
    m.Prints (m'.refuse cause).machine (m'.refuse cause).events [] := by
  unfold refuse
  split_ifs <;> exact .nothing rfl houtput

/-- An effect prints the number of its instruction. -/
theorem effect_prints (m : Machine) (i : Instruction) :
    m.Prints (m.effect i).machine (m.effect i).events (m.numberOf i).toList := by
  cases i with
  | print source =>
      have houtput : (m.after (.print source)).output =
          m.output ++ String.join [Decimal.text (m.registers.read source)] := by
        rw [String.join_cons, String.join_nil, String.append_empty]
        rfl
      unfold effect
      rw [if_neg Instruction.noConfusion]
      split_ifs <;> exact ⟨rfl, houtput⟩
  | _ =>
      unfold effect
      split_ifs <;> exact .nothing rfl rfl

/-- A step prints the number of a print that it completes, and nothing if it is any other step. -/
theorem step_prints (m : Machine) :
    m.Prints m.step.machine m.step.events m.printing?.toList := by
  unfold printing?
  have hstepped := m.stepped
  generalize m.step = turn at hstepped ⊢
  cases hstepped with
  | resting hm =>
      rw [upcoming?_of_halted hm]
      exact .nothing rfl rfl
  | outside _ hpc =>
      rw [upcoming?_of_not_inBounds hpc]
      exact .nothing rfl rfl
  | refused _ hpc hrow hcause =>
      rw [upcoming?_of_offence hpc hrow hcause]
      exact refuse_prints rfl
  | offScreen hm hpc hrow hwords =>
      simp only [(aboutTo_of_words hm hpc hrow hwords).upcoming?, numberOf, ite_self]
      exact refuse_prints rfl
  | failed hm hpc hrow hwords hfails =>
      rw [(aboutTo_of_words hm hpc hrow hwords).upcoming?]
      cases hfails <;> exact .nothing rfl rfl
  | @executed _ i hm hpc hrow hwords =>
      simp only [(aboutTo_of_words hm hpc hrow hwords).upcoming?, effect_failure, if_true]
      exact m.effect_prints i

theorem stepAndFlush_prints (m : Machine) (flush : Bool) :
    m.Prints (m.stepAndFlush flush).machine (m.stepAndFlush flush).events m.printing?.toList := by
  simp only [stepAndFlush]
  split_ifs
  · exact m.step_prints.refresh
  · exact m.step_prints

/-! ## Runs -/

/-- The further steps of a run print what each of them prints. -/
theorem advance_prints (run : Run) (flush : Bool) (count : Nat) :
    ∃ events, (run.advance flush count).events.toList = run.events.toList ++ events ∧
      run.machine.Prints (run.advance flush count).machine events
        ((run.passed flush count).filterMap printing?) := by
  induction count generalizing run with
  | zero => exact ⟨[], (List.append_nil _).symm, .nothing rfl rfl⟩
  | succ count ih =>
      rw [Run.advance, Run.passed]
      split_ifs
      · exact ⟨[], (List.append_nil _).symm, .nothing rfl rfl⟩
      · obtain ⟨events, hevents, hprints⟩ := ih (run.next flush)
        have hfirst := run.machine.stepAndFlush_prints flush
        refine ⟨(run.machine.stepAndFlush flush).events ++ events, ?_, ?_⟩
        · rw [hevents, ← List.append_assoc]
          exact congrArg (· ++ events) Array.toList_appendList
        · rw [filterMap_printing?_cons]
          exact hfirst.trans hprints

theorem advance_start_prints (m : Machine) (flush : Bool) (count : Nat) :
    m.Prints ((Run.start m).advance flush count).machine
      ((Run.start m).advance flush count).events.toList
      (((Run.start m).passed flush count).filterMap printing?) := by
  obtain ⟨events, hevents, hprints⟩ := advance_prints (Run.start m) flush count
  refine ⟨?_, hprints.output⟩
  -- The only event of a run before its first step is a notice.
  rw [hevents, Event.lines_append, hprints.lines]
  rfl

/-- At its limit a run prints nothing. -/
theorem Prints.atLimit {run : Run} (h : m.Prints run.machine run.events.toList numbers)
    (limit : Int) :
    m.Prints (run.atLimit limit).machine (run.atLimit limit).events.toList numbers := by
  unfold Run.atLimit
  split_ifs
  · exact h
  · refine ⟨?_, h.output⟩
    rw [Array.toList_push, Event.lines_append, h.lines]
    exact List.append_nil _
  · exact h

theorem run_prints (m : Machine) (limit : Option Int) (flush : Bool) (fuel : Nat) :
    m.Prints (m.run limit flush fuel).machine (m.run limit flush fuel).events.toList
      ((m.passedBy (.run limit flush fuel)).filterMap printing?) := by
  cases limit with
  | none => exact m.advance_start_prints flush fuel
  | some limit => exact (m.advance_start_prints flush limit.toNat).atLimit limit

/-! ## Histories -/

theorem operate_prints {operation : Operation} (h : operation.isLoad = false) :
    m.Prints (m.operate operation) (m.reply operation).events
      ((m.passedBy operation).filterMap printing?) := by
  cases operation with
  | load => cases h
  | step =>
      rw [passedBy, filterMap_printing?_cons, List.filterMap_nil, List.append_nil]
      exact m.step_prints
  | run limit flush fuel => exact m.run_prints limit flush fuel
  | screen operation =>
      refine .nothing ?_ rfl
      cases operation with
      | update => exact Event.lines_flushed _
      | _ => rfl

theorem operateAll_prints {operations : List Operation}
    (h : ∀ operation ∈ operations, operation.isLoad = false) :
    m.Prints (m.operateAll operations) (m.eventsOf operations)
      ((m.passed operations).filterMap printing?) := by
  induction operations generalizing m with
  | nil => exact .nothing rfl rfl
  | cons operation operations ih =>
      obtain ⟨hfirst, hrest⟩ := List.forall_mem_cons.1 h
      rw [passed, List.filterMap_append]
      exact (operate_prints hfirst).trans (ih hrest)

/-- However a program has been executed since it was loaded, in steps and runs with anything done to
    the screen in between, the output is the one that it was loaded with, and behind it all the
    lines printed since, without anything between them. The lines are the decimal texts of the
    numbers printed by those steps that completed a print, each read from its register at that
    moment, and no other step adds to the lines or to the output. -/
theorem output_mirrors_lines (m : Machine) (program : List Int) (output : String)
    (resetRegisters : Bool) {later : List Operation}
    (h : ∀ operation ∈ later, operation.isLoad = false) :
    let history := .load program output resetRegisters :: later
    let lines := Event.lines (m.eventsOf history)
    (m.operateAll history).output = output ++ String.join lines ∧
      lines = ((m.passed history).filterMap printing?).map Decimal.text ∧
      ∀ moment ∈ m.passed history,
        moment.Prints moment.step.machine moment.step.events moment.printing?.toList := by
  intro history lines
  have hprints := operateAll_prints (m := m.load program output resetRegisters) h
  have hlines : lines = ((m.passed history).filterMap printing?).map Decimal.text := hprints.lines
  refine ⟨?_, hlines, fun moment _ => moment.step_prints⟩
  rw [hlines]
  exact hprints.output

/-- A program that prints in a run and in a step, is drawn over in between, and ends at a print that
    names no register. -/
theorem output_mirrors_lines_around_fault :
    let program : List Int := [11, 0, -7, 60, 0, 11, 1, 12, 60, 1, 60, 12]
    let later : List Operation :=
      [.run (some 2) true 0, .screen (.setPixel 0 0 1), .step, .step, .run none true 5, .step]
    let history := .load program "x" false :: later
    let m := (fresh Screen.dot).operateAll history
    (∀ operation ∈ later, operation.isLoad = false) ∧
      m.fault = some ⟨.invalidRegister 12, 10⟩ ∧ m.output = "x-712" ∧
      Event.lines ((fresh Screen.dot).eventsOf history) = ["-7", "12"] := by
  intro program later history m
  have hlater : ∀ operation ∈ later, operation.isLoad = false := by decide
  have hnumbers : ((fresh Screen.dot).passed history).filterMap printing? = [-7, 12] := by
    decide +kernel
  obtain ⟨houtput, hlines, -⟩ :=
    output_mirrors_lines (fresh Screen.dot) program "x" false hlater
  rw [hnumbers] at hlines
  rw [hlines] at houtput
  exact ⟨hlater, by decide +kernel, houtput.trans (by decide +kernel),
    hlines.trans (by decide +kernel)⟩

end Machine

end RegisterMachine
