import RegisterMachine.Proofs.Alignment
import RegisterMachine.Proofs.Pipeline

set_option autoImplicit false

/-! # Programs that only jump forward

In a program whose rows name only positions outside it or rows behind themselves, and which never
returns, a step that does not halt the machine goes to a later row (`step_of_forward`). The rows
that are left are the measure: there is one less of them at least after every step, so that a run
halts within as many steps as there are rows, and the instructions that it begins are some of the
rows in order, none of them twice (`advance_of_forward`). -/

namespace RegisterMachine

namespace Listing

/-! ## Forward programs -/

/-- A position is outside the program or the address of a row that is behind an address. -/
def LandsBehind (words : List Int) (address : Nat) (position : Int) : Prop :=
  0 ≤ position → position < words.length →
    ∃ later ∈ rows words, address < later.address ∧ (later.address : Int) = position

/-- All rows are whole, none returns, and all jumps go to later rows or leave the program. -/
def Forward (words : List Int) : Prop :=
  ∀ row ∈ rows words, ∃ op, row.Whole op ∧ op ≠ .ret ∧
    ∀ operand ∈ op.signature.zip row.operands, operand.1 = .address →
      LandsBehind words row.address operand.2

variable {words : List Int} {row later : Row} {rest : List Row}

theorem landsBehind_next (h : row ∈ rows words) : LandsBehind words row.address row.next := by
  intro _ hlength
  obtain ⟨later, hlater, haddress⟩ := exists_row_at_next h (by omega)
  refine ⟨later, hlater, ?_, by omega⟩
  rw [haddress, Row.next]
  omega

theorem address_of_rows (h : rows words = row :: rest) : row.address = 0 := by
  cases words with
  | nil => simp [rows, rowsFrom] at h
  | cons word words =>
      rw [rows, rowsFrom] at h
      exact (List.cons.inj h).1 ▸ rfl

/-- The rows behind a row are those that the listing has after it. -/
theorem exists_suffix_of_lt (h : row :: rest <:+ rows words) (hlater : later ∈ rows words)
    (hlt : row.address < later.address) : ∃ others, later :: others <:+ rest := by
  obtain ⟨front, hfront⟩ := h
  have hsorted : (rows words).Pairwise (·.address < ·.address) := pairwise_address_rowsFrom 0 words
  rw [← hfront] at hsorted hlater
  rcases List.mem_append.1 hlater with hbefore | hbehind
  · have hless := (List.pairwise_append.1 hsorted).2.2 later hbefore row List.mem_cons_self
    omega
  · rcases List.mem_cons.1 hbehind with rfl | hrest
    · exact absurd hlt (Nat.lt_irrefl _)
    · obtain ⟨between, others, rfl⟩ := List.append_of_mem hrest
      exact ⟨others, List.suffix_append between _⟩

end Listing

open Listing

variable {words : List Int} {row : Row} {rest : List Row} {flush : Bool}

/-! ## One step -/

namespace Machine

variable {m : Machine} {i : Instruction}

/-- An instruction of a forward program goes on behind its row. -/
theorem landsBehind_pcAfter (hforward : Forward words) (hrow : row ∈ rows words)
    (haddress : (row.address : Int) = m.pc) (hwords : row.words = i.words) :
    LandsBehind words row.address (m.pcAfter i) := by
  obtain ⟨op, hwhole, hret, hlands⟩ := hforward row hrow
  rcases m.pcAfter_cases i with hpc | hnamed | ⟨rfl, -⟩
  · have hnext : (row.next : Int) = m.pcAfter i := by
      rw [hpc, Row.next_of_words hwords, ← haddress, Nat.cast_add]
    exact hnext ▸ landsBehind_next hrow
  · rw [Instruction.zip_operands_of_whole hwhole hwords] at hnamed
    exact hlands _ hnamed rfl
  · exact absurd (Instruction.opcode_of_whole hwhole hwords).symm hret

/-- A step of a forward program halts the machine or goes to a later row. -/
theorem step_of_forward (hforward : Forward words) (hprogram : m.program = words.toArray)
    (htame : m.Tame) (hrow : row ∈ rows words) (haddress : (row.address : Int) = m.pc) :
    m.step.machine.halted = true ∨
      ∃ later ∈ rows words, row.address < later.address ∧
        (later.address : Int) = m.step.machine.pc := by
  have hanswer := htame.step_failure
  have hstepped := m.stepped
  generalize m.step = turn at hanswer hstepped
  cases hstepped with
  | resting hm => exact .inl hm
  | outside => exact .inl rfl
  | refused => exact .inl (refuse_halted hanswer)
  | offScreen => exact .inl (refuse_halted hanswer)
  | failed => cases hanswer
  | @executed row' i _ _ hrow' hwords =>
      obtain rfl := Option.some.inj (hrow'.symm.trans (row?_of_mem_rows hprogram hrow haddress))
      have hlands := landsBehind_pcAfter hforward hrow haddress hwords
      unfold effect
      split_ifs with hhalt hpc
      · exact .inl rfl
      · have hhigh : m.pcAfter i < m.program.size := hpc.2
        rw [hprogram, List.size_toArray] at hhigh
        exact .inr (hlands hpc.1 hhigh)
      · exact .inl rfl

/-- An instruction that begins is the last one that has begun, however it ends. -/
theorem step_start (hm : m.halted = false) (hpc : m.InBounds) : m.step.machine.start = m.pc := by
  have hstepped := m.stepped
  generalize m.step = turn at hstepped
  cases hstepped with
  | resting hhalted => exact absurd hhalted (by simp [hm])
  | outside _ hout => exact absurd hpc hout
  | refused => exact refuse_start _ _
  | offScreen => exact refuse_start _ _
  | failed => rfl
  | executed => exact effect_start _ _

/-- A flush changes nothing about where the machine stands. -/
theorem stepAndFlush_control (m : Machine) (flush : Bool) :
    (m.stepAndFlush flush).machine.halted = m.step.machine.halted ∧
      (m.stepAndFlush flush).machine.pc = m.step.machine.pc ∧
      (m.stepAndFlush flush).machine.start = m.step.machine.start := by
  rcases m.stepAndFlush_machine flush with hturn | hturn
  · rw [hturn]
    exact ⟨rfl, rfl, rfl⟩
  · rw [hturn]
    exact ⟨rfl, rfl, rfl⟩

end Machine

/-! ## Begun instructions -/

namespace Run

variable {run : Run} {count : Nat}

theorem advance_of_going (h : run.stopped = false) (flush : Bool) (count : Nat) :
    run.advance flush (count + 1) = (run.next flush).advance flush count := by
  rw [advance, h]
  rfl

theorem halted_of_going (h : run.stopped = false) : run.machine.halted = false :=
  (Bool.or_eq_false_iff.1 h).1

/-- The position at which the next step of a run begins an instruction, if it makes one and there is
    a word. -/
def beginning? (run : Run) : Option Int :=
  if run.stopped = false ∧ run.machine.InBounds then some run.machine.pc else none

/-- The positions at which up to a number of further steps begin instructions, in order. -/
def beginnings (flush : Bool) (count : Nat) (run : Run) : List Int :=
  (List.range count).filterMap fun made => (run.advance flush made).beginning?

theorem beginning?_of_stopped (h : run.stopped = true) : run.beginning? = none := by
  simp [beginning?, h]

theorem beginning?_of_outside (h : ¬ run.machine.InBounds) : run.beginning? = none :=
  if_neg fun hbegins => h hbegins.2

/-- The machine itself keeps where its last instruction began. -/
theorem next_start (h : run.stopped = false) (flush : Bool) :
    (run.next flush).machine.start = run.beginning?.getD run.machine.start := by
  refine (run.machine.stepAndFlush_control flush).2.2.trans ?_
  by_cases hpc : run.machine.InBounds
  · rw [Machine.step_start (halted_of_going h) hpc, beginning?, if_pos ⟨h, hpc⟩]
    rfl
  · rw [Machine.step_of_not_inBounds (halted_of_going h) hpc, beginning?_of_outside hpc]
    rfl

theorem beginnings_of_stopped (h : run.stopped = true) (flush : Bool) (count : Nat) :
    run.beginnings flush count = [] := by
  refine List.filterMap_eq_nil_iff.2 fun made _ => ?_
  rw [advance_of_stopped h, beginning?_of_stopped h]

/-- What a run begins is what its next step begins, and then what the others begin. -/
theorem beginnings_succ (h : run.stopped = false) (flush : Bool) (count : Nat) :
    run.beginnings flush (count + 1) =
      run.beginning?.toList ++ (run.next flush).beginnings flush count := by
  have hzero : run.advance flush 0 = run := rfl
  rw [beginnings, List.range_succ_eq_map, List.filterMap_cons, List.filterMap_map]
  simp only [Function.comp_def, Nat.succ_eq_add_one, advance_of_going h, hzero]
  cases run.beginning? <;> rfl

/-! ## Runs -/

theorem Smooth.stopped_eq (h : run.Smooth) : run.stopped = run.machine.halted := by
  rw [stopped, h.answered]
  exact Bool.or_false _

/-- The next moment of a run of a forward program is halted or at one of the rows that are left. -/
theorem next_of_forward (hforward : Forward words) (hrun : run.Smooth)
    (hprogram : run.machine.program = words.toArray) (hsuffix : row :: rest <:+ rows words)
    (haddress : (row.address : Int) = run.machine.pc) (flush : Bool) :
    (run.next flush).machine.halted = true ∨
      ∃ later others, later :: others <:+ rest ∧
        (later.address : Int) = (run.next flush).machine.pc := by
  have hrow : row ∈ rows words := hsuffix.subset List.mem_cons_self
  obtain ⟨hhalted, hpc, -⟩ := run.machine.stepAndFlush_control flush
  rcases Machine.step_of_forward hforward hprogram hrun.tame hrow haddress with
    hhalts | ⟨later, hlater, hlt, hposition⟩
  · exact .inl (hhalted.trans hhalts)
  · obtain ⟨others, hothers⟩ := exists_suffix_of_lt hsuffix hlater hlt
    exact .inr ⟨later, others, hothers, hposition.trans hpc.symm⟩

/-- From a row of a forward program on, a run halts within as many steps as there are rows from
    there on, and the instructions that it begins are some of these rows in order. -/
theorem advance_of_forward (hforward : Forward words) (hrun : run.Smooth)
    (hprogram : run.machine.program = words.toArray) (hgoing : run.stopped = false)
    (hsuffix : row :: rest <:+ rows words) (haddress : (row.address : Int) = run.machine.pc)
    (hcount : rest.length < count) :
    (run.advance flush count).machine.halted = true ∧
      (run.beginnings flush count).Sublist ((row :: rest).map fun row => (row.address : Int)) := by
  induction count generalizing run row rest with
  | zero => exact absurd hcount (Nat.not_lt_zero _)
  | succ count ih =>
      have hfirst : run.beginning?.toList.Sublist [(row.address : Int)] := by
        unfold beginning?
        split_ifs
        · rw [haddress]
          exact .refl _
        · exact List.nil_sublist _
      have hnext : (run.next flush).Smooth := hrun.next
      rw [advance_of_going hgoing, beginnings_succ hgoing, List.map_cons]
      cases hhalted : (run.next flush).machine.halted with
      | true =>
          have hstopped := hnext.stopped_eq.trans hhalted
          rw [advance_of_stopped hstopped, beginnings_of_stopped hstopped, List.append_nil]
          exact ⟨hhalted, hfirst.trans (List.singleton_sublist.2 List.mem_cons_self)⟩
      | false =>
          obtain ⟨later, others, hothers, hposition⟩ :=
            (next_of_forward hforward hrun hprogram hsuffix haddress flush).resolve_left
              (by simp [hhalted])
          have hreaches : run.machine.Reaches (run.next flush).machine :=
            Machine.Reaches.refl.next flush
          have hheld := (Machine.program_of_reaches hreaches).trans hprogram
          have hbehind := hothers.trans ((List.suffix_cons row rest).trans hsuffix)
          have hfewer : others.length < count := by
            have hlength := hothers.length_le
            rw [List.length_cons] at hlength
            omega
          obtain ⟨hend, hbegun⟩ :=
            ih hnext hheld (hnext.stopped_eq.trans hhalted) hbehind hposition hfewer
          exact ⟨hend, hfirst.append (hbegun.trans (hothers.sublist.map _))⟩

/-- Outside its program a machine is halted by one step, and no instruction begins. -/
theorem advance_of_outside (hgoing : run.stopped = false) (hout : ¬ run.machine.InBounds)
    (flush : Bool) :
    (run.advance flush 1).machine.halted = true ∧ run.beginnings flush 1 = [] := by
  rw [advance_of_going hgoing, beginnings_succ hgoing, beginning?_of_outside hout]
  refine ⟨(run.machine.stepAndFlush_control flush).1.trans ?_, rfl⟩
  rw [Machine.step_of_not_inBounds (halted_of_going hgoing) hout]

/-- From the beginning of a forward program on, a run halts within as many steps as there are rows,
    or after the first step if there are none. -/
theorem advance_from_beginning (hforward : Forward words) (hrun : run.Smooth)
    (hprogram : run.machine.program = words.toArray) (hgoing : run.stopped = false)
    (hpc : run.machine.pc = 0) (flush : Bool) :
    (run.advance flush (max 1 (rows words).length)).machine.halted = true ∧
      (run.beginnings flush (max 1 (rows words).length)).Sublist
        ((rows words).map fun row => (row.address : Int)) := by
  cases hrows : rows words with
  | nil =>
      have hempty : words = [] := by
        rw [← words_rows words, hrows]
        rfl
      have hout : ¬ run.machine.InBounds := by
        rintro ⟨hlow, hhigh⟩
        rw [hprogram, hempty] at hhigh
        exact absurd hlow (Int.not_le.2 hhigh)
      obtain ⟨hhalted, hnone⟩ := advance_of_outside hgoing hout flush
      exact ⟨hhalted, hnone ▸ List.nil_sublist _⟩
  | cons row rest =>
      have haddress : (row.address : Int) = run.machine.pc := by
        rw [address_of_rows hrows, hpc]
        rfl
      have hcount : rest.length < max 1 (row :: rest).length := by
        rw [List.length_cons]
        omega
      have hsuffix : row :: rest <:+ rows words := hrows ▸ List.suffix_rfl
      exact advance_of_forward hforward hrun hprogram hgoing hsuffix haddress hcount

theorem finish_of_halted {limit : Nat} (h : (run.advance flush limit).machine.halted = true)
    (fuel : Nat) : run.finish (some limit) flush fuel = run.advance flush limit := by
  have hstopped : (run.advance flush limit).stopped = true := by
    rw [stopped, h, Bool.true_or]
  rw [finish, Int.toNat_natCast, atLimit, if_pos hstopped]

end Run

/-! ## Loaded programs -/

namespace Machine

/-- A forward program halts within as many steps as it has rows, with one step for a program without
    a row, whatever the registers and the screen hold. Its rows begin execution at most once each
    and in the order of their addresses. The contents of the registers and the program's length must
    have a decimal text, as all signed 32-bit values do. -/
theorem halts_of_forward (hforward : Forward words) (hfits : ∀ word ∈ words, Word.Fits word)
    (hlength : words.length < Decimal.writableBound) {m : Machine}
    (hregisters : ∀ r, Decimal.Writable (m.registers.read r)) (output : String)
    (resetRegisters flush : Bool) (fuel : Nat) :
    let loaded := m.load words output resetRegisters
    let limit := max 1 (rows words).length
    let begun := (Run.start loaded).beginnings flush limit
    (loaded.run (some limit) flush fuel).failure = none ∧
      (loaded.run (some limit) flush fuel).machine.halted = true ∧
      begun.Sublist ((rows words).map fun row => (row.address : Int)) ∧
      begun.Pairwise (· < ·) := by
  intro loaded limit begun
  have hstart : (Run.start loaded).Smooth :=
    ⟨rfl, tame_load hregisters hfits hlength output resetRegisters⟩
  have hgoing : (Run.start loaded).stopped = false := rfl
  obtain ⟨hhalted, hbegun⟩ :=
    Run.advance_from_beginning hforward hstart rfl hgoing rfl flush
  have hsorted : ((rows words).map fun row => (row.address : Int)).Pairwise (· < ·) := by
    refine List.pairwise_map.2 ((pairwise_address_rowsFrom 0 words).imp ?_)
    exact Int.ofNat_lt.2
  have hfinish : loaded.run (some limit) flush fuel = (Run.start loaded).advance flush limit :=
    Run.finish_of_halted hhalted fuel
  rw [hfinish]
  exact ⟨(hstart.advance limit).answered, hhalted, hbegun, hsorted.sublist hbegun⟩

/-- A call over a halt that is never executed, and then past the last word. -/
theorem halts_of_forward_call :
    let words : List Int := [42, 3, 255, 31, 0, 60, 0]
    Forward words ∧
      (((fresh Screen.dot).load words "" false).run (some 4) false 0).machine.halted = true ∧
      (Run.start ((fresh Screen.dot).load words "" false)).beginnings false 4 = [0, 3, 5] := by
  intro words
  have hrows : rows words = [⟨0, 42, [3]⟩, ⟨2, 255, []⟩, ⟨3, 31, [0]⟩, ⟨5, 60, [0]⟩] := by
    simp [words, rows, rowsFrom, operandCount, Opcode.ofCode?, Opcode.all, Opcode.code,
      Opcode.arity, Opcode.signature]
  have hforward : Forward words := by
    intro row hrow
    rw [hrows] at hrow
    simp only [List.mem_cons, List.not_mem_nil, or_false] at hrow
    rcases hrow with rfl | rfl | rfl | rfl
    · refine ⟨.call, ⟨rfl, rfl, by decide⟩, by decide, fun operand hmem _ => ?_⟩
      obtain rfl := List.mem_singleton.1 hmem
      exact fun _ _ => ⟨⟨3, 31, [0]⟩, by rw [hrows]; decide, by decide, rfl⟩
    · exact ⟨.halt, ⟨rfl, rfl, by decide⟩, by decide, fun _ hmem => absurd hmem List.not_mem_nil⟩
    · refine ⟨.pop, ⟨rfl, rfl, by decide⟩, by decide, fun operand hmem hkind => ?_⟩
      obtain rfl := List.mem_singleton.1 hmem
      cases hkind
    · refine ⟨.print, ⟨rfl, rfl, by decide⟩, by decide, fun operand hmem hkind => ?_⟩
      obtain rfl := List.mem_singleton.1 hmem
      cases hkind
  have hregisters : ∀ r, Decimal.Writable ((fresh Screen.dot).registers.read r) :=
    (stores_fresh (fun _ h => h.writable) Screen.dot).registers
  have hlength : words.length < Decimal.writableBound := by decide +kernel
  have hlimit : ((max 1 (rows words).length : Nat) : Int) = 4 := by
    rw [hrows]
    rfl
  obtain ⟨-, hhalted, -⟩ :=
    halts_of_forward hforward (by decide) hlength hregisters "" false false 0
  rw [hlimit] at hhalted
  exact ⟨hforward, hhalted, by decide +kernel⟩

end Machine

end RegisterMachine
