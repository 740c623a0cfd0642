import RegisterMachine.Command.Emulate
import RegisterMachine.Proofs.Containment
import RegisterMachine.Proofs.Rendering

set_option autoImplicit false

/-! # From source text to exit code

A source text that can be assembled gives one word per token, in order and each in the range of its
place (`resolves_of_assemble`). All of them are signed 32-bit values, too small for a sleep that is
too long and for a fault without a message (`not_escapes_of_fits`). So every step of such a program
gives an answer, however its lines are put together (`Tame.step`). A run can only fail for the
notice that its step limit is used up, if the limit is too long to be written
(`Smooth.finish_failure`), as none on the command line is (`writable_maxSteps`). -/

namespace RegisterMachine

namespace Assembly

/-! ## The words of tokens -/

/-- A word is what a token in its place is encoded as, and lies in the range of the place. -/
structure Resolves (token : Place × Token) (word : Int) : Prop where
  encodes : Encodes (token.1, canonicalToken token.2) word
  operation : token.1 = .operation → word = -1 ∨ ∃ op : Opcode, word = op.code
  register : token.1 = .operand → looksLikeRegister token.2 = true → -1 ≤ word ∧ word ≤ 9
  fits : Word.Fits word

theorem operationWord_eq (name : Token) :
    operationWord name = -1 ∨ ∃ op : Opcode, operationWord name = op.code := by
  unfold operationWord
  cases Opcode.ofSpelling? (Text.upper name) with
  | none => exact .inl rfl
  | some op => exact .inr ⟨op, rfl⟩

theorem registerWord_bounds (name : Token) : -1 ≤ registerWord name ∧ registerWord name ≤ 9 := by
  unfold registerWord
  cases Register.ofSpelling? name with
  | none => decide
  | some r =>
      have hindex : r.val < 10 := r.isLt
      dsimp only
      omega

theorem fits_of_parseLiteral {text : List Char} {word : Int} (h : parseLiteral text = .ok word) :
    Word.Fits word := by
  have hunresolved : Word.Fits unresolved := by decide
  simp only [parseLiteral] at h
  split_ifs at h with hdigits hlong hvalue
  · cases h
    exact hunresolved
  · cases h
    exact hvalue.1
  · cases h
    exact hunresolved

theorem fits_of_encodeToken {place : Place} {token : Token} {word : Int}
    (h : encodeToken place token = .ok word) : Word.Fits word := by
  cases place with
  | operation =>
      cases h
      rcases operationWord_eq token with hword | ⟨op, hword⟩
      · rw [hword]
        decide
      · rw [hword]
        cases op <;> decide
  | operand =>
      simp only [encodeToken] at h
      split_ifs at h with hlooks
      · cases h
        have hbounds := registerWord_bounds (token.takeWhile (· ≠ ','))
        unfold Word.Fits
        omega
      · exact fits_of_parseLiteral h

/-- An operand in the form of a register keeps it when it is put into the form that is encoded. -/
theorem looksLikeRegister_canonicalToken {token : Token} (h : looksLikeRegister token = true) :
    looksLikeRegister (canonicalToken token) = true := by
  obtain ⟨rest, rfl⟩ : ∃ rest, token = 'R' :: rest := by
    simpa [looksLikeRegister, List.head?_eq_some_iff] using h
  have hseparator : Text.isSeparator 'R' = false := by decide
  rw [canonicalToken, Text.trim, List.dropWhile_cons_of_neg (by simp [hseparator]),
    Text.dropTrailing_cons_of_false hseparator]
  rfl

theorem resolves_of_encodes {token : Place × Token} {word : Int}
    (h : Encodes (token.1, canonicalToken token.2) word) : Resolves token word := by
  obtain ⟨place, token⟩ := token
  refine ⟨h, ?_, ?_, fits_of_encodeToken h⟩
  · rintro rfl
    cases h
    exact operationWord_eq _
  · rintro rfl hlooks
    simp only [Encodes, encodeToken, if_pos (looksLikeRegister_canonicalToken hlooks)] at h
    cases h
    exact registerWord_bounds _

/-- Tokens that are encoded all together are encoded one by one. -/
theorem encodes_of_outcome {tokens : List (Place × Token)} {words : List Int} {offset : Nat}
    (h : (encode offset tokens).outcome = .ok words) : List.Forall₂ Encodes tokens words := by
  induction tokens generalizing words offset with
  | nil =>
      cases h
      exact .nil
  | cons token tokens ih =>
      obtain ⟨word, rest, rfl, hword, hrest⟩ := exists_of_outcome_encode_cons h
      exact .cons hword (ih hrest)

theorem placeTokens_map (f : Token → Token) (line : TokenLine) :
    placeTokens (line.map f) = (placeTokens line).map fun token => (token.1, f token.2) := by
  cases line with
  | nil => rfl
  | cons operation operands => simp [placeTokens]

/-- An assembled text has one word per token, in order and in range. -/
theorem resolves_of_assemble {source : String} {words : List Int}
    (h : (assemble source).outcome = .ok words) :
    List.Forall₂ Resolves ((tokenLines source).flatMap placeTokens) words := by
  -- What is encoded are the tokens in their canonical form, place by place.
  have hlines : (encodeLines (tokenLines source)).outcome = .ok words := h
  have hencodes := encodes_of_outcome hlines
  simp only [placeTokens_map, ← List.map_flatMap, List.forall₂_map_left_iff] at hencodes
  exact hencodes.imp fun _ _ hword => resolves_of_encodes hword

theorem fits_of_resolves {tokens : List (Place × Token)} {words : List Int}
    (h : List.Forall₂ Resolves tokens words) : ∀ word ∈ words, Word.Fits word := by
  induction h with
  | nil => exact fun _ hmem => absurd hmem List.not_mem_nil
  | cons hword _ ih => exact List.forall_mem_cons.2 ⟨hword.fits, ih⟩

end Assembly

/-! ## Steps through signed 32-bit words -/

namespace Machine

variable {m : Machine}

/-- Among signed 32-bit words there is no sleep that is too long and no fault without a message. -/
theorem not_escapes_of_fits {failure : Failure} (h : ∀ word ∈ m.program, Word.Fits word) :
    ¬ m.Escapes failure := by
  have hfits {row : Listing.Row} (hrow : m.row? = some row) : ∀ word ∈ row.words, Word.Fits word :=
    fun word hword => h word (Array.mem_toList_iff.1 (Listing.words_subset_of_rowAt? hrow hword))
  intro hescapes
  cases hescapes with
  | @sleep row ms hm hpc hrow hwords hlong =>
      have hmem : ms ∈ row.words := by
        rw [hwords]
        exact List.mem_cons_of_mem _ (List.mem_singleton_self ms)
      have hless := (hfits hrow ms hmem).2
      have hbound := Binary64.word_lt_overflowMilliseconds
      omega
  | message hm hpc hrow hcause hlong =>
      refine hlong fun n hn => ?_
      exact (hfits hrow n (Listing.numbers_subset_of_offence hcause hn)).writable

/-- A machine that holds a program of signed 32-bit words and whose numbers all have a decimal
    text. -/
structure Tame (m : Machine) : Prop where
  program : ∀ word ∈ m.program, Word.Fits word
  stores : m.Stores Decimal.Writable
  position : m.halted = true ∨ Decimal.Writable m.pc

namespace Tame

theorem step_failure (h : m.Tame) : m.step.failure = none := by
  cases hfailure : m.step.failure with
  | none => rfl
  | some failure =>
      exact absurd (escapes_of_step h.stores.registers hfailure) (not_escapes_of_fits h.program)

theorem step (h : m.Tame) : m.step.machine.Tame := by
  have hstores := h.stores.step fun _ hfits => hfits.writable
  refine ⟨?_, hstores, ?_⟩
  · rw [step_program]
    exact h.program
  · rcases step_settled h.step_failure with hhalted | hpc
    · exact .inl hhalted
    · -- Where the machine goes on, its position is one of the program.
      have hposition := hstores.positions m.step.machine.pc.toNat (by
        have := hpc.1
        have := hpc.2
        omega)
      rw [Int.toNat_of_nonneg hpc.1] at hposition
      exact .inr hposition

theorem refresh (h : m.Tame) : m.refresh.1.Tame :=
  ⟨h.program, ⟨h.stores.registers, h.stores.stack, h.stores.positions⟩, h.position⟩

end Tame

theorem tame_load (hregisters : ∀ r, Decimal.Writable (m.registers.read r)) {program : List Int}
    (hfits : ∀ word ∈ program, Word.Fits word) (hlength : program.length < Decimal.writableBound)
    (output : String) (resetRegisters : Bool) : (m.load program output resetRegisters).Tame where
  program := fun word hword => hfits word (List.mem_toArray.1 hword)
  stores := by
    refine stores_load (fun _ h => h.writable) hregisters ?_ output resetRegisters
    intro n hn
    exact Nat.lt_of_le_of_lt hn hlength
  position := .inr Word.fits_zero.writable

/-- There are three exit codes of an execution. -/
theorem verdict_mem (m : Machine) : m.verdict.2 ∈ [0, 2, 4] := by
  unfold verdict
  cases m.halted with
  | false => simp [exitStepLimit]
  | true => cases m.fault <;> simp [exitHalted, exitFault]

end Machine

/-! ## Runs through signed 32-bit words -/

namespace Run

/-- A run on which every step so far has given an answer, and every later one will. -/
structure Smooth (run : Run) : Prop where
  answered : run.failure = none
  tame : run.machine.Tame

namespace Smooth

variable {run : Run} {flush : Bool}

theorem next (h : run.Smooth) : (run.next flush).Smooth where
  answered := by
    show (run.machine.stepAndFlush flush).failure = none
    rw [run.machine.stepAndFlush_failure]
    exact h.tame.step_failure
  tame := by
    have hreaches : run.machine.Reaches run.machine := .refl
    exact (hreaches.next flush).invariant h.tame (fun _ hm => hm.step) fun _ hm => hm.refresh

theorem advance (h : run.Smooth) (count : Nat) : (run.advance flush count).Smooth := by
  induction count generalizing run with
  | zero => exact h
  | succ count ih =>
      rw [Run.advance]
      split_ifs
      · exact h
      · exact ih h.next

/-- At its step limit a run fails if and only if its machine is still running and the limit cannot
    be written; where the machine stands can always be. -/
theorem atLimit_failure (h : run.Smooth) (steps : Int) (failure : Failure) :
    (run.atLimit steps).failure = some failure ↔
      failure = .tooManyDigits ∧ ¬ Decimal.Writable steps ∧ run.machine.halted = false := by
  by_cases hsteps : Decimal.Writable steps
  · rw [Machine.atLimit_failure h.answered hsteps h.tame.position]
    simp [hsteps]
  · have hunwritable : ¬ (Decimal.Writable steps ∧ Decimal.Writable run.machine.pc) :=
      fun hboth => hsteps hboth.1
    unfold Run.atLimit
    cases hm : run.machine.halted with
    | true =>
        have hstopped : run.stopped = true := by simp [Run.stopped, hm]
        rw [if_pos hstopped, h.answered]
        simp
    | false =>
        have hgoing : ¬ run.stopped = true := Run.not_stopped_iff.2 ⟨hm, h.answered⟩
        rw [if_neg hgoing, if_neg hunwritable]
        simp [hsteps, eq_comm]

/-- A run fails if and only if it comes to a step limit that cannot be written. -/
theorem finish_failure (h : run.Smooth) (limit : Option Int) (fuel : Nat) (failure : Failure) :
    (run.finish limit flush fuel).failure = some failure ↔
      failure = .tooManyDigits ∧ ∃ steps, limit = some steps ∧ ¬ Decimal.Writable steps ∧
        (run.advance flush steps.toNat).machine.halted = false := by
  cases limit with
  | none =>
      rw [Run.finish, (h.advance fuel).answered]
      simp
  | some steps =>
      rw [Run.finish, (h.advance steps.toNat).atLimit_failure]
      simp

end Smooth

theorem smooth_ofProgram {program : List Int} (screen : Screen)
    (hfits : ∀ word ∈ program, Word.Fits word) (hlength : program.length < Decimal.writableBound) :
    (ofProgram program screen).Smooth where
  answered := rfl
  tame := by
    have hfresh := (Machine.stores_fresh (fun _ h => h.writable) screen).registers
    exact Machine.tame_load hfresh hfits hlength "" false

end Run

/-! ## Step limits -/

theorem Decimal.value_lt_pow {digits : List Nat} (h : ∀ d ∈ digits, d < 10) :
    value digits < Nat.pow 10 digits.length := by
  rw [Assembly.value_eq_ofDigits, ← List.length_reverse]
  exact Nat.ofDigits_lt_base_pow_length (by decide) fun d hd => h d (List.mem_reverse.1 hd)

namespace Value

theorem digits?_lt {content : List Char} {digits : List Nat} (h : digits? content = some digits) :
    ∀ d ∈ digits, d < 10 := by
  -- With or without an underscore behind it, a digit is read before the others.
  have hcons {c : Char} {rest : List Char} {ds : List Nat}
      (ih : ∀ {digits}, digits? rest = some digits → ∀ d ∈ digits, d < 10)
      (h : (do let d ← Text.decimalDigit? c; let later ← digits? rest; return d :: later) =
        some ds) : ∀ d ∈ ds, d < 10 := by
    simp only [Option.bind_eq_bind, Option.bind_eq_some_iff, Option.pure_def] at h
    obtain ⟨d, hd, later, hlater, hds⟩ := h
    cases hds
    exact List.forall_mem_cons.2 ⟨Text.decimalDigit?_lt hd, ih hlater⟩
  fun_induction digits? content generalizing digits with
  | case1 => cases h
  | case2 c =>
      obtain ⟨d, hd, rfl⟩ := Option.map_eq_some_iff.1 h
      exact List.forall_mem_singleton.2 (Text.decimalDigit?_lt hd)
  | case3 c rest ih => exact hcons ih h
  | case4 c rest _ _ ih => exact hcons ih h

/-- A number that is read from a text can be written again. -/
theorem writable_of_integerOfText {content : List Char} {n : Int}
    (h : integerOfText content = .ok n) : Decimal.Writable n := by
  simp only [integerOfText] at h
  split at h
  · cases h
  · rename_i digits hdigits
    split_ifs at h with hlong hnegative
    · cases h
      refine Decimal.writable_of_natAbs_lt_pow (Nat.le_of_not_lt hlong) ?_
      rw [Int.natAbs_neg]
      exact Decimal.value_lt_pow (digits?_lt hdigits)
    · cases h
      exact Decimal.writable_of_natAbs_lt_pow (Nat.le_of_not_lt hlong)
        (Decimal.value_lt_pow (digits?_lt hdigits))

end Value

namespace Command

theorem writable_of_integerSetting? {option : EmulateOption}
    {items : List (Argument EmulateOption)} {n : Int}
    (h : integerSetting? option items = some (some n)) : Decimal.Writable n := by
  unfold integerSetting? at h
  split at h
  · cases h
  · split at h
    · rename_i hvalue
      cases h
      exact Value.writable_of_integerOfText hvalue
    · cases h

/-- A step limit on the command line can be written. -/
theorem writable_maxSteps {arguments : List String} {use : EmulateUse} {steps : Int}
    (h : EmulateUse.ofArguments? arguments = some use) (hsteps : use.maxSteps = some steps) :
    Decimal.Writable steps := by
  simp only [EmulateUse.ofArguments?, Option.bind_eq_bind, Option.bind_eq_some_iff] at h
  obtain ⟨items, -, refreshMs, -, maxSteps, hmax, huse⟩ := h
  split at huse
  · cases huse
    subst hsteps
    exact writable_of_integerSetting? hmax
  · cases huse

end Command

/-! ## Programs from source texts -/

/-- Whatever text can be assembled has one word per token, in order and in the range of its place.
    Its execution, on any screen, fails at no step. It fails if and only if it comes to a step limit
    that is too long to be written into a notice, and for this reason only; no use of the command
    sets such a limit. One that does not fail ends with one of the three exit codes. There is a
    screen of every size that is not negative and for which there is room. The program only has to
    be short enough for its positions to be written. -/
theorem assembled_program_answers {source : String} {words : List Int}
    (h : (Assembly.assemble source).outcome = .ok words)
    (hlength : words.length < Decimal.writableBound) :
    List.Forall₂ Assembly.Resolves
      ((Assembly.tokenLines source).flatMap Assembly.placeTokens) words ∧
    (∀ screen limit fuel failure,
      (execute words screen limit fuel).failure = some failure ↔
        failure = .tooManyDigits ∧ ∃ steps, limit = some steps ∧ ¬ Decimal.Writable steps ∧
          ((Run.ofProgram words screen).advance true steps.toNat).machine.halted = false) ∧
    (∀ screen limit fuel, (execute words screen limit fuel).failure = none →
      (execute words screen limit fuel).machine.verdict.2 ∈ [0, 2, 4]) ∧
    (∀ arguments use, Command.EmulateUse.ofArguments? arguments = some use →
      ∀ screen fuel, (execute words screen use.maxSteps fuel).failure = none) ∧
    ∀ {memory : Nat} {width height refreshMs : Int}, 0 ≤ width → 0 ≤ height →
      ((∃ screen, Screen.create width height refreshMs memory = .ok screen) ↔
        (width * height < Screen.cellBound ∧ width * height < memory) ∧
          (Binary64.ofMilliseconds refreshMs).isSome = true) := by
  have hresolves := Assembly.resolves_of_assemble h
  have hfailure (screen limit fuel failure) :
      (execute words screen limit fuel).failure = some failure ↔ _ :=
    (Run.smooth_ofProgram screen (Assembly.fits_of_resolves hresolves) hlength).finish_failure
      limit fuel failure
  refine ⟨hresolves, hfailure, fun screen limit fuel _ => Machine.verdict_mem _, ?_,
    Screen.exists_create_iff⟩
  intro arguments use huse screen fuel
  refine Option.eq_none_iff_forall_ne_some.2 fun failure hfails => ?_
  obtain ⟨-, steps, hsteps, hlong, -⟩ := (hfailure screen use.maxSteps fuel failure).1 hfails
  exact hlong (Command.writable_maxSteps huse hsteps)

/-- A line without its operand and a line without an operation, the words of which are executed
    together. -/
theorem assembled_program_answers_misaligned :
    (Assembly.assemble "print r0\nslp\nR12, 7").outcome = .ok [60, 0, 70, -1, 7] ∧
      (execute [60, 0, 70, -1, 7] Screen.dot (some 9) 0).failure = none ∧
      (execute [60, 0, 70, -1, 7] Screen.dot (some 9) 0).machine.verdict.2 ∈ [0, 2, 4] := by
  have hassembled : (Assembly.assemble "print r0\nslp\nR12, 7").outcome =
      .ok [60, 0, 70, -1, 7] := by
    decide +kernel
  have hlength : [60, 0, 70, -1, 7].length < Decimal.writableBound := by decide +kernel
  obtain ⟨-, hfailure, hexit, -⟩ := assembled_program_answers hassembled hlength
  have hanswer : (execute [60, 0, 70, -1, 7] Screen.dot (some 9) 0).failure = none := by
    refine Option.eq_none_iff_forall_ne_some.2 fun failure hfails => ?_
    obtain ⟨-, steps, hsteps, hlong, -⟩ := (hfailure _ _ _ _).1 hfails
    cases hsteps
    exact hlong (Decimal.writable_of_natAbs_lt (by decide))
  exact ⟨hassembled, hanswer, hexit _ _ _ hanswer⟩

/-- A program of one halt instruction, executed up to a negative step limit that is one digit too
    long, gives no answer. Nor does it for a size of which there is no screen. -/
theorem halt_text_unanswered :
    (Assembly.assemble "HALT").outcome = .ok [255] ∧
      (execute [255] Screen.dot (some (-Decimal.writableBound)) 0).failure =
        some .tooManyDigits ∧
      Screen.create 0x400000000000000000 1 16 = .error .sizeTooLarge := by
  refine ⟨?_, ?_, rfl⟩
  · decide +kernel
  · decide +kernel

end RegisterMachine
