import RegisterMachine.Proofs.Resolution

set_option autoImplicit false

/-! # Reports on unresolved tokens

An assembly reports a token, with the offset of its word, if the word is the unresolved one
(`notices_encode`). That is every token that denotes nothing, but the unresolved word is a number
too, and so a literal that denotes it is resolved and reported all the same (`isReported_iff`,
`minus_one_reported`). No other token is reported (`notices_of_assemble`). -/

namespace RegisterMachine.Assembly

open Text

/-! ## Tokens of a source text once more -/

/-- A token that is read from a line is in upper case and has no separators, and so it is encoded as
    it is. -/
theorem canonicalToken_of_mem_tokensOfLine {line : List Char} {token : Token}
    (h : token ∈ tokensOfLine line) : canonicalToken token = token := by
  rw [canonicalToken, trim_of_false (unbroken_of_mem_tokensOfLine h)]
  refine upper_of_forall_mem fun d hd => ?_
  obtain ⟨run, -, htoken⟩ := exists_run_of_mem_tokensOfLine h
  have hrun : d ∈ upper run := by
    rcases htoken with rfl | rfl
    · exact hd
    · rw [stripComma] at hd
      split_ifs at hd
      · exact mem_of_mem_dropTrailing hd
      · exact hd
  obtain ⟨c, -, hc⟩ := List.mem_flatMap.1 hrun
  exact upperChar_of_mem_upperChar hc

theorem sourceTokens_eq (source : String) :
    sourceTokens source = (tokenLines source).flatMap placeTokens := by
  refine List.flatMap_congr fun line hline => congrArg placeTokens ?_
  obtain ⟨text, -, rfl⟩ := List.mem_map.1 (List.mem_filter.1 hline).1
  rw [List.map_congr_left fun _ htoken => canonicalToken_of_mem_tokensOfLine htoken, List.map_id']

/-! ## Reports -/

/-- The tokens that are reported denote nothing, or the number that also stands for nothing. -/
def IsReported (token : Place × Token) : Prop :=
  (∀ n, ¬ Denotes token n) ∨ Denotes token unresolved

theorem isReported_iff {token : Place × Token} {word : Int} (hunbroken : Unbroken token.2)
    (hword : Encodes token word) : IsReported token ↔ word = unresolved := by
  have hdenotes {n : Int} (hn : Denotes token n) : n = word := by
    have hsame := (encodes_of_denotes hn).symm.trans hword
    cases hsame
    rfl
  constructor
  · rintro (hnone | hdenoted)
    · rcases overlong_or_encodes hunbroken with hlong | ⟨other, hother, hresolved⟩
      · have hsame := hword.symm.trans (encodeToken_of_overlong hlong)
        cases hsame
      · have hsame := hword.symm.trans hother
        cases hsame
        by_contra hne
        exact hnone word (hresolved hne)
    · exact (hdenotes hdenoted).symm
  · intro hword
    by_cases hdenoted : ∃ n, Denotes token n
    · obtain ⟨n, hn⟩ := hdenoted
      rw [hdenotes hn, hword] at hn
      exact .inr hn
    · exact .inl fun n hn => hdenoted ⟨n, hn⟩

open Classical in
/-- Encoding reports each token that is to be reported once, in order and with the offset of its
    word. -/
theorem notices_encode {tokens : List (Place × Token)} {words : List Int} {offset : Nat}
    (hunbroken : ∀ token ∈ tokens, Unbroken token.2)
    (h : (encode offset tokens).outcome = .ok words) :
    (encode offset tokens).notices =
      ((tokens.zipIdx offset).filter fun entry => IsReported entry.1).map
        fun entry => .unresolvedToken entry.1.2 entry.2 := by
  induction tokens generalizing words offset with
  | nil => rfl
  | cons token tokens ih =>
      obtain ⟨htoken, htokens⟩ := List.forall_mem_cons.1 hunbroken
      obtain ⟨word, rest, rfl, hword, hrest⟩ := exists_of_outcome_encode_cons h
      have hreported := isReported_iff htoken hword
      rw [encode_cons offset tokens hword, ih htokens hrest, List.zipIdx_cons, List.filter_cons]
      by_cases hunresolved : word = unresolved
      · simp [hunresolved, hreported.2 hunresolved]
      · simp [hunresolved, mt hreported.1 hunresolved]

/-- What the log shows of a notice: its level and its text. -/
def logRecord (notice : Notice) : Level × String :=
  (notice.level, notice.text)

/-- What the log shows of a token that is reported, with the index of its word. -/
def unresolvedRecord (entry : (Place × Token) × Nat) : Level × String :=
  let name := String.ofList entry.1.2
  let offset := entry.2
  (.debug, s!"Unresolved token {name} at offset {offset}")

open Classical in
/-- A source text that is assembled has one word per token, which is what the token denotes or else
    the unresolved word. Besides the number of its lines, what is reported are the tokens that
    denote nothing and those that denote the unresolved word, each once, in order and with the index
    of its word. The log shows each report as a text for debugging. -/
theorem notices_of_assemble {source : String} {words : List Int}
    (h : (assemble source).outcome = .ok words) :
    let count := (tokenLines source).length
    let reported := ((tokenLines source).flatMap placeTokens).zipIdx.filter fun entry =>
      IsReported entry.1
    List.Forall₂ StandsFor ((tokenLines source).flatMap placeTokens) words ∧
      (assemble source).notices =
        .encoding count :: reported.map (fun entry => .unresolvedToken entry.1.2 entry.2) ∧
      (assemble source).notices.map logRecord =
        (.debug, s!"Encoding {count} lines") :: reported.map unresolvedRecord := by
  intro count reported
  have hnotices : (assemble source).notices =
      .encoding count :: reported.map fun entry => .unresolvedToken entry.1.2 entry.2 := by
    rw [outcome_eq] at h
    simp only [reported, ← sourceTokens_eq]
    exact congrArg (_ :: ·) (notices_encode (fun _ => unbroken_of_mem_sourceTokens) h)
  refine ⟨?_, hnotices, ?_⟩
  · rw [← sourceTokens_eq]
    rcases assemble_fails_or_stands source with ⟨-, hfailure⟩ | ⟨-, stands, hstands, hforall⟩
    · rw [h] at hfailure
      cases hfailure
    · rw [h] at hstands
      cases hstands
      exact hforall
  · rw [hnotices, List.map_cons, List.map_map]
    rfl

open Classical in
/-- Tokens of every kind that denote nothing, and one that denotes the unresolved word. -/
theorem notices_of_assemble_mixed :
    let source := "nop r1, // r10\nmovv R10,, 5,\nslp -01 +7"
    let words := [-1, 1, 11, -1, -1, 70, -1, 7]
    (assemble source).outcome = .ok words ∧
      List.Forall₂ StandsFor ((tokenLines source).flatMap placeTokens) words ∧
      (assemble source).notices = .encoding (tokenLines source).length ::
        ((((tokenLines source).flatMap placeTokens).zipIdx.filter fun entry =>
          IsReported entry.1).map fun entry => .unresolvedToken entry.1.2 entry.2) ∧
      (assemble source).notices.map logRecord =
        (.debug, s!"Encoding {(tokenLines source).length} lines") ::
          ((((tokenLines source).flatMap placeTokens).zipIdx.filter fun entry =>
            IsReported entry.1).map unresolvedRecord) := by
  intro source words
  have hassembled : (assemble source).outcome = .ok words := by decide +kernel
  exact ⟨hassembled, notices_of_assemble hassembled⟩

/-- A literal that denotes a number is reported as if it denoted none. -/
theorem minus_one_reported :
    (assemble "SLP -1").outcome = .ok [70, -1] ∧ Denotes (.operand, ['-', '1']) (-1) ∧
      (assemble "SLP -1").notices.map logRecord =
        [(.debug, "Encoding 1 lines"), (.debug, "Unresolved token -1 at offset 1")] := by
  have hdigits : IsNumeral ['1'] :=
    ⟨List.cons_ne_nil _ _, List.forall_mem_singleton.2 rfl, by decide⟩
  have hone : SpellsLiteral (-1) ['-', '1'] := .minus hdigits
  exact ⟨by decide +kernel, .literal hone (by decide), by decide +kernel⟩

end RegisterMachine.Assembly
