import RegisterMachine.Proofs.Diagnostics
import RegisterMachine.Proofs.LineGrammar

set_option autoImplicit false

/-! # Token lines as a normal form

`written` puts token lines back into a source text, with a space between two tokens and a line feed
between two lines. Lines that are `NormalLine`s have exactly these tokens when they are read again
(`tokenLines_written`), and the lines of every source text are of this kind
(`normalLine_of_mem_tokenLines`). So the normal lines are those that some text has
(`exists_tokenLines_eq_iff`), and a text and what is written from its tokens are assembled alike. -/

namespace RegisterMachine.Assembly

open Text

/-! ## Normal lines -/

/-- A token line that reading leaves as it is: its tokens are proper and in upper case, and no
    operand in the form of a register ends with a comma. -/
structure NormalLine (line : TokenLine) : Prop where
  ne_nil : line ≠ []
  proper : ∀ token ∈ line, Proper token
  upper : ∀ token ∈ line, Text.upper token = token
  stripped : stripOperandCommas line = line

theorem LosesCommas.refl_right {token kept : Token} (h : LosesCommas token kept) :
    LosesCommas kept kept := by
  cases h with
  | register commas hname hlast =>
      have hnone := LosesCommas.register 0 hname hlast
      rwa [List.replicate_zero, List.append_nil] at hnone
  | other h => exact .other h

/-- An operand has no commas to lose after it has lost them. -/
theorem stripComma_stripComma (token : Token) :
    stripComma (stripComma token) = stripComma token :=
  (losesCommas_stripComma token).refl_right.stripComma_eq

theorem stripOperandCommas_stripOperandCommas (line : TokenLine) :
    stripOperandCommas (stripOperandCommas line) = stripOperandCommas line := by
  cases line with
  | nil => rfl
  | cons operation operands =>
      simp only [stripOperandCommas, List.map_map]
      congr 1
      exact List.map_congr_left fun operand _ => stripComma_stripComma operand

theorem upper_of_mem_tokensOfLine {line : List Char} {token : Token}
    (h : token ∈ tokensOfLine line) : upper token = token := by
  have hcanonical := canonicalToken_of_mem_tokensOfLine h
  rwa [canonicalToken, trim_of_false (unbroken_of_mem_tokensOfLine h)] at hcanonical

theorem normalLine_of_mem_tokenLines {source : String} {line : TokenLine}
    (h : line ∈ tokenLines source) : NormalLine line := by
  have hne := ne_nil_of_mem_tokenLines h
  obtain ⟨text, -, rfl⟩ := List.mem_map.1 (List.mem_filter.1 h).1
  refine ⟨hne, fun token => proper_of_mem_tokensOfLine, fun token => upper_of_mem_tokensOfLine, ?_⟩
  rw [tokensOfLine]
  exact stripOperandCommas_stripOperandCommas _

/-! ## Writing lines -/

/-- The text of a token line, with a space between two tokens. -/
def writtenLine (line : TokenLine) : String :=
  String.intercalate " " (line.map String.ofList)

/-- The text of token lines, with a line feed between two lines. -/
def written (lines : List TokenLine) : String :=
  String.intercalate "\n" (lines.map writtenLine)

theorem toList_writtenLine (line : TokenLine) :
    (writtenLine line).toList = [' '].intercalate line := by
  rw [writtenLine, String.toList_intercalate, List.map_map]
  congr 1
  exact List.map_id'' (fun token => String.toList_ofList) line

theorem toList_written (lines : List TokenLine) :
    (written lines).toList = ['\n'].intercalate (lines.map fun line => [' '].intercalate line) := by
  rw [written, String.toList_intercalate, List.map_map]
  congr 1
  exact List.map_congr_left fun line _ => toList_writtenLine line

/-! ## Reading what is written -/

/-- No comment begins in a proper token, nor between it and a character behind it that is no
    slash. -/
theorem beforeComment_proper_append {token : Token} (h : ¬ ['/', '/'] <:+: token) {c : Char}
    (hc : c ≠ '/') (rest : List Char) :
    beforeComment (token ++ c :: rest) = token ++ c :: beforeComment rest := by
  induction token with
  | nil => exact beforeComment_cons fun hslash => absurd hslash hc
  | cons d token ih =>
      rw [slashes_infix_cons_iff, not_or, not_and] at h
      rw [List.cons_append, beforeComment_cons, ih h.2, List.cons_append]
      intro hd hhead
      cases token with
      | nil => exact hc (Option.some.inj hhead)
      | cons e token => exact h.1 hd hhead

/-- A proper token with a space behind it is the first run of its line. -/
theorem runs_beforeComment_proper_append {token : Token} (h : Proper token) (rest : List Char) :
    runs (beforeComment (token ++ ' ' :: rest)) = token :: runs (beforeComment rest) := by
  rw [beforeComment_proper_append h.slashes_not_in (by decide), runs_append_cons isSeparator_space,
    runs_of_false h.ne_nil h.unbroken]
  rfl

theorem runs_beforeComment_intercalate {line : TokenLine} (h : ∀ token ∈ line, Proper token) :
    runs (beforeComment ([' '].intercalate line)) = line := by
  induction line with
  | nil => exact runs_nil
  | cons token line ih =>
      obtain ⟨htoken, hline⟩ := List.forall_mem_cons.1 h
      cases line with
      | nil =>
          rw [List.intercalate_singleton, (IsCode.whole htoken.slashes_not_in).beforeComment_eq,
            runs_of_false htoken.ne_nil htoken.unbroken]
      | cons next line =>
          rw [List.intercalate_cons_cons, List.append_assoc, List.singleton_append,
            runs_beforeComment_proper_append htoken, ih hline]

/-- A normal line that is written has the same tokens when it is read. -/
theorem NormalLine.tokensOfLine_intercalate {line : TokenLine} (h : NormalLine line) :
    tokensOfLine ([' '].intercalate line) = line := by
  rw [tokensOfLine, runs_beforeComment_intercalate h.proper, List.map_congr_left h.upper,
    List.map_id', h.stripped]

theorem newline_not_mem_intercalate {line : TokenLine} (h : ∀ token ∈ line, Proper token) :
    '\n' ∉ [' '].intercalate line := by
  induction line with
  | nil => exact List.not_mem_nil
  | cons token line ih =>
      obtain ⟨htoken, hline⟩ := List.forall_mem_cons.1 h
      have hfirst : '\n' ∉ token := by
        intro hnewline
        have hunbroken := htoken.unbroken _ hnewline
        rw [isSeparator_newline] at hunbroken
        cases hunbroken
      cases line with
      | nil =>
          rw [List.intercalate_singleton]
          exact hfirst
      | cons next line =>
          rw [List.intercalate_cons_cons]
          exact List.not_mem_append (List.not_mem_append hfirst (by decide)) (ih hline)

/-- Normal lines that are written are read again. -/
theorem tokenLines_written {lines : List TokenLine} (h : ∀ line ∈ lines, NormalLine line) :
    tokenLines (written lines) = lines := by
  have hnewline : ∀ text ∈ lines.map fun line => [' '].intercalate line, '\n' ∉ text := by
    intro text htext
    obtain ⟨line, hline, rfl⟩ := List.mem_map.1 htext
    exact newline_not_mem_intercalate (h line hline).proper
  have hread : (lines.map fun line => tokensOfLine ([' '].intercalate line)) = lines := by
    rw [List.map_congr_left fun line hline => (h line hline).tokensOfLine_intercalate, List.map_id']
  rw [tokenLines_of_intercalate (toList_written lines) hnewline, List.map_map]
  simp only [Function.comp_def]
  rw [hread, List.filter_eq_self]
  intro line hline
  simpa using (h line hline).ne_nil

/-- The lists of normal lines are those that source texts are read as. -/
theorem exists_tokenLines_eq_iff {lines : List TokenLine} :
    (∃ source, tokenLines source = lines) ↔ ∀ line ∈ lines, NormalLine line := by
  constructor
  · rintro ⟨source, rfl⟩ line hline
    exact normalLine_of_mem_tokenLines hline
  · intro h
    exact ⟨written lines, tokenLines_written h⟩

/-- The text that is written from the tokens of a source text has the same tokens, and is assembled
    to the same words or to the same failure, with the same notices. -/
theorem same_assembly_of_written (source : String) :
    tokenLines (written (tokenLines source)) = tokenLines source ∧
      assemble (written (tokenLines source)) = assemble source := by
  have htokens : tokenLines (written (tokenLines source)) = tokenLines source :=
    tokenLines_written fun _ => normalLine_of_mem_tokenLines
  exact ⟨htokens, by rw [assemble, assemble, htokens]⟩

/-- Slashes, commas and a letter that becomes two, in the form in which they are read again. -/
example : written (tokenLines " r1,/ r2,,\tRß,,// x\n\n/,, /ret,") = "R1,/ R2 RSS\n/,, /RET," := by
  decide +kernel

end RegisterMachine.Assembly
