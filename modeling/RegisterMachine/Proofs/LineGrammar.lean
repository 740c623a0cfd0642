import RegisterMachine.Proofs.CaseFolding
import RegisterMachine.Proofs.Resolution

set_option autoImplicit false

/-! # What the tokens of a source text are

`HasTokens` says what the tokens of a source text are without computing them: the text is its lines
put together, a line is its code and perhaps a comment that begins at the first `//`, the code in
upper case is made of maximal runs and the gaps around them, and a register operand is what stands
before its final commas. `tokenLines` gives these tokens and no others (`hasTokens_iff`), and all of
them are `Proper` (`proper_of_mem_tokensOfLine`). -/

namespace RegisterMachine.Assembly

open Text

/-! ## Runs -/

/-- The runs of characters that are no separators in a text, none of which can be made longer. -/
inductive MaximalRuns : List Char → List Token → Prop where
  | none {gap : List Char} (hgap : ∀ c ∈ gap, isSeparator c = true) : MaximalRuns gap []
  | more {gap rest : List Char} {run : Token} {runs : List Token}
      (hgap : ∀ c ∈ gap, isSeparator c = true) (hne : run ≠ []) (hrun : Unbroken run)
      (hstop : ∀ c ∈ rest.head?, isSeparator c = true) (h : MaximalRuns rest runs) :
      MaximalRuns (gap ++ (run ++ rest)) (run :: runs)

/-- A run ends where the next character separates. -/
theorem runs_unbroken_append {run rest : List Char} (hne : run ≠ []) (h : Unbroken run)
    (hstop : ∀ c ∈ rest.head?, isSeparator c = true) : runs (run ++ rest) = run :: runs rest := by
  cases rest with
  | nil => rw [List.append_nil, runs_of_false hne h, runs_nil]
  | cons c rest =>
      have hc := hstop c rfl
      have hgap := runs_append_of_separators (List.forall_mem_singleton.2 hc) rest
      rw [List.singleton_append] at hgap
      rw [runs_append_cons hc, runs_of_false hne h, hgap]
      rfl

theorem MaximalRuns.runs_eq {text : List Char} {found : List Token} (h : MaximalRuns text found) :
    runs text = found := by
  induction h with
  | none hgap => exact runs_of_separators hgap
  | more hgap hne hrun hstop h ih =>
      rw [runs_append_of_separators hgap, runs_unbroken_append hne hrun hstop, ih]

/-- A separator in front makes a gap longer. -/
theorem MaximalRuns.cons_separator {c : Char} {text : List Char} {found : List Token}
    (h : MaximalRuns text found) (hc : isSeparator c = true) : MaximalRuns (c :: text) found := by
  cases h with
  | none hgap => exact .none (List.forall_mem_cons.2 ⟨hc, hgap⟩)
  | more hgap hne hrun hstop h =>
      rw [← List.cons_append]
      exact .more (List.forall_mem_cons.2 ⟨hc, hgap⟩) hne hrun hstop h

theorem MaximalRuns.run_append {run rest : List Char} {found : List Token}
    (h : MaximalRuns rest found) (hne : run ≠ []) (hrun : Unbroken run)
    (hstop : ∀ c ∈ rest.head?, isSeparator c = true) :
    MaximalRuns (run ++ rest) (run :: found) := by
  rw [← List.nil_append (run ++ rest)]
  exact .more nofun hne hrun hstop h

/-- Any other character in front makes the run there longer, or is a run of its own. -/
theorem MaximalRuns.exists_cons {c : Char} {text : List Char} {found : List Token}
    (h : MaximalRuns text found) (hc : isSeparator c = false) :
    ∃ more, MaximalRuns (c :: text) more := by
  have hne (run : List Char) : c :: run ≠ [] := List.cons_ne_nil c run
  have hsingle : Unbroken [c] := List.forall_mem_singleton.2 hc
  cases h with
  | none hgap =>
      have hstop : ∀ d ∈ text.head?, isSeparator d = true :=
        fun d hd => hgap d (List.mem_of_mem_head? hd)
      exact ⟨_, (MaximalRuns.none hgap).run_append (hne []) hsingle hstop⟩
  | @more gap rest run others hgap hfilled hrun hstop h =>
      cases gap with
      | nil =>
          have hlonger : Unbroken (c :: run) := List.forall_mem_cons.2 ⟨hc, hrun⟩
          exact ⟨_, h.run_append (hne run) hlonger hstop⟩
      | cons d gap =>
          have hstopped : ∀ e ∈ (d :: gap ++ (run ++ rest)).head?, isSeparator e = true := by
            intro e he
            cases he
            exact hgap d List.mem_cons_self
          have hrest := MaximalRuns.more hgap hfilled hrun hstop h
          exact ⟨_, hrest.run_append (hne []) hsingle hstopped⟩

theorem exists_maximalRuns (text : List Char) : ∃ found, MaximalRuns text found := by
  induction text with
  | nil => exact ⟨[], .none nofun⟩
  | cons c text ih =>
      obtain ⟨found, hfound⟩ := ih
      cases hc : isSeparator c with
      | true => exact ⟨found, hfound.cons_separator hc⟩
      | false => exact hfound.exists_cons hc

theorem maximalRuns_iff {text : List Char} {found : List Token} :
    MaximalRuns text found ↔ runs text = found := by
  constructor
  · exact MaximalRuns.runs_eq
  · rintro rfl
    obtain ⟨found, hfound⟩ := exists_maximalRuns text
    rwa [hfound.runs_eq]

/-! ## Comments -/

/-- The code of a line is all of it, or what stands before the first `//`. -/
inductive IsCode : List Char → List Char → Prop where
  | whole {line : List Char} (h : ¬ ['/', '/'] <:+: line) : IsCode line line
  | cut {code comment : List Char} (h : ¬ ['/', '/'] <:+: code ++ ['/']) :
      IsCode (code ++ '/' :: '/' :: comment) code

theorem slashes_infix_cons_iff {c : Char} {text : List Char} :
    ['/', '/'] <:+: c :: text ↔
      (c = '/' ∧ text.head? = some '/') ∨ ['/', '/'] <:+: text := by
  rw [List.infix_cons_iff, List.cons_prefix_cons, eq_comm]
  cases text with
  | nil => simp
  | cons d text => simp [eq_comm]

theorem IsCode.beforeComment_eq {line code : List Char} (h : IsCode line code) :
    beforeComment line = code := by
  cases h with
  | whole h =>
      induction line with
      | nil => rfl
      | cons c line ih =>
          rw [slashes_infix_cons_iff, not_or, not_and] at h
          rw [beforeComment_cons h.1, ih h.2]
  | cut h =>
      induction code with
      | nil => rfl
      | cons c code ih =>
          rw [List.cons_append, slashes_infix_cons_iff, not_or, not_and] at h
          rw [List.cons_append, beforeComment_cons, ih h.2]
          intro hc hhead
          -- The code does not end here, for else its slash would be the first of the comment.
          cases code with
          | nil => exact h.1 hc rfl
          | cons d code => exact h.1 hc hhead

theorem isCode_beforeComment (line : List Char) : IsCode line (beforeComment line) := by
  fun_induction beforeComment line with
  | case1 => exact .whole (by simp)
  | case2 comment => exact @IsCode.cut [] comment (by decide)
  | case3 c rest hcomment ih =>
      have hslash : ¬ (c = '/' ∧ rest.head? = some '/') :=
        fun hslashes => head?_ne_slash hcomment hslashes.1 hslashes.2
      generalize beforeComment rest = code at ih
      cases ih with
      | whole h => exact .whole (mt slashes_infix_cons_iff.1 (not_or.2 ⟨hslash, h⟩))
      | @cut code comment h =>
          rw [← List.cons_append]
          refine .cut (mt slashes_infix_cons_iff.1 (not_or.2 ⟨?_, h⟩))
          rintro ⟨hc, hhead⟩
          refine hslash ⟨hc, ?_⟩
          cases code with
          | nil => rfl
          | cons d code => exact hhead

theorem isCode_iff {line code : List Char} : IsCode line code ↔ beforeComment line = code := by
  constructor
  · exact IsCode.beforeComment_eq
  · rintro rfl
    exact isCode_beforeComment line

theorem IsCode.slashes_not_in {line code : List Char} (h : IsCode line code) :
    ¬ ['/', '/'] <:+: code := by
  cases h with
  | whole h => exact h
  | cut h => exact fun hslashes => h (hslashes.trans (List.prefix_append code ['/']).isInfix)

/-! ## Commas -/

/-- A register operand without the commas at its end, and any other operand as it is. -/
inductive LosesCommas : Token → Token → Prop where
  | register {kept : Token} (commas : Nat) (hname : kept.head? = some 'R')
      (hlast : kept.getLast? ≠ some ',') : LosesCommas (kept ++ List.replicate commas ',') kept
  | other {token : Token} (h : token.head? ≠ some 'R') : LosesCommas token token

theorem LosesCommas.stripComma_eq {token kept : Token} (h : LosesCommas token kept) :
    stripComma token = kept := by
  cases h with
  | register commas hname hlast =>
      obtain ⟨rest, rfl⟩ := List.head?_eq_some_iff.1 hname
      have hlooks : looksLikeRegister ('R' :: rest ++ List.replicate commas ',') = true := rfl
      have hcommas : ∀ c ∈ List.replicate commas ',', (c == ',') = true :=
        fun c hc => beq_iff_eq.2 (List.eq_of_mem_replicate hc)
      rw [stripComma, if_pos hlooks, dropTrailing_append_of_forall_true hcommas]
      refine dropTrailing_eq_self fun c hc => beq_eq_false_iff_ne.2 ?_
      rintro rfl
      exact hlast hc
  | other h =>
      have hlooks : ¬ looksLikeRegister token = true := fun hlooks => h (beq_iff_eq.1 hlooks)
      rw [stripComma, if_neg hlooks]

theorem losesCommas_stripComma (token : Token) : LosesCommas token (stripComma token) := by
  by_cases hlooks : looksLikeRegister token = true
  · obtain ⟨rest, rfl⟩ := List.head?_eq_some_iff.1 (beq_iff_eq.1 hlooks)
    obtain ⟨suffix, hsuffix, htoken⟩ := exists_dropTrailing_append (· == ',') ('R' :: rest)
    have hcommas : suffix = List.replicate suffix.length ',' :=
      List.eq_replicate_of_mem fun c hc => beq_iff_eq.1 (hsuffix c hc)
    have hname : (dropTrailing (· == ',') ('R' :: rest)).head? = some 'R' := by
      rw [dropTrailing_cons_of_false rfl]
      rfl
    have hlast : (dropTrailing (· == ',') ('R' :: rest)).getLast? ≠ some ',' :=
      fun hlast => absurd (getLast?_dropTrailing _ _ _ hlast) (by decide)
    have hloses := LosesCommas.register suffix.length hname hlast
    rw [← hcommas, htoken] at hloses
    rwa [stripComma, if_pos hlooks]
  · rw [stripComma, if_neg hlooks]
    exact .other fun hname => hlooks (beq_iff_eq.2 hname)

theorem losesCommas_iff (token kept : Token) :
    LosesCommas token kept ↔ stripComma token = kept := by
  constructor
  · exact LosesCommas.stripComma_eq
  · rintro rfl
    exact losesCommas_stripComma token

/-- Lists that correspond item by item through a function. -/
theorem forall₂_iff_map_eq {α β : Type} {related : α → β → Prop} {f : α → β}
    (h : ∀ a b, related a b ↔ f a = b) {as : List α} {bs : List β} :
    List.Forall₂ related as bs ↔ as.map f = bs := by
  rw [← List.forall₂_eq_eq_eq, List.forall₂_map_left_iff]
  constructor
  · exact List.Forall₂.imp fun a b => (h a b).1
  · exact List.Forall₂.imp fun a b => (h a b).2

/-! ## Lines and source texts -/

/-- The tokens of a line. Its first token names an operation and keeps its commas. -/
inductive LineHasTokens (line : List Char) : TokenLine → Prop where
  | blank {code : List Char} (hcode : IsCode line code) (hruns : MaximalRuns (upper code) []) :
      LineHasTokens line []
  | tokens {code : List Char} {operation : Token} {operands kept : List Token}
      (hcode : IsCode line code) (hruns : MaximalRuns (upper code) (operation :: operands))
      (hcommas : List.Forall₂ LosesCommas operands kept) :
      LineHasTokens line (operation :: kept)

/-- The lines of a text are what line feeds stand between. -/
structure HasLines (text : List Char) (lines : List (List Char)) : Prop where
  text_eq : text = ['\n'].intercalate lines
  ne_nil : lines ≠ []
  newline_not_mem : ∀ line ∈ lines, '\n' ∉ line

/-- The tokens of a source text are those of its lines, without the lines that have none. -/
def HasTokens (source : String) (result : List TokenLine) : Prop :=
  ∃ lines tokens, HasLines source.toList lines ∧ List.Forall₂ LineHasTokens lines tokens ∧
    result = tokens.filter (· ≠ [])

theorem lineHasTokens_iff (line : List Char) (tokens : TokenLine) :
    LineHasTokens line tokens ↔ tokensOfLine line = tokens := by
  rw [tokensOfLine_eq_of_upper]
  constructor
  · intro h
    cases h with
    | blank hcode hruns => rw [isCode_iff.1 hcode, maximalRuns_iff.1 hruns, stripOperandCommas]
    | tokens hcode hruns hcommas =>
        rw [isCode_iff.1 hcode, maximalRuns_iff.1 hruns, stripOperandCommas,
          (forall₂_iff_map_eq losesCommas_iff).1 hcommas]
  · rintro rfl
    have hcode := isCode_beforeComment line
    cases hruns : runs (upper (beforeComment line)) with
    | nil => exact .blank hcode (maximalRuns_iff.2 hruns)
    | cons operation operands =>
        have hcommas := (forall₂_iff_map_eq losesCommas_iff).2 (Eq.refl (operands.map stripComma))
        exact .tokens hcode (maximalRuns_iff.2 hruns) hcommas

theorem hasLines_iff {text : List Char} {ls : List (List Char)} :
    HasLines text ls ↔ lines text = ls := by
  constructor
  · rintro ⟨rfl, hne, hnewline⟩
    exact List.splitOn_intercalate '\n' hnewline hne
  · rintro rfl
    refine ⟨(List.intercalate_splitOn '\n').symm, List.splitOn_ne_nil '\n' text, ?_⟩
    intro line hline hmem
    have hother := false_of_mem_splitOnP hline '\n' hmem
    exact absurd hother (by decide)

theorem hasTokens_iff {source : String} {result : List TokenLine} :
    HasTokens source result ↔ result = tokenLines source := by
  simp only [HasTokens, hasLines_iff, forall₂_iff_map_eq lineHasTokens_iff]
  constructor
  · rintro ⟨ls, tokens, rfl, rfl, hresult⟩
    exact hresult
  · exact fun hresult => ⟨_, _, rfl, rfl, hresult⟩

/-! ## Every token -/

/-- A token of a line is not empty, and neither a separator nor a `//` is in it. -/
structure Proper (token : Token) : Prop where
  ne_nil : token ≠ []
  unbroken : Unbroken token
  slashes_not_in : ¬ ['/', '/'] <:+: token

theorem MaximalRuns.proper {text : List Char} {found : List Token} (h : MaximalRuns text found)
    (htext : ¬ ['/', '/'] <:+: text) : ∀ token ∈ found, Proper token := by
  induction h with
  | none => exact nofun
  | @more gap rest run others hgap hne hrun hstop h ih =>
      have hfirst : run <:+: gap ++ (run ++ rest) := ⟨gap, rest, List.append_assoc _ _ _⟩
      have hrest : rest <:+: gap ++ (run ++ rest) :=
        ((List.suffix_append run rest).trans (List.suffix_append gap _)).isInfix
      refine List.forall_mem_cons.2 ⟨⟨hne, hrun, ?_⟩, ih ?_⟩
      · exact fun hslashes => htext (hslashes.trans hfirst)
      · exact fun hslashes => htext (hslashes.trans hrest)

theorem Proper.stripComma {token : Token} (h : Proper token) : Proper (stripComma token) := by
  have hunbroken := h.unbroken.stripComma
  have hloses := losesCommas_stripComma token
  generalize Assembly.stripComma token = kept at hunbroken hloses ⊢
  cases hloses with
  | register commas hname hlast =>
      have hkept : kept <+: kept ++ List.replicate commas ',' := List.prefix_append _ _
      refine ⟨?_, hunbroken, fun hslashes => ?_⟩
      · rintro rfl
        cases hname
      · exact h.slashes_not_in (hslashes.trans hkept.isInfix)
  | other => exact h

theorem proper_of_mem_tokensOfLine {line : List Char} {token : Token}
    (h : token ∈ tokensOfLine line) : Proper token := by
  have hcode : ¬ ['/', '/'] <:+: upper (beforeComment line) := by
    rw [← beforeComment_upper]
    exact (isCode_beforeComment (upper line)).slashes_not_in
  have hproper := (maximalRuns_iff.2 rfl).proper hcode
  rw [tokensOfLine_eq_of_upper] at h
  cases hruns : runs (upper (beforeComment line)) with
  | nil =>
      rw [hruns] at h
      cases h
  | cons operation operands =>
      rw [hruns] at h hproper
      obtain ⟨hoperation, hoperands⟩ := List.forall_mem_cons.1 hproper
      rcases List.mem_cons.1 h with rfl | h
      · exact hoperation
      · obtain ⟨operand, hoperand, rfl⟩ := List.mem_map.1 h
        exact (hoperands operand hoperand).stripComma

end RegisterMachine.Assembly
