import RegisterMachine.Proofs.Tokens
import RegisterMachine.Proofs.UpperCase

set_option autoImplicit false

/-! # Upper case before and after cutting

A text can be put into upper case before it is cut into lines, into code and comment, and into
runs, or the parts can be put into upper case afterwards (`lines_upper`, `beforeComment_upper`,
`runs_upper`). So the tokens of a text can be read off its upper-case form
(`tokenLines_eq_of_upper`), and texts that are equal in upper case are assembled alike
(`same_assembly_of_upper_eq`), of whatever lengths they are. -/

namespace RegisterMachine.Assembly

open Text

/-! ## Pieces -/

/-- Items outside the class go to the front of the first piece. -/
theorem splitOnP_append_of_false {α : Type} {p : α → Bool} {front : List α}
    (h : ∀ a ∈ front, p a = false) (items : List α) :
    (front ++ items).splitOnP p = (items.splitOnP p).modifyHead (front ++ ·) := by
  induction front with
  | nil =>
      obtain ⟨first, pieces, hpieces⟩ :=
        List.exists_cons_of_ne_nil (List.splitOnP_ne_nil p items)
      rw [List.nil_append, hpieces]
      rfl
  | cons a front ih =>
      obtain ⟨ha, hfront⟩ := List.forall_mem_cons.1 h
      rw [List.cons_append, List.splitOnP_cons_eq_if_modifyHead, if_neg (by simp [ha]), ih hfront,
        List.modifyHead_modifyHead]
      rfl

/-- A split commutes with upper case if what it cuts at stays and nothing else turns into it. -/
theorem splitOnP_upper {p : Char → Bool} (hstays : ∀ c, p c = true → upperChar c = [c])
    (hapart : ∀ c, p c = false → ∀ d ∈ upperChar c, p d = false) (text : List Char) :
    (upper text).splitOnP p = (text.splitOnP p).map upper := by
  induction text with
  | nil => rfl
  | cons c text ih =>
      rw [upper_cons, List.splitOnP_cons_eq_if_modifyHead]
      by_cases hc : p c = true
      · rw [if_pos hc, hstays c hc, List.singleton_append, List.splitOnP_cons_eq_if_modifyHead,
          if_pos hc, ih]
        rfl
      · rw [if_neg hc, splitOnP_append_of_false (hapart c (Bool.not_eq_true _ ▸ hc)), ih]
        cases text.splitOnP p <;> rfl

/-! ## Lines, comments and runs -/

theorem newline_not_mem_upperChar {c : Char} (h : c ≠ '\n') : '\n' ∉ upperChar c := by
  intro hmem
  by_cases hseparator : isSeparator c = true
  · rw [upperChar_of_isSeparator hseparator] at hmem
    exact h (List.mem_singleton.1 hmem).symm
  · have hnewline := isSeparator_of_mem_upperChar (Bool.not_eq_true _ ▸ hseparator) hmem
    exact absurd hnewline (by decide)

theorem lines_upper (text : List Char) : lines (upper text) = (lines text).map upper := by
  refine splitOnP_upper (p := (· == '\n')) ?_ ?_ text
  · intro c hc
    rw [beq_iff_eq.1 hc]
    rfl
  · intro c hc d hd
    rw [beq_eq_false_iff_ne] at hc ⊢
    rintro rfl
    exact newline_not_mem_upperChar hc hd

theorem runs_upper (text : List Char) : runs (upper text) = (runs text).map upper := by
  rw [runs, runs, splitOnP_upper (fun _ => upperChar_of_isSeparator)
    (fun _ hc _ => isSeparator_of_mem_upperChar hc), List.filter_map]
  congr 1
  exact List.filter_congr fun piece _ => by simp [upper_eq_nil_iff]

/-- A text in upper case begins with a slash only if the text does. -/
theorem head?_upper_ne_slash {text : List Char} (h : text.head? ≠ some '/') :
    (upper text).head? ≠ some '/' := by
  cases text with
  | nil => exact h
  | cons c text =>
      have hc : c ≠ '/' := fun hc => h (congrArg some hc)
      obtain ⟨d, others, hletters⟩ := List.exists_cons_of_ne_nil (upperChar_ne_nil c)
      have hslash := slash_not_mem_upperChar hc
      rw [upper_cons, hletters, List.cons_append, List.head?_cons]
      rw [hletters] at hslash
      intro hd
      cases hd
      exact hslash List.mem_cons_self

/-- A single slash does not begin a comment. -/
theorem beforeComment_cons {c : Char} {rest : List Char} (h : c = '/' → rest.head? ≠ some '/') :
    beforeComment (c :: rest) = c :: beforeComment rest := by
  rw [beforeComment]
  intro later hc heq
  exact h hc (by rw [heq]; rfl)

theorem head?_ne_slash {c : Char} {rest : List Char}
    (h : ∀ comment, c = '/' → rest = '/' :: comment → False) (hc : c = '/') :
    rest.head? ≠ some '/' := by
  intro hhead
  obtain ⟨comment, hrest⟩ := List.head?_eq_some_iff.1 hhead
  exact h comment hc hrest

theorem beforeComment_upper (text : List Char) :
    beforeComment (upper text) = upper (beforeComment text) := by
  have hslash : upperChar '/' = ['/'] := rfl
  fun_induction beforeComment text with
  | case1 => rfl
  | case2 => rfl
  | case3 c rest hcomment ih =>
      rw [upper_cons, upper_cons, ← ih]
      by_cases hc : c = '/'
      · subst hc
        exact beforeComment_cons fun hc => head?_upper_ne_slash (head?_ne_slash hcomment hc)
      · exact beforeComment_append (slash_not_mem_upperChar hc) _

/-! ## Source texts -/

/-- The tokens of a line in upper case are there before its runs are put into upper case. -/
theorem tokensOfLine_eq_of_upper (line : List Char) :
    tokensOfLine line = stripOperandCommas (runs (upper (beforeComment line))) := by
  rw [tokensOfLine, runs_upper]

/-- The tokens of a source text are those of its upper-case form. -/
theorem tokenLines_eq_of_upper (source : String) :
    tokenLines source = ((lines (upper source.toList)).map fun line =>
      stripOperandCommas (runs (beforeComment line))).filter (· ≠ []) := by
  rw [tokenLines, lines_upper, List.map_map]
  congr 2
  funext line
  rw [tokensOfLine_eq_of_upper, ← beforeComment_upper]
  rfl

/-- Putting a source text into upper case does not change its tokens. -/
theorem tokenLines_ofList_upper (source : String) :
    tokenLines (String.ofList (upper source.toList)) = tokenLines source := by
  rw [tokenLines_eq_of_upper, tokenLines_eq_of_upper source, String.toList_ofList, upper_upper]

/-- Source texts with the same upper-case form have the same tokens, and are assembled to the same
    words or to the same failure, with the same notices. -/
theorem same_assembly_of_upper_eq {s t : String} (h : upper s.toList = upper t.toList) :
    tokenLines s = tokenLines t ∧ assemble s = assemble t := by
  have htokens : tokenLines s = tokenLines t := by
    rw [tokenLines_eq_of_upper s, tokenLines_eq_of_upper t, h]
  exact ⟨htokens, by rw [assemble, assemble, htokens]⟩

/-- Two lines and a comment, with letters that become two in upper case. -/
theorem same_assembly_of_upper_eq_expanded :
    let s := "movv R1,, 7 // ß\nﬁŉ r1,ß"
    let t := "MOVV r1,, 7 // sS\nfIʼn R1,Ss"
    upper s.toList = upper t.toList ∧ tokenLines s = tokenLines t ∧ assemble s = assemble t := by
  intro s t
  have hupper : upper s.toList = upper t.toList := by decide +kernel
  exact ⟨hupper, same_assembly_of_upper_eq hupper⟩

end RegisterMachine.Assembly
