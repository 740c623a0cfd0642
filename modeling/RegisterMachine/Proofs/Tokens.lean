import RegisterMachine.Assembly.Encode
import Mathlib.Data.List.TakeWhile

set_option autoImplicit false

/-! # Lines of plain tokens

The characters of mnemonics, registers and literals are `Plain`: they are ASCII, and neither
separators nor slashes. `RendersLine` relates plain tokens to every line that has them in order,
with any separators around them and with or without a comment at the end; such a line has these
tokens and no others (`runs_of_rendersLine`). Reading a plain token changes nothing but its case
(`upper_of_plain`, `canonicalToken_of_plain`). -/

namespace RegisterMachine.Assembly

open Text

/-! ## Plain characters -/

/-- An ASCII character behind the asterisk that is no slash. -/
def Plain (c : Char) : Prop :=
  0x2A < c.toNat ∧ c.toNat < 0x80 ∧ c ≠ '/'

instance (c : Char) : Decidable (Plain c) :=
  inferInstanceAs (Decidable (_ ∧ _))

theorem isSeparator_of_plain {c : Char} (h : Plain c) : isSeparator c = false := by
  obtain ⟨hlow, hhigh, -⟩ := h
  simp only [isSeparator, Bool.or_eq_false_iff, Bool.and_eq_false_iff, decide_eq_false_iff_not,
    beq_eq_false_iff_ne, ne_eq]
  omega

/-- Only small letters change in upper case. -/
theorem plain_of_toUpper {c : Char} (h : Plain c.toUpper) : Plain c := by
  unfold Char.toUpper at h
  split at h
  · rename_i hletter
    have hlow : 97 ≤ c.toNat := UInt32.le_iff_toNat_le.1 hletter.1
    have hhigh : c.toNat ≤ 122 := UInt32.le_iff_toNat_le.1 hletter.2
    refine ⟨by omega, by omega, ?_⟩
    rintro rfl
    exact absurd hlow (by decide)
  · exact h

theorem plain_of_isDigit {c : Char} (h : c.isDigit = true) : Plain c := by
  simp only [Char.isDigit, Bool.and_eq_true, decide_eq_true_eq] at h
  have hlow : 48 ≤ c.toNat := UInt32.le_iff_toNat_le.1 h.1
  have hhigh : c.toNat ≤ 57 := UInt32.le_iff_toNat_le.1 h.2
  refine ⟨by omega, by omega, ?_⟩
  rintro rfl
  exact absurd hlow (by decide)

theorem toUpper_of_isDigit {c : Char} (h : c.isDigit = true) : c.toUpper = c := by
  simp only [Char.isDigit, Bool.and_eq_true, decide_eq_true_eq] at h
  have hhigh : c.toNat ≤ 57 := UInt32.le_iff_toNat_le.1 h.2
  refine dif_neg fun hletter => ?_
  have hlow : 97 ≤ c.toNat := UInt32.le_iff_toNat_le.1 hletter.1
  omega

/-- A token of plain characters. -/
structure PlainToken (token : Token) : Prop where
  ne_nil : token ≠ []
  plain : ∀ c ∈ token, Plain c

/-! ## Upper case -/

theorem upper_of_plain {text : List Char} (h : ∀ c ∈ text, Plain c) :
    upper text = text.map Char.toUpper := by
  induction text with
  | nil => rfl
  | cons c text ih =>
      obtain ⟨hc, htext⟩ := List.forall_mem_cons.1 h
      rw [upper_cons, upperChar_of_ascii hc.2.1, ih htext]
      rfl

theorem dropWhile_of_false {α : Type} {p : α → Bool} {items : List α}
    (h : ∀ a ∈ items, p a = false) : items.dropWhile p = items := by
  rw [List.dropWhile_eq_self_iff]
  intro hlength
  rw [h _ (List.getElem_mem hlength)]
  decide

theorem dropTrailing_of_false {α : Type} {p : α → Bool} {items : List α}
    (h : ∀ a ∈ items, p a = false) : dropTrailing p items = items :=
  dropTrailing_eq_self fun a ha => h a (List.mem_of_getLast? ha)

theorem dropTrailing_append_of_forall_true {α : Type} {p : α → Bool} {suffix : List α}
    (h : ∀ a ∈ suffix, p a = true) (items : List α) :
    dropTrailing p (items ++ suffix) = dropTrailing p items := by
  have hreverse : ∀ a ∈ suffix.reverse, p a = true := fun a ha => h a (List.mem_reverse.1 ha)
  rw [dropTrailing, List.reverse_append, List.dropWhile_append_of_pos hreverse, dropTrailing]

theorem trim_of_false {α : Type} {p : α → Bool} {items : List α} (h : ∀ a ∈ items, p a = false) :
    trim p items = items := by
  rw [trim, dropWhile_of_false h, dropTrailing_of_false h]

/-- A plain token in upper case is encoded as it is. -/
theorem canonicalToken_of_plain {token : Token} (h : ∀ c ∈ token, Plain c)
    (hupper : token.map Char.toUpper = token) : canonicalToken token = token := by
  rw [canonicalToken, trim_of_false fun c hc => isSeparator_of_plain (h c hc), upper_of_plain h,
    hupper]

/-! ## Runs -/

theorem runs_append_cons {c : Char} (hc : isSeparator c = true) (before after : List Char) :
    runs (before ++ c :: after) = runs before ++ runs after := by
  rw [runs, List.splitOnP_append_cons _ _ hc, List.filter_append]
  rfl

theorem runs_nil : runs [] = [] := by
  simp [runs, List.splitOnP_nil]

/-- Separators at the front belong to no run. -/
theorem runs_append_of_separators {gap : List Char} (h : ∀ c ∈ gap, isSeparator c = true)
    (text : List Char) : runs (gap ++ text) = runs text := by
  induction gap with
  | nil => rfl
  | cons c gap ih =>
      obtain ⟨hc, hgap⟩ := List.forall_mem_cons.1 h
      have hcons := runs_append_cons hc [] (gap ++ text)
      rw [runs_nil, List.nil_append, List.nil_append] at hcons
      rw [List.cons_append, hcons, ih hgap]

theorem runs_of_separators {gap : List Char} (h : ∀ c ∈ gap, isSeparator c = true) :
    runs gap = [] := by
  have happend := runs_append_of_separators h []
  rwa [List.append_nil, runs_nil] at happend

theorem runs_of_false {run : List Char} (hne : run ≠ [])
    (h : ∀ c ∈ run, isSeparator c = false) : runs run = [run] := by
  rw [runs, List.splitOnP_eq_singleton h]
  simp [hne]

theorem runs_of_plain {token : Token} (h : PlainToken token) : runs token = [token] :=
  runs_of_false h.ne_nil fun c hc => isSeparator_of_plain (h.plain c hc)

/-! ## Comments -/

theorem beforeComment_append {text : List Char} (h : '/' ∉ text) (rest : List Char) :
    beforeComment (text ++ rest) = text ++ beforeComment rest := by
  induction text with
  | nil => rfl
  | cons c text ih =>
      obtain ⟨hc, htext⟩ := not_or.1 (mt List.mem_cons.2 h)
      rw [List.cons_append, beforeComment, ih htext, List.cons_append]
      intro _ heq
      exact absurd heq.symm hc

/-! ## Lines -/

/-- Separators that stay in their line. -/
def IsGap (gap : List Char) : Prop :=
  ∀ c ∈ gap, isSeparator c = true ∧ c ≠ '\n'

instance (gap : List Char) : Decidable (IsGap gap) :=
  List.decidableBAll _ gap

/-- Nothing, or a comment that goes to the end of its line. -/
inductive IsComment : List Char → Prop where
  | absent : IsComment []
  | slashes {rest : List Char} (h : '\n' ∉ rest) : IsComment ('/' :: '/' :: rest)

/-- Tokens in order, with a gap between each two of them. -/
inductive Spaced : List Token → List Char → Prop where
  | none : Spaced [] []
  | last {token : Token} : Spaced [token] token
  | more {token gap text : List Char} {tokens : List Token} (hgap : IsGap gap) (hne : gap ≠ [])
      (h : Spaced tokens text) : Spaced (token :: tokens) (token ++ (gap ++ text))

/-- A line that has the given tokens. -/
inductive RendersLine (tokens : List Token) : List Char → Prop where
  | line {lead body trail comment : List Char} (hlead : IsGap lead) (hbody : Spaced tokens body)
      (htrail : IsGap trail) (hcomment : IsComment comment) :
      RendersLine tokens (lead ++ (body ++ (trail ++ comment)))

theorem IsGap.isSeparator {gap : List Char} (h : IsGap gap) : ∀ c ∈ gap, isSeparator c = true :=
  fun c hc => (h c hc).1

/-- The characters of a line before its comment are neither slashes nor line feeds. -/
def Uncommented (text : List Char) : Prop :=
  '/' ∉ text ∧ '\n' ∉ text

theorem Uncommented.append {s t : List Char} (hs : Uncommented s) (ht : Uncommented t) :
    Uncommented (s ++ t) := by
  refine ⟨fun h => ?_, fun h => ?_⟩
  · exact (List.mem_append.1 h).elim hs.1 ht.1
  · exact (List.mem_append.1 h).elim hs.2 ht.2

theorem IsGap.uncommented {gap : List Char} (h : IsGap gap) : Uncommented gap := by
  refine ⟨fun hslash => ?_, fun hnewline => (h _ hnewline).2 rfl⟩
  exact absurd (h _ hslash).1 (by decide)

theorem PlainToken.uncommented {token : Token} (h : PlainToken token) : Uncommented token := by
  refine ⟨fun hslash => (h.plain _ hslash).2.2 rfl, fun hnewline => ?_⟩
  exact absurd (h.plain _ hnewline) (by decide)

theorem Spaced.uncommented {tokens : List Token} {text : List Char} (h : Spaced tokens text)
    (hplain : ∀ token ∈ tokens, PlainToken token) : Uncommented text := by
  induction h with
  | none => exact ⟨List.not_mem_nil, List.not_mem_nil⟩
  | last => exact (hplain _ List.mem_cons_self).uncommented
  | more hgap hne h ih =>
      obtain ⟨htoken, htokens⟩ := List.forall_mem_cons.1 hplain
      exact htoken.uncommented.append (hgap.uncommented.append (ih htokens))

/-- A token ends at the gap behind it. -/
theorem runs_token_append {token gap : List Char} (htoken : PlainToken token) (hgap : IsGap gap)
    (hne : gap ≠ []) (text : List Char) :
    runs (token ++ (gap ++ text)) = token :: runs text := by
  cases gap with
  | nil => exact absurd rfl hne
  | cons c gap =>
      obtain ⟨hc, hrest⟩ := List.forall_mem_cons.1 hgap.isSeparator
      rw [List.cons_append, runs_append_cons hc, runs_of_plain htoken,
        runs_append_of_separators hrest]
      rfl

theorem runs_of_spaced {tokens : List Token} {text trail : List Char} (h : Spaced tokens text)
    (hplain : ∀ token ∈ tokens, PlainToken token) (htrail : IsGap trail) :
    runs (text ++ trail) = tokens := by
  induction h with
  | none => exact runs_of_separators htrail.isSeparator
  | last =>
      have htoken := hplain _ List.mem_cons_self
      by_cases hne : trail = []
      · rw [hne, List.append_nil, runs_of_plain htoken]
      · rw [← List.append_nil trail, runs_token_append htoken htrail hne, runs_nil]
  | more hgap hne h ih =>
      obtain ⟨htoken, htokens⟩ := List.forall_mem_cons.1 hplain
      rw [List.append_assoc, List.append_assoc, runs_token_append htoken hgap hne, ih htokens]

theorem beforeComment_of_isComment {comment : List Char} (h : IsComment comment) :
    beforeComment comment = [] := by
  cases h <;> rfl

theorem newline_not_mem_of_isComment {comment : List Char} (h : IsComment comment) :
    '\n' ∉ comment := by
  have hslash : '\n' ≠ '/' := by decide
  cases h with
  | absent => exact List.not_mem_nil
  | slashes hrest =>
      refine List.not_mem_cons_of_ne_of_not_mem hslash ?_
      exact List.not_mem_cons_of_ne_of_not_mem hslash hrest

/-- A line has the tokens that it renders and no others. -/
theorem runs_of_rendersLine {tokens : List Token} {line : List Char} (h : RendersLine tokens line)
    (hplain : ∀ token ∈ tokens, PlainToken token) : runs (beforeComment line) = tokens := by
  obtain ⟨hlead, hbody, htrail, hcomment⟩ := h
  rw [beforeComment_append hlead.uncommented.1,
    beforeComment_append (hbody.uncommented hplain).1, beforeComment_append htrail.uncommented.1,
    beforeComment_of_isComment hcomment, List.append_nil,
    runs_append_of_separators hlead.isSeparator, runs_of_spaced hbody hplain htrail]

theorem newline_not_mem_of_rendersLine {tokens : List Token} {line : List Char}
    (h : RendersLine tokens line) (hplain : ∀ token ∈ tokens, PlainToken token) :
    '\n' ∉ line := by
  obtain ⟨hlead, hbody, htrail, hcomment⟩ := h
  have hcode := hlead.uncommented.append ((hbody.uncommented hplain).append htrail.uncommented)
  have hline := List.not_mem_append hcode.2 (newline_not_mem_of_isComment hcomment)
  rwa [List.append_assoc, List.append_assoc] at hline

end RegisterMachine.Assembly
