import RegisterMachine.Text.Separator
import RegisterMachine.Text.Upper
import Mathlib.Data.List.Basic

set_option autoImplicit false

/-! # Upper case and separators

The upper-case form of a character that is no separator has no separators in it
(`isSeparator_of_mem_upper`), so that a token stays one token when it is put into upper case.
Separators and slashes are their own upper-case forms (`upperChar_of_isSeparator`), no other
character turns into a slash (`slash_not_mem_upperChar`), and a text in upper case stays as it is
(`upper_upper`). Beyond ASCII all of this is a property of the tables: no run of theirs is shifted
onto a separator (`shifted_apart`) or onto a character that has another upper-case form
(`shifted_stays`), and no expansion has such characters (`expanded_apart`, `expanded_stays`). -/

namespace RegisterMachine.Text

/-! ## Code points -/

/-- The code points of the separators, by the first and the last one of each stretch. -/
def separatorSpans : List (Nat × Nat) :=
  [(0x09, 0x0D), (0x1C, 0x20), (0x85, 0x85), (0xA0, 0xA0), (0x1680, 0x1680), (0x2000, 0x200A),
    (0x2028, 0x2029), (0x202F, 0x202F), (0x205F, 0x205F), (0x3000, 0x3000)]

theorem exists_span_of_isSeparator {c : Char} (h : isSeparator c = true) :
    ∃ span ∈ separatorSpans, span.1 ≤ c.toNat ∧ c.toNat ≤ span.2 := by
  simp only [isSeparator, Bool.or_eq_true, Bool.and_eq_true, decide_eq_true_eq, beq_iff_eq] at h
  simp only [separatorSpans, List.mem_cons, List.not_mem_nil, or_false, exists_eq_or_imp,
    exists_eq_left]
  omega

/-- A code point that is no character at all stands for the null character. -/
theorem toNat_ofNat_or_null (code : Nat) :
    (Char.ofNat code).toNat = code ∨ Char.ofNat code = '\x00' := by
  by_cases hvalid : code.isValidChar
  · left
    rw [Char.ofNat, dif_pos hvalid]
    rfl
  · exact .inr (dif_neg hvalid)

/-- A code point outside the stretches is no separator. -/
theorem isSeparator_ofNat {code : Nat}
    (h : ∀ span ∈ separatorSpans, span.2 < code ∨ code < span.1) :
    isSeparator (Char.ofNat code) = false := by
  by_contra hseparator
  rw [Bool.not_eq_false] at hseparator
  obtain ⟨span, hspan, hlow, hhigh⟩ := exists_span_of_isSeparator hseparator
  rcases toNat_ofNat_or_null code with hcode | hnull
  · have hapart := h span hspan
    omega
  · rw [hnull] at hseparator
    exact absurd hseparator (by decide)

theorem separatorSpans_pos : ∀ span ∈ separatorSpans, 0 < span.1 := by
  decide

/-! ## Tables -/

theorem shifted_apart : ∀ run ∈ caseRuns, ∀ span ∈ separatorSpans,
    (span.2 : Int) < run.first + run.shift ∨ run.last + run.shift < span.1 := by
  decide +kernel

theorem expanded_apart : ∀ entry ∈ caseExpansions, ∀ code ∈ entry.2, ∀ span ∈ separatorSpans,
    span.2 < code ∨ code < span.1 := by
  decide +kernel

theorem expanded_ne_nil : ∀ entry ∈ caseExpansions, entry.2 ≠ [] := by
  decide +kernel

/-- The slash has the code point 0x2F, and no character turns into it or into one before it. -/
theorem slash_lt_shifted : ∀ run ∈ caseRuns, (0x2F : Int) < run.first + run.shift := by
  decide +kernel

theorem slash_lt_expanded : ∀ entry ∈ caseExpansions, ∀ code ∈ entry.2, 0x2F < code := by
  decide +kernel

/-- Whether no code point of a stretch has another upper-case form. In a stretch with gaps only
    every second code point counts, from the first one on. -/
def spanStays (low high : Nat) (gaps : Bool) : Bool :=
  (Nat.blt high 0x61 || Nat.blt 0x7A low) &&
    caseRuns.all (fun run => Nat.blt run.last low || Nat.blt high run.first ||
      (gaps && Nat.beq run.stride 2 && Nat.beq ((low + run.first) % 2) 1)) &&
    caseExpansions.all fun entry => Nat.blt entry.1 low || Nat.blt high entry.1

theorem shifted_stays : ∀ run ∈ caseRuns,
    spanStays (run.first + run.shift : Int).toNat (run.last + run.shift : Int).toNat
      (run.stride == 2 || run.first == run.last) = true := by
  decide +kernel

theorem expanded_stays : ∀ entry ∈ caseExpansions, ∀ code ∈ entry.2,
    spanStays code code true = true := by
  decide +kernel

theorem separator_stays : ∀ span ∈ separatorSpans, spanStays span.1 span.2 false = true := by
  decide +kernel

/-! ## Characters and texts -/

/-- How the upper-case form of a character comes about. -/
inductive Uppercased (c : Char) : List Char → Prop where
  | ascii (h : c.toNat < 0x80) : Uppercased c [c.toUpper]
  | shifted {run : CaseRun} (hrun : run ∈ caseRuns) (hfirst : run.first ≤ c.toNat)
      (hlast : c.toNat ≤ run.last) (hstride : (c.toNat - run.first) % run.stride = 0) :
      Uppercased c [Char.ofNat ((c.toNat : Int) + run.shift).toNat]
  | expanded {codes : List Nat} (hcodes : (c.toNat, codes) ∈ caseExpansions) :
      Uppercased c (codes.map Char.ofNat)
  | same : Uppercased c [c]

theorem uppercased (c : Char) : Uppercased c (upperChar c) := by
  unfold upperChar
  dsimp only
  split
  · rename_i hascii
    exact .ascii hascii
  · split
    · rename_i run hrun
      have hcontains := List.find?_some hrun
      simp only [CaseRun.contains, Bool.and_eq_true, decide_eq_true_eq, beq_iff_eq] at hcontains
      obtain ⟨⟨hfirst, hlast⟩, hstride⟩ := hcontains
      exact .shifted (List.mem_of_find?_eq_some hrun) hfirst hlast hstride
    · split
      · rename_i codes hcodes
        obtain ⟨before, after, hentries, -⟩ := List.lookup_eq_some_iff.1 hcodes
        have hentry : (c.toNat, codes) ∈ caseExpansions := by
          rw [hentries]
          exact List.mem_append_right _ List.mem_cons_self
        exact .expanded hentry
      · exact .same

theorem isSeparator_toUpper {c : Char} (hascii : c.toNat < 0x80) (h : isSeparator c = false) :
    isSeparator c.toUpper = false := by
  have hall : ∀ code : Fin 0x80, isSeparator (Char.ofNat code) = false →
      isSeparator (Char.ofNat code).toUpper = false := by decide
  have hchar := hall ⟨c.toNat, hascii⟩
  rw [Char.ofNat_toNat] at hchar
  exact hchar h

theorem isSeparator_of_mem_upperChar {c d : Char} (hc : isSeparator c = false)
    (hd : d ∈ upperChar c) : isSeparator d = false := by
  have hupper := uppercased c
  generalize upperChar c = letters at hupper hd
  cases hupper with
  | ascii hascii =>
      rw [List.mem_singleton.1 hd]
      exact isSeparator_toUpper hascii hc
  | @shifted run hrun hfirst hlast =>
      rw [List.mem_singleton.1 hd]
      refine isSeparator_ofNat fun span hspan => ?_
      have hapart := shifted_apart run hrun span hspan
      have hpos := separatorSpans_pos span hspan
      omega
  | expanded hcodes =>
      obtain ⟨code, hcode, rfl⟩ := List.mem_map.1 hd
      exact isSeparator_ofNat (expanded_apart _ hcodes code hcode)
  | same =>
      rw [List.mem_singleton.1 hd]
      exact hc

theorem isSeparator_of_mem_upper {text : List Char} (h : ∀ c ∈ text, isSeparator c = false) :
    ∀ d ∈ upper text, isSeparator d = false := by
  intro d hd
  obtain ⟨c, hc, hmem⟩ := List.mem_flatMap.1 hd
  exact isSeparator_of_mem_upperChar (h c hc) hmem

/-! ## Upper case twice -/

theorem toUpper_of_not_small {c : Char} (h : c.toNat < 0x61 ∨ 0x7A < c.toNat) : c.toUpper = c := by
  refine dif_neg fun hletter => ?_
  have hlow : 0x61 ≤ c.toNat := UInt32.le_iff_toNat_le.1 hletter.1
  have hhigh : c.toNat ≤ 0x7A := UInt32.le_iff_toNat_le.1 hletter.2
  omega

/-- A code point of a stretch that stays is in none of the tables. -/
theorem upperChar_of_spanStays {low high code : Nat} {gaps : Bool}
    (h : spanStays low high gaps = true) (hlow : low ≤ code) (hhigh : code ≤ high)
    (hgaps : gaps = true → (code - low) % 2 = 0) :
    upperChar (Char.ofNat code) = [Char.ofNat code] := by
  simp only [spanStays, Bool.and_eq_true, Bool.or_eq_true, List.all_eq_true, Nat.blt_eq] at h
  obtain ⟨⟨hletters, hruns⟩, hexpansions⟩ := h
  rcases toNat_ofNat_or_null code with hcode | hnull
  · have hupper := uppercased (Char.ofNat code)
    generalize upperChar (Char.ofNat code) = letters at hupper ⊢
    cases hupper with
    | ascii hascii => rw [toUpper_of_not_small (by omega)]
    | @shifted run hrun hfirst hlast hstride =>
        exfalso
        rcases hruns run hrun with (hother | hother) | ⟨⟨hg, htwo⟩, hparity⟩
        · omega
        · omega
        · -- The stretch and the run hold code points of different parity.
          have heven := hgaps hg
          have hodd := Nat.eq_of_beq_eq_true hparity
          rw [Nat.eq_of_beq_eq_true htwo] at hstride
          omega
    | expanded hcodes =>
        have := hexpansions _ hcodes
        omega
    | same => rfl
  · rw [hnull]
    rfl

/-- A character of an upper-case form is its own upper-case form. -/
theorem upperChar_of_mem_upperChar {c d : Char} (h : d ∈ upperChar c) : upperChar d = [d] := by
  have hupper := uppercased c
  generalize hletters : upperChar c = letters at hupper h
  cases hupper with
  | ascii hascii =>
      rw [List.mem_singleton.1 h]
      have hall : ∀ code : Fin 0x80, upperChar (Char.ofNat code).toUpper =
          [(Char.ofNat code).toUpper] := by decide
      have hchar := hall ⟨c.toNat, hascii⟩
      rwa [Char.ofNat_toNat] at hchar
  | @shifted run hrun hfirst hlast hstride =>
      rw [List.mem_singleton.1 h]
      have hpos := slash_lt_shifted run hrun
      refine upperChar_of_spanStays (shifted_stays run hrun) (by omega) (by omega) ?_
      intro hgaps
      simp only [Bool.or_eq_true, beq_iff_eq] at hgaps
      rcases hgaps with hgaps | hgaps
      · rw [hgaps] at hstride
        omega
      · omega
  | expanded hcodes =>
      obtain ⟨code, hcode, rfl⟩ := List.mem_map.1 h
      have hstays := expanded_stays _ hcodes code hcode
      exact upperChar_of_spanStays hstays (Nat.le_refl _) (Nat.le_refl _) fun _ => by omega
  | same =>
      rw [List.mem_singleton.1 h]
      exact hletters

theorem upper_of_forall_mem {text : List Char} (h : ∀ c ∈ text, upperChar c = [c]) :
    upper text = text := by
  induction text with
  | nil => rfl
  | cons c text ih =>
      obtain ⟨hc, htext⟩ := List.forall_mem_cons.1 h
      rw [upper_cons, hc, ih htext]
      rfl

/-- A text in upper case stays as it is. -/
theorem upper_upper (text : List Char) : upper (upper text) = upper text := by
  refine upper_of_forall_mem fun d hd => ?_
  obtain ⟨c, -, hmem⟩ := List.mem_flatMap.1 hd
  exact upperChar_of_mem_upperChar hmem

theorem upperChar_of_isSeparator {c : Char} (h : isSeparator c = true) : upperChar c = [c] := by
  obtain ⟨span, hspan, hlow, hhigh⟩ := exists_span_of_isSeparator h
  have hstays := upperChar_of_spanStays (separator_stays span hspan) hlow hhigh nofun
  rwa [Char.ofNat_toNat] at hstays

theorem upperChar_ne_nil (c : Char) : upperChar c ≠ [] := by
  have hupper := uppercased c
  generalize upperChar c = letters at hupper
  cases hupper with
  | expanded hcodes => exact mt List.map_eq_nil_iff.1 (expanded_ne_nil _ hcodes)
  | _ => exact List.cons_ne_nil _ _

theorem upper_eq_nil_iff {text : List Char} : upper text = [] ↔ text = [] := by
  cases text with
  | nil => simp
  | cons c text => simp [upperChar_ne_nil c]

/-! ## Slashes -/

theorem ofNat_ne_slash {code : Nat} (h : 0x2F < code) : Char.ofNat code ≠ '/' := by
  intro hslash
  rcases toNat_ofNat_or_null code with hcode | hnull
  · rw [hslash] at hcode
    exact absurd hcode (Nat.ne_of_lt h)
  · rw [hnull] at hslash
    exact absurd hslash (by decide)

/-- Only a slash turns into a slash. -/
theorem slash_not_mem_upperChar {c : Char} (h : c ≠ '/') : '/' ∉ upperChar c := by
  have hupper := uppercased c
  generalize upperChar c = letters at hupper
  intro hmem
  cases hupper with
  | ascii hascii =>
      have hall : ∀ code : Fin 0x80, (Char.ofNat code).toUpper = '/' → Char.ofNat code = '/' := by
        decide
      have hchar := hall ⟨c.toNat, hascii⟩
      rw [Char.ofNat_toNat] at hchar
      exact h (hchar (List.mem_singleton.1 hmem).symm)
  | @shifted run hrun hfirst =>
      have hpos := slash_lt_shifted run hrun
      exact ofNat_ne_slash (by omega) (List.mem_singleton.1 hmem).symm
  | expanded hcodes =>
      obtain ⟨code, hcode, hslash⟩ := List.mem_map.1 hmem
      exact ofNat_ne_slash (slash_lt_expanded _ hcodes code hcode) hslash
  | same => exact h (List.mem_singleton.1 hmem).symm

end RegisterMachine.Text
