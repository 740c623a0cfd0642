import RegisterMachine.Proofs.Tokens
import RegisterMachine.Assembly.Literal
import Mathlib.Data.Nat.Digits.Defs

set_option autoImplicit false

/-! # Numerals

A numeral is a run of ASCII digits within the digit limit, and a literal has at most one sign in
front of it. `SpellsLiteral` relates a number to all its spellings, its decimal text among them
(`spells_text`); every one of them is a plain token (`SpellsLiteral.plainToken`) that is read back
if the number fits a word, with or without blanks around it (`parseLiteral_eq_of_trim`). -/

namespace RegisterMachine.Assembly

open Text

/-! ## Digits -/

/-- One or more ASCII digits, not too many to be read. -/
structure IsNumeral (digits : List Char) : Prop where
  ne_nil : digits ≠ []
  isDigit : ∀ c ∈ digits, c.isDigit = true
  length_le : digits.length ≤ Decimal.digitLimit

/-- The value of a digit. -/
def digitValue (c : Char) : Nat :=
  c.toNat - '0'.toNat

/-- The number that a numeral spells, its last digit being the least significant. -/
def numeralValue (digits : List Char) : Nat :=
  Nat.ofDigits 10 (digits.map digitValue).reverse

/-- The spellings of a number: a numeral, with or without a plus sign, or behind a minus sign. -/
inductive SpellsLiteral : Int → List Char → Prop where
  | unsigned {digits : List Char} (h : IsNumeral digits) :
      SpellsLiteral (numeralValue digits) digits
  | plus {digits : List Char} (h : IsNumeral digits) :
      SpellsLiteral (numeralValue digits) ('+' :: digits)
  | minus {digits : List Char} (h : IsNumeral digits) :
      SpellsLiteral (-(numeralValue digits : Int)) ('-' :: digits)

theorem value_eq_ofDigits (digits : List Nat) :
    Decimal.value digits = Nat.ofDigits 10 digits.reverse := by
  rw [Nat.ofDigits_eq_foldr, List.foldr_reverse]
  simp only [Decimal.value, Nat.cast_id, Nat.add_comm]

theorem asciiDigit?_of_isDigit {c : Char} (h : c.isDigit = true) :
    asciiDigit? c = some (digitValue c) := by
  simp only [Char.isDigit, Bool.and_eq_true, decide_eq_true_eq] at h
  exact if_pos ⟨UInt32.le_iff_toNat_le.1 h.1, UInt32.le_iff_toNat_le.1 h.2⟩

theorem isDigit_of_asciiDigit? {c : Char} {d : Nat} (h : asciiDigit? c = some d) :
    c.isDigit = true := by
  unfold asciiDigit? at h
  split_ifs at h with hrange
  simp only [Char.isDigit, Bool.and_eq_true, decide_eq_true_eq]
  exact ⟨UInt32.le_iff_toNat_le.2 hrange.1, UInt32.le_iff_toNat_le.2 hrange.2⟩

/-- Digits at the front are split off, and more behind them if there are more. -/
theorem splitDigits_append {digits : List Char} (h : ∀ c ∈ digits, c.isDigit = true)
    (rest : List Char) :
    splitDigits (digits ++ rest) =
      (digits.map digitValue ++ (splitDigits rest).1, (splitDigits rest).2) := by
  induction digits with
  | nil => rfl
  | cons c digits ih =>
      obtain ⟨hc, hdigits⟩ := List.forall_mem_cons.1 h
      simp only [List.cons_append, splitDigits, asciiDigit?_of_isDigit hc, ih hdigits,
        List.map_cons]

/-- Every text is some digits, perhaps none, and what is left when they are split off. -/
theorem exists_splitDigits (text : List Char) :
    ∃ digits rest, text = digits ++ rest ∧ (∀ c ∈ digits, c.isDigit = true) ∧
      splitDigits text = (digits.map digitValue, rest) := by
  induction text with
  | nil => exact ⟨[], [], rfl, nofun, rfl⟩
  | cons c text ih =>
      cases hc : asciiDigit? c with
      | none => exact ⟨[], c :: text, rfl, nofun, by simp only [splitDigits, hc, List.map_nil]⟩
      | some d =>
          obtain ⟨digits, rest, rfl, hdigits, hsplit⟩ := ih
          have hdigit := isDigit_of_asciiDigit? hc
          refine ⟨c :: digits, rest, rfl, List.forall_mem_cons.2 ⟨hdigit, hdigits⟩, ?_⟩
          simp only [splitDigits, asciiDigit?_of_isDigit hdigit, hsplit, List.map_cons]

/-! ## Signs -/

/-- What may stand in front of a numeral, and whether it is a minus. -/
inductive IsSign : Bool → List Char → Prop where
  | absent : IsSign false []
  | plus : IsSign false ['+']
  | minus : IsSign true ['-']

/-- Every text has a sign, perhaps an absent one, at its front. -/
theorem exists_splitSign (text : List Char) :
    ∃ negative sign rest, IsSign negative sign ∧ text = sign ++ rest ∧
      splitSign text = (negative, rest) := by
  unfold splitSign
  split
  · exact ⟨_, _, _, .plus, rfl, rfl⟩
  · exact ⟨_, _, _, .minus, rfl, rfl⟩
  · exact ⟨_, _, _, .absent, rfl, rfl⟩

theorem isBlank_of_isDigit {c : Char} (hc : c.isDigit = true) : isBlank c = false := by
  rw [← Bool.not_eq_true]
  simp only [isBlank, Bool.or_eq_true, beq_iff_eq]
  rintro (((rfl | rfl) | rfl) | rfl) <;> exact absurd hc (by decide)

/-- A sign in front of a digit is split off, and no blanks are before it. -/
theorem splitSign_append {negative : Bool} {sign : List Char} {c : Char}
    (hsign : IsSign negative sign) (hc : c.isDigit = true) (text : List Char) :
    (sign ++ c :: text).dropWhile isBlank = sign ++ c :: text ∧
      splitSign (sign ++ c :: text) = (negative, c :: text) := by
  cases hsign with
  | absent =>
      have hblank : ¬ isBlank c = true := by
        rw [isBlank_of_isDigit hc]
        exact Bool.false_ne_true
      refine ⟨List.dropWhile_cons_of_neg hblank, ?_⟩
      rw [List.nil_append, splitSign]
      · rintro _ ⟨⟩
        exact absurd hc (by decide)
      · rintro _ ⟨⟩
        exact absurd hc (by decide)
  | plus => exact ⟨rfl, rfl⟩
  | minus => exact ⟨rfl, rfl⟩

/-- No text with a digit at its front, or behind its sign, has the form of a register. -/
theorem looksLikeRegister_of_isSign {negative : Bool} {sign : List Char} {c : Char}
    (hsign : IsSign negative sign) (hc : c.isDigit = true) (text : List Char) :
    looksLikeRegister (sign ++ c :: text) = false := by
  cases hsign with
  | absent =>
      simp only [looksLikeRegister, List.nil_append, List.head?_cons, beq_eq_false_iff_ne, ne_eq,
        Option.some.injEq]
      rintro rfl
      exact absurd hc (by decide)
  | plus => rfl
  | minus => rfl

/-- A sign and a numeral are a literal. -/
theorem spells_of_isSign {negative : Bool} {sign digits : List Char} (hsign : IsSign negative sign)
    (h : IsNumeral digits) :
    SpellsLiteral (signedValue negative (digits.map digitValue)) (sign ++ digits) := by
  have hvalue : Decimal.value (digits.map digitValue) = numeralValue digits := value_eq_ofDigits _
  rw [signedValue, hvalue]
  cases hsign with
  | absent => exact .unsigned h
  | plus => exact .plus h
  | minus => exact .minus h

theorem exists_isSign_of_spells {n : Int} {text : List Char} (h : SpellsLiteral n text) :
    ∃ negative sign digits, IsSign negative sign ∧ IsNumeral digits ∧ text = sign ++ digits ∧
      n = signedValue negative (digits.map digitValue) := by
  have hvalue (digits : List Char) : numeralValue digits = Decimal.value (digits.map digitValue) :=
    (value_eq_ofDigits _).symm
  cases h with
  | unsigned h => exact ⟨_, _, _, .absent, h, rfl, by rw [hvalue]; rfl⟩
  | plus h => exact ⟨_, _, _, .plus, h, rfl, by rw [hvalue]; rfl⟩
  | minus h => exact ⟨_, _, _, .minus, h, rfl, by rw [hvalue]; rfl⟩

/-! ## Plain tokens -/

theorem IsNumeral.plainToken {digits : List Char} (h : IsNumeral digits) : PlainToken digits :=
  ⟨h.ne_nil, fun c hc => plain_of_isDigit (h.isDigit c hc)⟩

theorem map_toUpper_of_isDigit {digits : List Char} (h : ∀ c ∈ digits, c.isDigit = true) :
    digits.map Char.toUpper = digits := by
  rw [List.map_congr_left fun c hc => toUpper_of_isDigit (h c hc), List.map_id']

theorem PlainToken.cons {c : Char} {token : Token} (hc : Plain c) (h : PlainToken token) :
    PlainToken (c :: token) :=
  ⟨List.cons_ne_nil c token, List.forall_mem_cons.2 ⟨hc, h.plain⟩⟩

theorem SpellsLiteral.plainToken {n : Int} {text : List Char} (h : SpellsLiteral n text) :
    PlainToken text := by
  cases h with
  | unsigned h => exact h.plainToken
  | plus h => exact .cons (by decide) h.plainToken
  | minus h => exact .cons (by decide) h.plainToken

/-- A literal has digits, and perhaps a sign. -/
theorem SpellsLiteral.isDigit_or {n : Int} {text : List Char} (h : SpellsLiteral n text) {c : Char}
    (hc : c ∈ text) : c.isDigit = true ∨ c = '+' ∨ c = '-' := by
  cases h with
  | unsigned h => exact Or.inl (h.isDigit c hc)
  | plus h =>
      rcases List.mem_cons.1 hc with rfl | hc
      · exact Or.inr (Or.inl rfl)
      · exact Or.inl (h.isDigit c hc)
  | minus h =>
      rcases List.mem_cons.1 hc with rfl | hc
      · exact Or.inr (Or.inr rfl)
      · exact Or.inl (h.isDigit c hc)

/-- A literal has no letters. -/
theorem SpellsLiteral.map_toUpper {n : Int} {text : List Char} (h : SpellsLiteral n text) :
    text.map Char.toUpper = text := by
  cases h with
  | unsigned h => exact map_toUpper_of_isDigit h.isDigit
  | plus h => rw [List.map_cons, map_toUpper_of_isDigit h.isDigit]; rfl
  | minus h => rw [List.map_cons, map_toUpper_of_isDigit h.isDigit]; rfl

/-- No literal has the form of a register. -/
theorem SpellsLiteral.looksLikeRegister {n : Int} {text : List Char} (h : SpellsLiteral n text) :
    looksLikeRegister text = false := by
  obtain ⟨negative, sign, digits, hsign, hnumeral, rfl, -⟩ := exists_isSign_of_spells h
  cases digits with
  | nil => exact absurd rfl hnumeral.ne_nil
  | cons c digits =>
      exact looksLikeRegister_of_isSign hsign (hnumeral.isDigit c List.mem_cons_self) digits

/-! ## Literals -/

/-- What is read of a sign and digits with anything behind them. -/
theorem parseLiteral_of_splitSign {text unsigned digits rest : List Char} {negative : Bool}
    (hsign : splitSign (text.dropWhile isBlank) = (negative, unsigned))
    (hdigits : splitDigits unsigned = (digits.map digitValue, rest)) :
    parseLiteral text =
      if digits = [] then .ok unresolved
      else if Decimal.digitLimit < digits.length then .error .tooManyDigits
      else if Word.Fits (signedValue negative (digits.map digitValue)) ∧
          rest.dropWhile isBlank = [] then
        .ok (signedValue negative (digits.map digitValue))
      else .ok unresolved := by
  simp only [parseLiteral, hsign, hdigits, List.map_eq_nil_iff, List.length_map]

/-- No blank is a digit. -/
theorem splitDigits_of_isBlank {text : List Char} (h : ∀ c ∈ text, isBlank c = true) :
    splitDigits text = ([], text) := by
  obtain ⟨digits, rest, rfl, hdigits, hsplit⟩ := exists_splitDigits text
  cases digits with
  | nil => exact hsplit
  | cons c digits =>
      have hblank := h c List.mem_cons_self
      rw [isBlank_of_isDigit (hdigits c List.mem_cons_self)] at hblank
      cases hblank

/-- No literal has a blank in it. -/
theorem SpellsLiteral.isBlank_eq_false {n : Int} {text : List Char} (h : SpellsLiteral n text) :
    ∀ c ∈ text, isBlank c = false := by
  intro c hc
  rcases h.isDigit_or hc with hdigit | rfl | rfl
  · exact isBlank_of_isDigit hdigit
  · rfl
  · rfl

/-- Every spelling of a number, with or without blanks around it, is read as that number if it fits
    a word, and not at all if it does not. -/
theorem parseLiteral_eq_of_trim {n : Int} {text : List Char}
    (h : SpellsLiteral n (trim isBlank text)) :
    parseLiteral text = .ok (if Word.Fits n then n else unresolved) := by
  obtain ⟨negative, sign, digits, hsign, hnumeral, htrim, rfl⟩ := exists_isSign_of_spells h
  obtain ⟨blanks, hblanks, htext⟩ := exists_dropTrailing_append isBlank (text.dropWhile isBlank)
  have hlimit : ¬ Decimal.digitLimit < digits.length := Nat.not_lt.2 hnumeral.length_le
  have hread : splitSign (text.dropWhile isBlank) = (negative, digits ++ blanks) := by
    rw [← htext, ← trim, htrim]
    cases digits with
    | nil => exact absurd rfl hnumeral.ne_nil
    | cons c digits =>
        rw [List.append_assoc]
        exact (splitSign_append hsign (hnumeral.isDigit c List.mem_cons_self) _).2
  have hdigits : splitDigits (digits ++ blanks) = (digits.map digitValue, blanks) := by
    rw [splitDigits_append hnumeral.isDigit, splitDigits_of_isBlank hblanks, List.append_nil]
  have hrest : blanks.dropWhile isBlank = [] := List.dropWhile_eq_nil_iff.2 hblanks
  rw [parseLiteral_of_splitSign hread hdigits, if_neg hnumeral.ne_nil, if_neg hlimit]
  by_cases hfits : Word.Fits (signedValue negative (digits.map digitValue))
  · rw [if_pos ⟨hfits, hrest⟩, if_pos hfits]
  · rw [if_neg fun hboth => hfits hboth.1, if_neg hfits]

theorem parseLiteral_eq_of_spells {n : Int} {text : List Char} (h : SpellsLiteral n text) :
    parseLiteral text = .ok (if Word.Fits n then n else unresolved) := by
  refine parseLiteral_eq_of_trim ?_
  rwa [trim_of_false h.isBlank_eq_false]

theorem parseLiteral_of_spells {n : Int} {text : List Char} (h : SpellsLiteral n text)
    (hfits : Word.Fits n) : parseLiteral text = .ok n := by
  rw [parseLiteral_eq_of_spells h, if_pos hfits]

/-! ## Decimal texts -/

theorem numeralValue_eq_ofDigitChars (digits : List Char) :
    numeralValue digits = Nat.ofDigitChars 10 digits 0 := by
  rw [numeralValue, ← value_eq_ofDigits, Decimal.value, List.foldl_map, Nat.ofDigitChars_eq_foldl]
  rfl

theorem numeralValue_toDigits (n : Nat) : numeralValue (Nat.toDigits 10 n) = n := by
  rw [numeralValue_eq_ofDigitChars, Nat.ofDigitChars_ten_toDigits]

theorem isNumeral_toDigits {n : Nat} (h : n < Decimal.writableBound) :
    IsNumeral (Nat.toDigits 10 n) where
  ne_nil := Nat.toDigits_ne_nil
  isDigit := fun _ hc => Nat.isDigit_of_mem_toDigits (by decide) (by decide) hc
  length_le := by
    have hpos : 0 < Decimal.digitLimit := by decide
    unfold Decimal.writableBound at h
    -- The bound has too many digits to be written out.
    generalize Decimal.digitLimit = limit at h hpos ⊢
    exact (Nat.length_toDigits_le_iff (by decide) hpos).2 h

theorem toList_text (n : Int) :
    (Decimal.text n).toList =
      if 0 ≤ n then Nat.toDigits 10 n.toNat else '-' :: Nat.toDigits 10 (-n).toNat := by
  rw [Decimal.text, Int.toString_eq_repr, Int.repr_eq_if]
  split
  · rw [Nat.toList_repr]
  · rw [String.toList_append, Nat.toList_repr]
    rfl

/-- The decimal text of a number within the digit limit is one of its spellings. -/
theorem spells_text {n : Int} (h : Decimal.Writable n) :
    SpellsLiteral n (Decimal.text n).toList := by
  rw [toList_text]
  unfold Decimal.Writable at h
  split
  · rename_i hn
    have hdigits : IsNumeral (Nat.toDigits 10 n.toNat) := isNumeral_toDigits (by omega)
    have hspells := SpellsLiteral.unsigned hdigits
    rwa [numeralValue_toDigits, Int.toNat_of_nonneg hn] at hspells
  · rename_i hn
    have hdigits : IsNumeral (Nat.toDigits 10 (-n).toNat) := isNumeral_toDigits (by omega)
    have hspells := SpellsLiteral.minus hdigits
    rwa [numeralValue_toDigits, Int.toNat_of_nonneg (by omega), Int.neg_neg] at hspells

/-- No other number has the digits of a natural number as its decimal text. -/
theorem eq_of_toList_text {n : Int} {k : Nat}
    (h : (Decimal.text n).toList = Nat.toDigits 10 k) : n = k := by
  rw [toList_text] at h
  split at h
  · have hvalue := congrArg numeralValue h
    rw [numeralValue_toDigits, numeralValue_toDigits] at hvalue
    omega
  · have hminus : '-' ∈ Nat.toDigits 10 k := h ▸ List.mem_cons_self
    have hdigit := Nat.isDigit_of_mem_toDigits (by decide) (by decide) hminus
    exact absurd hdigit (by decide)

end RegisterMachine.Assembly
