import RegisterMachine.Proofs.Numeral
import Mathlib.Data.List.Infix

set_option autoImplicit false

/-! # The grammar of literals

A text is read as a number if it is one of the number's spellings, with or without blanks around it,
and the number fits a word; every other text is unresolved (`parseLiteral_of_not_spelled`), as long
as it has no more digits in a row than can be read. The decimal digits of a number are one of its
spellings, with a sign and with zeros in front of them (`spells_zeros_append`), so every word is
read back from them. -/

namespace RegisterMachine.Assembly

open Text

/-- No run of digits is beyond the digit limit. -/
def DigitsInLimit (text : List Char) : Prop :=
  ∀ digits, digits <:+: text → (∀ c ∈ digits, c.isDigit = true) →
    digits.length ≤ Decimal.digitLimit

theorem digitsInLimit_of_length_le {text : List Char} (h : text.length ≤ Decimal.digitLimit) :
    DigitsInLimit text :=
  fun _ hinfix _ => hinfix.length_le.trans h

/-- A text that spells no number that fits a word, whatever blanks are around it, is unresolved. -/
theorem parseLiteral_of_not_spelled {text : List Char} (hlimit : DigitsInLimit text)
    (h : ∀ n, SpellsLiteral n (trim isBlank text) → ¬ Word.Fits n) :
    parseLiteral text = .ok unresolved := by
  obtain ⟨negative, sign, unsigned, hsign, htext, hread⟩ :=
    exists_splitSign (text.dropWhile isBlank)
  obtain ⟨digits, rest, rfl, hdigits, hsplit⟩ := exists_splitDigits unsigned
  have hinfix : digits <:+: text := by
    have hunblank : digits <:+: text.dropWhile isBlank := by
      rw [htext, ← List.append_assoc]
      exact List.infix_append sign digits rest
    exact hunblank.trans (List.dropWhile_suffix isBlank).isInfix
  have hlength := hlimit digits hinfix hdigits
  rw [parseLiteral_of_splitSign hread hsplit, if_neg (Nat.not_lt.2 hlength)]
  split_ifs with hne hvalue
  · rfl
  · -- What is left without the blanks is the sign and the digits.
    have hspells := spells_of_isSign hsign ⟨hne, hdigits, hlength⟩
    have hblanks := List.dropWhile_eq_nil_iff.1 hvalue.2
    have htrim : trim isBlank text = sign ++ digits := by
      rw [trim, htext, ← List.append_assoc, dropTrailing_append_of_forall_true hblanks,
        dropTrailing_of_false hspells.isBlank_eq_false]
    rw [← htrim] at hspells
    exact absurd hvalue.1 (h _ hspells)
  · rfl

/-! ## Leading zeros -/

theorem numeralValue_zeros_append (zeros : Nat) (digits : List Char) :
    numeralValue (List.replicate zeros '0' ++ digits) = numeralValue digits := by
  have hzero : digitValue '0' = 0 := rfl
  rw [numeralValue, List.map_append, List.map_replicate, hzero, List.reverse_append,
    List.reverse_replicate, Nat.ofDigits_append_replicate_zero, numeralValue]

/-- The decimal digits of a number spell it behind its sign, with as many zeros between them as the
    digit limit allows. -/
theorem spells_zeros_append {n : Int} {zeros : Nat} {sign : List Char}
    (hsign : IsSign (decide (n < 0)) sign)
    (hlimit : zeros + (Nat.toDigits 10 n.natAbs).length ≤ Decimal.digitLimit) :
    SpellsLiteral n (sign ++ (List.replicate zeros '0' ++ Nat.toDigits 10 n.natAbs)) := by
  have hnumeral : IsNumeral (List.replicate zeros '0' ++ Nat.toDigits 10 n.natAbs) := by
    refine ⟨List.append_ne_nil_of_right_ne_nil _ Nat.toDigits_ne_nil, ?_, ?_⟩
    · intro c hc
      rcases List.mem_append.1 hc with hzero | hdigit
      · rw [List.eq_of_mem_replicate hzero]
        rfl
      · exact Nat.isDigit_of_mem_toDigits (by decide) (by decide) hdigit
    · rwa [List.length_append, List.length_replicate]
  have hvalue : signedValue (decide (n < 0))
      ((List.replicate zeros '0' ++ Nat.toDigits 10 n.natAbs).map digitValue) = n := by
    rw [signedValue, value_eq_ofDigits, ← numeralValue, numeralValue_zeros_append,
      numeralValue_toDigits]
    by_cases hn : n < 0
    · rw [decide_eq_true hn, if_pos rfl]
      omega
    · rw [decide_eq_false hn, if_neg Bool.false_ne_true]
      omega
  have hspells := spells_of_isSign hsign hnumeral
  rwa [hvalue] at hspells

/-- A text without too many digits in a row is read as a number if it is a spelling of that number,
    with or without blanks around it, and the number fits a word; if it spells no such number, it is
    unresolved. Every number that fits a word is read back from its decimal digits, with a minus
    sign if it is negative and with or without a plus sign if it is not, and with as many leading
    zeros as the digit limit allows. -/
theorem parseLiteral_exact {text : List Char} (h : DigitsInLimit text) :
    (∀ n, SpellsLiteral n (trim isBlank text) → Word.Fits n → parseLiteral text = .ok n) ∧
      ((∀ n, SpellsLiteral n (trim isBlank text) → ¬ Word.Fits n) →
        parseLiteral text = .ok unresolved) ∧
      ∀ n zeros sign, Word.Fits n → IsSign (decide (n < 0)) sign →
        zeros + (Nat.toDigits 10 n.natAbs).length ≤ Decimal.digitLimit →
          parseLiteral (sign ++ (List.replicate zeros '0' ++ Nat.toDigits 10 n.natAbs)) =
            .ok n := by
  refine ⟨fun n hn hfits => ?_, parseLiteral_of_not_spelled h, ?_⟩
  · rw [parseLiteral_eq_of_trim hn, if_pos hfits]
  · intro n zeros sign hfits hsign hlimit
    exact parseLiteral_of_spells (spells_zeros_append hsign hlimit) hfits

/-- The least word, with zeros in front of it and blanks around it, and two numbers with a blank
    between them. -/
theorem parseLiteral_exact_blanks :
    let digits := ['0', '0', '2', '1', '4', '7', '4', '8', '3', '6', '4', '8']
    let least := '\t' :: '-' :: digits ++ ['\r', '\n']
    let pair := ['1', ' ', '2']
    DigitsInLimit least ∧ SpellsLiteral (-0x80000000) (trim isBlank least) ∧
      parseLiteral least = .ok (-0x80000000) ∧
      DigitsInLimit pair ∧ parseLiteral pair = .ok unresolved := by
  intro digits least pair
  have hleast : DigitsInLimit least := digitsInLimit_of_length_le (by decide)
  have hpair : DigitsInLimit pair := digitsInLimit_of_length_le (by decide)
  have hdigits : digits.all Char.isDigit = true := rfl
  have hnumeral : IsNumeral digits := ⟨by decide, List.all_eq_true.1 hdigits, by decide⟩
  have hspells : SpellsLiteral (-0x80000000) (trim isBlank least) := .minus hnumeral
  have hnone : ∀ n, SpellsLiteral n (trim isBlank pair) → ¬ Word.Fits n := by
    intro n hn
    have hblank := hn.isBlank_eq_false ' ' (by decide)
    cases hblank
  exact ⟨hleast, hspells, (parseLiteral_exact hleast).1 _ hspells (by decide), hpair,
    (parseLiteral_exact hpair).2.1 hnone⟩

end RegisterMachine.Assembly
