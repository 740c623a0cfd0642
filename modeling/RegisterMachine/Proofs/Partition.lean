import RegisterMachine.Proofs.Rows

set_option autoImplicit false

/-! # The one partition of a list of words

A listing cuts a list of words into rows. `Divides` says what such a cut has to be, without a walk:
put together the rows are the words, each row is at the position of its first word, and each has the
operands that its first word asks for, of which only the last row may lack some, where there are no
more words. Taking the first row off such a cut leaves a cut of the other words
(`divides_cons_iff`). So there is exactly one for every list of words, and the listing finds it
(`divides_iff`). -/

namespace RegisterMachine.Listing

/-- Rows that words are cut into, the first of which is at `start`. Every row has all its operands,
    but where fewer words are left for the last row it has as many as are left. -/
structure Divides (start : Nat) (words : List Int) (found : List Row) : Prop where
  words_eq : found.flatMap Row.words = words
  address : ∀ before row after, found = before ++ row :: after →
    row.address = start + (before.flatMap Row.words).length
  operands : ∀ before row after, found = before ++ row :: after →
    row.operands.length = operandCount row.opcode ∨
      after = [] ∧ row.operands.length < operandCount row.opcode ∧
        row.operands.length = words.length - ((before.flatMap Row.words).length + 1)

variable {start : Nat} {words : List Int} {row : Row} {found : List Row}

theorem divides_nil_iff : Divides start words [] ↔ words = [] := by
  constructor
  · intro h
    exact h.words_eq.symm
  · rintro rfl
    refine ⟨rfl, fun before row after h => ?_, fun before row after h => ?_⟩
    · exact absurd h.symm (List.append_ne_nil_of_right_ne_nil before (List.cons_ne_nil row after))
    · exact absurd h.symm (List.append_ne_nil_of_right_ne_nil before (List.cons_ne_nil row after))

theorem length_words (row : Row) : row.words.length = row.operands.length + 1 := rfl

/-- A cut is its first row and a cut of the words behind it. -/
theorem divides_cons_iff :
    Divides start words (row :: found) ↔
      row.address = start ∧
      (row.operands.length = operandCount row.opcode ∨
        found = [] ∧ row.operands.length < operandCount row.opcode) ∧
      ∃ rest, words = row.words ++ rest ∧ Divides (start + row.words.length) rest found := by
  constructor
  · intro h
    have hwords : row.words ++ found.flatMap Row.words = words := h.words_eq
    refine ⟨h.address [] row found rfl, ?_, found.flatMap Row.words, hwords.symm, rfl, ?_, ?_⟩
    · rcases h.operands [] row found rfl with hwhole | ⟨hlast, hshort, -⟩
      · exact .inl hwhole
      · exact .inr ⟨hlast, hshort⟩
    · intro before later after hfound
      have haddress := h.address (row :: before) later after (by rw [hfound, List.cons_append])
      rw [List.flatMap_cons, List.length_append] at haddress
      omega
    · intro before later after hfound
      have hoperands := h.operands (row :: before) later after (by rw [hfound, List.cons_append])
      rw [← hwords] at hoperands
      simp only [List.flatMap_cons, List.length_append] at hoperands
      rcases hoperands with hwhole | ⟨hlast, hshort, hleft⟩
      · exact .inl hwhole
      · exact .inr ⟨hlast, hshort, by omega⟩
  · rintro ⟨haddress, hoperands, rest, rfl, h⟩
    refine ⟨?_, ?_, ?_⟩
    · rw [List.flatMap_cons, h.words_eq]
    · intro before later after hfound
      cases before with
      | nil =>
          obtain ⟨rfl, rfl⟩ := List.cons.inj hfound
          exact haddress
      | cons first before =>
          obtain ⟨rfl, hrest⟩ := List.cons.inj hfound
          rw [h.address before later after hrest, List.flatMap_cons, List.length_append]
          omega
    · intro before later after hfound
      cases before with
      | nil =>
          obtain ⟨rfl, rfl⟩ := List.cons.inj hfound
          rcases hoperands with hwhole | ⟨rfl, hshort⟩
          · exact .inl hwhole
          · -- Behind the last row nothing is left.
            obtain rfl := divides_nil_iff.1 h
            refine .inr ⟨rfl, hshort, ?_⟩
            simp [length_words]
      | cons first before =>
          obtain ⟨rfl, hrest⟩ := List.cons.inj hfound
          rcases h.operands before later after hrest with hwhole | ⟨hlast, hshort, hleft⟩
          · exact .inl hwhole
          · refine .inr ⟨hlast, hshort, ?_⟩
            simp only [List.flatMap_cons, List.length_append]
            omega

/-- A walk finds a cut. -/
theorem divides_rowsFrom (start : Nat) (words : List Int) :
    Divides start words (rowsFrom start words) := by
  fun_induction rowsFrom start words with
  | case1 => exact divides_nil_iff.2 rfl
  | case2 start word rest count ih =>
      have hsplit : word :: rest = word :: rest.take count ++ rest.drop count := by
        rw [List.cons_append, List.take_append_drop]
      by_cases hcount : count ≤ rest.length
      · have hlength : (rest.take count).length = count := List.length_take_of_le hcount
        refine divides_cons_iff.2 ⟨rfl, .inl hlength, rest.drop count, hsplit, ?_⟩
        rw [length_words, hlength, Nat.add_comm count 1, ← Nat.add_assoc]
        exact ih
      · have hnone : rest.drop count = [] := List.drop_eq_nil_of_le (by omega)
        have hshort : (rest.take count).length < count := by
          rw [List.length_take]
          omega
        rw [hnone, rowsFrom] at ih ⊢
        refine divides_cons_iff.2 ⟨rfl, .inr ⟨rfl, hshort⟩, rest.drop count, hsplit, ?_⟩
        exact divides_nil_iff.2 hnone

/-- There is no other cut than the one that a walk finds. -/
theorem Divides.eq_rowsFrom (h : Divides start words found) : found = rowsFrom start words := by
  induction found generalizing start words with
  | nil =>
      obtain rfl := divides_nil_iff.1 h
      rw [rowsFrom]
  | cons row found ih =>
      obtain ⟨haddress, hoperands, rest, rfl, hrest⟩ := divides_cons_iff.1 h
      rw [Row.words, List.cons_append, rowsFrom]
      rcases hoperands with hwhole | ⟨rfl, hshort⟩
      · rw [length_words, hwhole, Nat.add_comm _ 1, ← Nat.add_assoc] at hrest
        rw [← hwhole, List.take_left, List.drop_left, hwhole, ← ih hrest, ← haddress]
      · obtain rfl := divides_nil_iff.1 hrest
        have hle := Nat.le_of_lt hshort
        rw [List.append_nil, List.take_of_length_le hle, List.drop_eq_nil_of_le hle, rowsFrom,
          ← haddress]

/-- A walk makes at most one row of every word. -/
theorem length_rowsFrom_le (start : Nat) (words : List Int) :
    (rowsFrom start words).length ≤ words.length := by
  fun_induction rowsFrom start words with
  | case1 => exact Nat.le_refl _
  | case2 start word rest count ih =>
      rw [List.length_drop] at ih
      rw [List.length_cons, List.length_cons]
      omega

/-- The listing of any list of words comes to an end, with no more rows than there are words. Its
    rows are a cut of the words, and there is no other. -/
theorem divides_iff (words : List Int) :
    (rows words).length ≤ words.length ∧
      ∀ found, Divides 0 words found ↔ found = rows words := by
  refine ⟨length_rowsFrom_le 0 words, fun found => ⟨Divides.eq_rowsFrom, ?_⟩⟩
  rintro rfl
  exact divides_rowsFrom 0 words

end RegisterMachine.Listing
