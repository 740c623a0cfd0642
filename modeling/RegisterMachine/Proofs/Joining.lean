import RegisterMachine.Proofs.Resolution

set_option autoImplicit false

/-! # Source texts put together

Tokens are encoded one after the other, and all that an earlier token leaves to a later one is the
offset of its word. So the words of two lists of tokens are those of the first and then those of the
second (`encode_append`), the reports on the second list move up by the number of words before it
(`encode_add`), and a list that is not encoded is not encoded with others behind it either
(`encode_append_of_error`). As nothing of a line reaches into the next (`tokenLines_join`), the same
is true of source texts with a line feed between them. -/

namespace RegisterMachine

/-- A notice as it is given behind further words. -/
def Notice.behind (count : Nat) : Notice → Notice
  | .unresolvedToken token offset => .unresolvedToken token (offset + count)
  | notice => notice

namespace Assembly

/-! ## Tokens in two lists -/

variable {s : List (Place × Token)} {words : List Int} {offset : Nat}

theorem encode_append (h : (encode offset s).outcome = .ok words)
    (t : List (Place × Token)) :
    encode offset (s ++ t) =
      ⟨(encode offset s).notices ++ (encode (offset + words.length) t).notices,
        (encode (offset + words.length) t).outcome.map (words ++ ·)⟩ := by
  induction s generalizing offset words with
  | nil =>
      cases h
      have hmap : (encode offset t).outcome.map ([] ++ ·) = (encode offset t).outcome := by
        cases (encode offset t).outcome <;> rfl
      rw [List.nil_append, List.length_nil, Nat.add_zero, hmap]
      rfl
  | cons token s ih =>
      obtain ⟨word, rest, rfl, hword, hrest⟩ := exists_of_outcome_encode_cons h
      have hoffset : offset + 1 + rest.length = offset + (word :: rest).length := by
        rw [List.length_cons]
        omega
      rw [List.cons_append, encode_cons offset _ hword, encode_cons offset _ hword, ih hrest,
        hoffset]
      simp only [List.append_assoc]
      cases (encode (offset + (word :: rest).length) t).outcome <;> rfl

/-- What stands behind a token that cannot be encoded is not looked at. -/
theorem encode_append_of_error {failure : Failure}
    (h : (encode offset s).outcome = .error failure) (t : List (Place × Token)) :
    encode offset (s ++ t) = encode offset s := by
  induction s generalizing offset with
  | nil => cases h
  | cons token s ih =>
      cases hword : encodeToken token.1 token.2 with
      | error other =>
          rw [List.cons_append, encode_cons_of_error offset _ hword,
            encode_cons_of_error offset _ hword]
      | ok word =>
          rw [encode_cons offset _ hword] at h
          rw [List.cons_append, encode_cons offset _ hword, encode_cons offset _ hword]
          cases hrest : (encode (offset + 1) s).outcome with
          | ok rest =>
              rw [hrest] at h
              cases h
          | error other =>
              rw [hrest] at h
              cases h
              rw [ih hrest, hrest]

/-- Words in front of tokens only move the reports on them. -/
theorem encode_add (offset count : Nat) (tokens : List (Place × Token)) :
    encode (offset + count) tokens =
      ⟨(encode offset tokens).notices.map (Notice.behind count),
        (encode offset tokens).outcome⟩ := by
  induction tokens generalizing offset with
  | nil => rfl
  | cons token tokens ih =>
      cases hword : encodeToken token.1 token.2 with
      | error failure =>
          rw [encode_cons_of_error _ _ hword, encode_cons_of_error _ _ hword]
          rfl
      | ok word =>
          rw [encode_cons _ _ hword, encode_cons _ _ hword, Nat.add_right_comm, ih (offset + 1)]
          split_ifs <;> rfl

/-! ## Reports -/

/-- The tokens that an encoding reports as unresolved, with the offsets of their words. -/
def Encoding.reports (encoding : Encoding) : List (Token × Nat) :=
  encoding.notices.filterMap fun
    | .unresolvedToken token offset => some (token, offset)
    | _ => none

/-- A report on a token that stands behind further words. -/
def reportBehind (count : Nat) (report : Token × Nat) : Token × Nat :=
  (report.1, report.2 + count)

theorem reports_assemble (source : String) :
    (assemble source).reports = (encode 0 (sourceTokens source)).reports := rfl

/-- The words of a second list of tokens do not depend on the first. -/
theorem outcome_encode_append (h : (encode 0 s).outcome = .ok words)
    (t : List (Place × Token)) :
    (encode 0 (s ++ t)).outcome = (encode 0 t).outcome.map (words ++ ·) := by
  rw [encode_append h, encode_add]

theorem reports_encode_append (h : (encode 0 s).outcome = .ok words)
    (t : List (Place × Token)) :
    (encode 0 (s ++ t)).reports =
      (encode 0 s).reports ++ (encode 0 t).reports.map (reportBehind words.length) := by
  rw [encode_append h, encode_add]
  simp only [Encoding.reports, List.filterMap_append, List.filterMap_map, List.map_filterMap]
  congr 2
  funext notice
  cases notice <;> rfl

/-! ## Two source texts -/

/-- A line feed ends a line with all that is in it, a comment too. -/
theorem tokenLines_join (a b : String) :
    tokenLines (a ++ "\n" ++ b) = tokenLines a ++ tokenLines b := by
  have hlines : Text.lines (a ++ "\n" ++ b).toList =
      Text.lines a.toList ++ Text.lines b.toList := by
    rw [String.toList_append, String.toList_append, List.append_assoc]
    exact List.splitOnP_append_cons _ _ (beq_self_eq_true '\n')
  rw [tokenLines, hlines, List.map_append, List.filter_append]
  rfl

theorem sourceTokens_join (a b : String) :
    sourceTokens (a ++ "\n" ++ b) = sourceTokens a ++ sourceTokens b := by
  rw [sourceTokens, tokenLines_join, List.flatMap_append]
  rfl

/-- Two source texts with a line feed between them are assembled to the words of the first and then
    those of the second, unless one of them is not assembled. What is reported are the unresolved
    tokens of the first and then those of the second, with the words of the first before them. -/
theorem assemble_join (a b : String) :
    ((∃ failure, (assemble (a ++ "\n" ++ b)).outcome = .error failure) ↔
      (∃ failure, (assemble a).outcome = .error failure) ∨
        ∃ failure, (assemble b).outcome = .error failure) ∧
    (∀ words, (assemble a).outcome = .ok words →
      (∀ more, (assemble b).outcome = .ok more →
        (assemble (a ++ "\n" ++ b)).outcome = .ok (words ++ more)) ∧
      (assemble (a ++ "\n" ++ b)).reports =
        (assemble a).reports ++ (assemble b).reports.map (reportBehind words.length)) ∧
    ∀ failure, (assemble a).outcome = .error failure →
      (assemble (a ++ "\n" ++ b)).outcome = .error failure ∧
        (assemble (a ++ "\n" ++ b)).reports = (assemble a).reports := by
  simp only [outcome_eq, reports_assemble, sourceTokens_join]
  generalize sourceTokens a = s
  generalize sourceTokens b = t
  cases hs : (encode 0 s).outcome with
  | error failure =>
      rw [encode_append_of_error hs, hs]
      refine ⟨⟨.inl, fun _ => ⟨failure, rfl⟩⟩, ?_, fun other h => ⟨h, rfl⟩⟩
      intro words h
      cases h
  | ok words =>
      rw [outcome_encode_append hs, reports_encode_append hs]
      refine ⟨?_, ?_, ?_⟩
      · cases (encode 0 t).outcome <;> simp [Except.map]
      · intro same h
        cases h
        refine ⟨fun more hmore => ?_, rfl⟩
        rw [hmore]
        rfl
      · intro failure h
        cases h

/-- A comment and a line without tokens between two texts, and reports in both of them. -/
theorem assemble_join_reports :
    let a := "nop r1 // r2"
    let b := "\nslp -1\nR10, 7"
    (assemble (a ++ "\n" ++ b)).outcome = .ok [-1, 1, 70, -1, -1, 7] ∧
      (assemble (a ++ "\n" ++ b)).reports =
        [(['N', 'O', 'P'], 0), (['-', '1'], 3), (['R', '1', '0', ','], 4)] := by
  intro a b
  have ha : (assemble a).outcome = .ok [-1, 1] := by decide +kernel
  have hb : (assemble b).outcome = .ok [70, -1, -1, 7] := by decide +kernel
  have hreports : (assemble a).reports = [(['N', 'O', 'P'], 0)] ∧
      (assemble b).reports = [(['-', '1'], 1), (['R', '1', '0', ','], 2)] := by decide +kernel
  obtain ⟨-, hjoined, -⟩ := assemble_join a b
  obtain ⟨houtcome, hall⟩ := hjoined _ ha
  rw [hreports.1, hreports.2] at hall
  exact ⟨houtcome _ hb, hall⟩

end Assembly

end RegisterMachine
