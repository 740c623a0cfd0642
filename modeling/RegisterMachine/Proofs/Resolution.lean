import RegisterMachine.Proofs.Rendering
import RegisterMachine.Proofs.UpperCase

set_option autoImplicit false

/-! # What tokens stand for

A token `Denotes` a number if it is the name of an operation, a register with or without a comma
behind it, or a literal that fits a word; every other token is unresolved. There is one exception:
an operand that begins with more digits than the digit limit is `Overlong`, and it stops the
assembly. A source text with such a token is not assembled, and every other text has the words that
its tokens stand for, one each (`assemble_fails_or_stands`). -/

namespace RegisterMachine.Assembly

open Text

/-! ## Tokens of a source text -/

/-- The tokens of a source text with their places, in the form in which they are encoded. -/
def sourceTokens (source : String) : List (Place × Token) :=
  (tokenLines source).flatMap fun line => placeTokens (line.map canonicalToken)

theorem outcome_eq (source : String) :
    (assemble source).outcome = (encode 0 (sourceTokens source)).outcome := rfl

/-- No piece of a split has an item of the class. -/
theorem false_of_mem_splitOnP {α : Type} {p : α → Bool} {items piece : List α}
    (h : piece ∈ items.splitOnP p) : ∀ a ∈ piece, p a = false := by
  induction items generalizing piece with
  | nil =>
      rw [List.splitOnP_nil, List.mem_singleton] at h
      rw [h]
      exact nofun
  | cons b items ih =>
      rw [List.splitOnP_cons_eq_if_modifyHead] at h
      split_ifs at h with hb
      · rcases List.mem_cons.1 h with rfl | h
        · exact nofun
        · exact ih h
      · -- The first piece of the others begins with this item.
        obtain ⟨first, pieces, hpieces⟩ :=
          List.exists_cons_of_ne_nil (List.splitOnP_ne_nil p items)
        rw [hpieces, List.modifyHead_cons] at h
        rcases List.mem_cons.1 h with rfl | h
        · have hfirst := ih (hpieces ▸ List.mem_cons_self)
          exact List.forall_mem_cons.2 ⟨Bool.not_eq_true _ ▸ hb, hfirst⟩
        · exact ih (hpieces ▸ List.mem_cons_of_mem _ h)

/-- A text without separators. -/
def Unbroken (text : List Char) : Prop :=
  ∀ c ∈ text, isSeparator c = false

theorem Unbroken.stripComma {token : Token} (h : Unbroken token) :
    Unbroken (stripComma token) := by
  unfold Assembly.stripComma
  split_ifs
  · exact fun c hc => h c (mem_of_mem_dropTrailing hc)
  · exact h

theorem Unbroken.canonicalToken {token : Token} (h : Unbroken token) :
    Unbroken (canonicalToken token) := by
  rw [Assembly.canonicalToken, trim_of_false h]
  exact isSeparator_of_mem_upper h

/-- A token of a line comes from a run, with its commas or without. -/
theorem exists_run_of_mem_tokensOfLine {line : List Char} {token : Token}
    (h : token ∈ tokensOfLine line) :
    ∃ run ∈ runs (beforeComment line), token = upper run ∨ token = stripComma (upper run) := by
  rw [tokensOfLine] at h
  cases hruns : runs (beforeComment line) with
  | nil =>
      rw [hruns] at h
      cases h
  | cons operation operands =>
      rw [hruns, List.map_cons, stripOperandCommas, List.map_map] at h
      rcases List.mem_cons.1 h with rfl | h
      · exact ⟨operation, List.mem_cons_self, .inl rfl⟩
      · obtain ⟨run, hrun, rfl⟩ := List.mem_map.1 h
        exact ⟨run, List.mem_cons_of_mem _ hrun, .inr rfl⟩

theorem unbroken_of_mem_tokensOfLine {line : List Char} {token : Token}
    (h : token ∈ tokensOfLine line) : Unbroken token := by
  obtain ⟨run, hrun, htoken⟩ := exists_run_of_mem_tokensOfLine h
  have hupper : Unbroken (upper run) :=
    isSeparator_of_mem_upper (false_of_mem_splitOnP (List.mem_filter.1 hrun).1)
  rcases htoken with rfl | rfl
  · exact hupper
  · exact hupper.stripComma

theorem mem_of_mem_placeTokens {line : TokenLine} {token : Place × Token}
    (h : token ∈ placeTokens line) : token.2 ∈ line := by
  cases line with
  | nil => cases h
  | cons operation operands =>
      rcases List.mem_cons.1 h with rfl | h
      · exact List.mem_cons_self
      · obtain ⟨operand, hoperand, rfl⟩ := List.mem_map.1 h
        exact List.mem_cons_of_mem _ hoperand

/-- No token has a separator in it, whatever the source text is. -/
theorem unbroken_of_mem_sourceTokens {source : String} {token : Place × Token}
    (h : token ∈ sourceTokens source) : Unbroken token.2 := by
  obtain ⟨line, hline, htoken⟩ := List.mem_flatMap.1 h
  obtain ⟨text, -, rfl⟩ := List.mem_map.1 (List.mem_filter.1 hline).1
  obtain ⟨name, hname, heq⟩ := List.mem_map.1 (mem_of_mem_placeTokens htoken)
  rw [← heq]
  exact (unbroken_of_mem_tokensOfLine hname).canonicalToken

/-- The tokens of a source text of one line. -/
theorem sourceTokens_of_rendersLine {source : String} {tokens : List Token}
    (h : RendersLine tokens source.toList) (hplain : ∀ token ∈ tokens, PlainToken token) :
    sourceTokens source =
      placeTokens ((stripOperandCommas (tokens.map upper)).map Assembly.canonicalToken) := by
  have hlines : tokenLines source = [tokensOfLine source.toList].filter (· ≠ []) := by
    refine tokenLines_of_intercalate List.intercalate_singleton.symm ?_
    exact List.forall_mem_singleton.2 (newline_not_mem_of_rendersLine h hplain)
  rw [sourceTokens, hlines, tokensOfLine_of_rendersLine h hplain]
  generalize stripOperandCommas (tokens.map upper) = line
  cases line with
  | nil => rfl
  | cons operation operands => exact List.append_nil _

/-! ## What is resolved -/

/-- The number that a token denotes in its place: the code of an operation in any mixture of case,
    the index of a register with nothing or a comma behind it, or the value of a literal. -/
inductive Denotes : Place × Token → Int → Prop where
  | operation {op : Opcode} {name : Token} (h : upper name = op.spelling) :
      Denotes (.operation, name) op.code
  | register (r : Register) {rest : List Char} (h : rest = [] ∨ rest.head? = some ',') :
      Denotes (.operand, r.spelling ++ rest) r.val
  | literal {n : Int} {text : Token} (h : SpellsLiteral n text) (hfits : Word.Fits n) :
      Denotes (.operand, text) n

/-- The operands that begin with a run of digits beyond the digit limit, with or without a sign
    before it. -/
inductive Overlong : Place × Token → Prop where
  | operand {negative : Bool} {sign digits rest : List Char} (hsign : IsSign negative sign)
      (hdigits : ∀ c ∈ digits, c.isDigit = true) (hlong : Decimal.digitLimit < digits.length) :
      Overlong (.operand, sign ++ (digits ++ rest))

/-- The word that a token stands for is the number that it denotes, and the unresolved word if there
    is none. -/
def StandsFor (token : Place × Token) (word : Int) : Prop :=
  Denotes token word ∨ (word = unresolved ∧ ∀ n, ¬ Denotes token n)

/-! ## One token -/

theorem takeWhile_of_register (r : Register) {rest : List Char}
    (h : rest = [] ∨ rest.head? = some ',') :
    (r.spelling ++ rest).takeWhile (· ≠ ',') = r.spelling := by
  have hspelling : r.spelling.all (decide <| · ≠ ',') = true := by
    revert r
    decide
  rw [List.takeWhile_append_of_pos (List.all_eq_true.1 hspelling)]
  rcases h with rfl | hcomma
  · exact List.append_nil _
  · obtain ⟨later, rfl⟩ := List.head?_eq_some_iff.1 hcomma
    exact List.append_nil _

/-- What is left of a text behind the part before its first comma. -/
theorem dropWhile_eq_nil_or_head? (name : Token) :
    name.dropWhile (· ≠ ',') = [] ∨ (name.dropWhile (· ≠ ',')).head? = some ',' := by
  have hhead := List.head?_dropWhile_not (· ≠ ',') name
  cases hdrop : name.dropWhile (· ≠ ',') with
  | nil => exact .inl rfl
  | cons c rest =>
      rw [hdrop] at hhead
      have hc : c = ',' := by simpa using hhead
      rw [hc]
      exact .inr rfl

/-- What a token denotes is its word. -/
theorem encodes_of_denotes {token : Place × Token} {n : Int} (h : Denotes token n) :
    Encodes token n := by
  cases h with
  | operation h => simp only [Encodes, encodeToken, operationWord, h, Opcode.ofSpelling?_spelling]
  | @register r rest h =>
      have hlooks : looksLikeRegister (r.spelling ++ rest) = true := rfl
      rw [Encodes, encodeToken, if_pos hlooks, takeWhile_of_register r h, registerWord,
        Register.ofSpelling?_spelling]
  | literal h hfits =>
      have hlooks : ¬ looksLikeRegister _ = true := Bool.not_eq_true _ ▸ h.looksLikeRegister
      rw [Encodes, encodeToken, if_neg hlooks]
      exact parseLiteral_of_spells h hfits

/-- An operand that is too long has no word. -/
theorem encodeToken_of_overlong {token : Place × Token} (h : Overlong token) :
    encodeToken token.1 token.2 = .error .tooManyDigits := by
  obtain @⟨negative, sign, digits, rest, hsign, hdigits, hlong⟩ := h
  obtain ⟨more, left, rfl, -, hmore⟩ := exists_splitDigits rest
  cases digits with
  | nil => exact absurd hlong (Nat.not_lt_zero _)
  | cons c digits =>
      have hc := hdigits c List.mem_cons_self
      have hlooks : ¬ looksLikeRegister (sign ++ (c :: digits ++ (more ++ left))) = true :=
        Bool.not_eq_true _ ▸ looksLikeRegister_of_isSign hsign hc _
      have hread : splitSign ((sign ++ (c :: digits ++ (more ++ left))).dropWhile isBlank) =
          (negative, c :: digits ++ (more ++ left)) := by
        obtain ⟨hblank, hsplit⟩ := splitSign_append hsign hc (digits ++ (more ++ left))
        rw [List.cons_append, hblank, hsplit]
      have hsplit : splitDigits (c :: digits ++ (more ++ left)) =
          ((c :: digits ++ more).map digitValue, left) := by
        rw [splitDigits_append hdigits, hmore, List.map_append]
      have hne : c :: digits ++ more ≠ [] := List.cons_ne_nil _ _
      have hmany : Decimal.digitLimit < (c :: digits ++ more).length := by
        rw [List.length_append]
        omega
      rw [encodeToken, if_neg hlooks, parseLiteral_of_splitSign hread hsplit, if_neg hne,
        if_pos hmany]

theorem isSeparator_of_isBlank {c : Char} (h : isBlank c = true) : isSeparator c = true := by
  simp only [isBlank, Bool.or_eq_true, beq_iff_eq] at h
  rcases h with ((rfl | rfl) | rfl) | rfl <;> decide

theorem Unbroken.dropWhile_isBlank {text : List Char} (h : Unbroken text) :
    text.dropWhile isBlank = text := by
  refine dropWhile_of_false fun c hc => ?_
  rw [← Bool.not_eq_true]
  intro hblank
  have hseparator := isSeparator_of_isBlank hblank
  rw [h c hc] at hseparator
  cases hseparator

/-- A literal that is read without being too long is unresolved or spells what is read. -/
theorem overlong_or_parseLiteral {text : Token} (h : Unbroken text) :
    Overlong (.operand, text) ∨ ∃ word, parseLiteral text = .ok word ∧
      (word ≠ unresolved → SpellsLiteral word text ∧ Word.Fits word) := by
  obtain ⟨negative, sign, unsigned, hsign, rfl, hread⟩ := exists_splitSign text
  obtain ⟨digits, rest, rfl, hdigits, hsplit⟩ := exists_splitDigits unsigned
  rw [← h.dropWhile_isBlank] at hread
  by_cases hlong : Decimal.digitLimit < digits.length
  · exact .inl (.operand hsign hdigits hlong)
  · right
    rw [parseLiteral_of_splitSign hread hsplit, if_neg hlong]
    split_ifs with hne hvalue
    · exact ⟨_, rfl, fun hresolved => absurd rfl hresolved⟩
    · refine ⟨_, rfl, fun _ => ⟨?_, hvalue.1⟩⟩
      have hrest : rest = [] := by
        have hunbroken : Unbroken rest := fun c hc =>
          h c (List.mem_append_right _ (List.mem_append_right _ hc))
        rw [← hunbroken.dropWhile_isBlank]
        exact hvalue.2
      rw [hrest, List.append_nil]
      exact spells_of_isSign hsign ⟨hne, hdigits, Nat.le_of_not_lt hlong⟩
    · exact ⟨_, rfl, fun hresolved => absurd rfl hresolved⟩

/-- What a token without separators is encoded as, it denotes, unless it is unresolved. -/
theorem overlong_or_encodes {token : Place × Token} (h : Unbroken token.2) :
    Overlong token ∨
      ∃ word, Encodes token word ∧ (word ≠ unresolved → Denotes token word) := by
  obtain ⟨place, name⟩ := token
  cases place with
  | operation =>
      refine .inr ⟨operationWord name, rfl, fun hresolved => ?_⟩
      unfold operationWord at hresolved ⊢
      cases hop : Opcode.ofSpelling? (upper name) with
      | none =>
          rw [hop] at hresolved
          exact absurd rfl hresolved
      | some op => exact .operation (Opcode.spelling_of_ofSpelling? hop).symm
  | operand =>
      by_cases hlooks : looksLikeRegister name = true
      · refine .inr ⟨registerWord (name.takeWhile (· ≠ ',')), ?_, fun hresolved => ?_⟩
        · rw [Encodes, encodeToken, if_pos hlooks]
        · unfold registerWord at hresolved ⊢
          cases hr : Register.ofSpelling? (name.takeWhile (· ≠ ',')) with
          | none =>
              rw [hr] at hresolved
              exact absurd rfl hresolved
          | some r =>
              have hdenotes := Denotes.register r (dropWhile_eq_nil_or_head? name)
              rwa [Register.spelling_of_ofSpelling? hr, List.takeWhile_append_dropWhile]
                at hdenotes
      · rcases overlong_or_parseLiteral h with hlong | ⟨word, hword, hspells⟩
        · exact .inl hlong
        · refine .inr ⟨word, ?_, fun hresolved => ?_⟩
          · rw [Encodes, encodeToken, if_neg hlooks, hword]
          · exact .literal (hspells hresolved).1 (hspells hresolved).2

/-- A token without separators is too long, or it has the word that it stands for. -/
theorem overlong_or_stands {token : Place × Token} (h : Unbroken token.2) :
    Overlong token ∨ ∃ word, Encodes token word ∧ StandsFor token word := by
  rcases overlong_or_encodes h with hlong | ⟨word, hword, hdenotes⟩
  · exact .inl hlong
  · refine .inr ⟨word, hword, ?_⟩
    by_cases hdenoted : ∃ n, Denotes token n
    · obtain ⟨n, hn⟩ := hdenoted
      have hsame := hword.symm.trans (encodes_of_denotes hn)
      cases hsame
      exact .inl hn
    · refine .inr ⟨?_, fun n hn => hdenoted ⟨n, hn⟩⟩
      by_contra hresolved
      exact hdenoted ⟨word, hdenotes hresolved⟩

/-! ## All tokens -/

/-- Some token is too long and there are no words, or no token is and each has the word that it
    stands for. -/
theorem encode_fails_or_stands {tokens : List (Place × Token)}
    (h : ∀ token ∈ tokens, Unbroken token.2) (offset : Nat) :
    ((∃ token ∈ tokens, Overlong token) ∧
      (encode offset tokens).outcome = .error .tooManyDigits) ∨
    ((∀ token ∈ tokens, ¬ Overlong token) ∧
      ∃ words, (encode offset tokens).outcome = .ok words ∧
        List.Forall₂ StandsFor tokens words) := by
  induction tokens generalizing offset with
  | nil => exact .inr ⟨nofun, [], rfl, .nil⟩
  | cons token tokens ih =>
      obtain ⟨htoken, htokens⟩ := List.forall_mem_cons.1 h
      rcases overlong_or_stands htoken with hlong | ⟨word, hword, hstands⟩
      · refine .inl ⟨⟨token, List.mem_cons_self, hlong⟩, ?_⟩
        rw [encode_cons_of_error offset tokens (encodeToken_of_overlong hlong)]
      · have hshort : ¬ Overlong token := by
          intro hlong
          have hsame := hword.symm.trans (encodeToken_of_overlong hlong)
          cases hsame
        rw [encode_cons offset tokens hword]
        rcases ih htokens (offset + 1) with ⟨⟨long, hmem, hlong⟩, houtcome⟩ |
          ⟨hothers, words, houtcome, hwords⟩
        · refine .inl ⟨⟨long, List.mem_cons_of_mem _ hmem, hlong⟩, ?_⟩
          simp only [houtcome]
          rfl
        · refine .inr ⟨List.forall_mem_cons.2 ⟨hshort, hothers⟩, word :: words, ?_, ?_⟩
          · simp only [houtcome]
            rfl
          · exact .cons hstands hwords

/-- Every source text that has a token with more digits than the digit limit at its front is not
    assembled, and every other one is: to one word per token, which is what the token denotes or
    else the unresolved word. -/
theorem assemble_fails_or_stands (source : String) :
    ((∃ token ∈ sourceTokens source, Overlong token) ∧
      (assemble source).outcome = .error .tooManyDigits) ∨
    ((∀ token ∈ sourceTokens source, ¬ Overlong token) ∧
      ∃ words, (assemble source).outcome = .ok words ∧
        List.Forall₂ StandsFor (sourceTokens source) words) :=
  encode_fails_or_stands (fun _ => unbroken_of_mem_sourceTokens) 0

/-- A jump with one digit too many is not assembled. -/
theorem long_literal_unassembled :
    (assemble (String.ofList (['J', 'P', ' '] ++ List.replicate 4301 '1'))).outcome =
      .error .tooManyDigits := by
  have hdigits : ∀ c ∈ List.replicate 4301 '1', c.isDigit = true := by
    intro c hc
    rw [List.eq_of_mem_replicate hc]
    rfl
  have hlong : Decimal.digitLimit < (List.replicate 4301 '1').length := by
    rw [List.length_replicate]
    decide
  -- It does not matter which digits they are.
  generalize List.replicate 4301 '1' = digits at hdigits hlong
  obtain ⟨first, others, rfl⟩ := List.exists_cons_of_length_pos (Nat.zero_lt_of_lt hlong)
  have hplain : ∀ c ∈ first :: others, Plain c := fun c hc => plain_of_isDigit (hdigits c hc)
  have htokens : ∀ token ∈ [['J', 'P'], first :: others], PlainToken token := by
    refine List.forall_mem_cons.2 ⟨⟨List.cons_ne_nil _ _, plain_spelling .jp⟩, ?_⟩
    exact List.forall_mem_singleton.2 ⟨List.cons_ne_nil _ _, hplain⟩
  have hline : RendersLine [['J', 'P'], first :: others]
      (String.ofList (['J', 'P', ' '] ++ first :: others)).toList := by
    have hspaced : Spaced [['J', 'P'], first :: others]
        (['J', 'P'] ++ ([' '] ++ first :: others)) :=
      .more (by decide) (List.cons_ne_nil _ _) .last
    have hgap : IsGap [] := by decide
    have hrenders := RendersLine.line hgap hspaced hgap .absent
    rw [List.append_nil, List.append_nil] at hrenders
    rw [String.toList_ofList]
    exact hrenders
  have hcanonical : canonicalToken (stripComma (upper (first :: others))) = first :: others :=
    canonicalToken_operand hplain (map_toUpper_of_isDigit hdigits)
      (looksLikeRegister_of_isSign .absent (hdigits first List.mem_cons_self) others)
  have hoverlong : Overlong (.operand, first :: others) := by
    have hwhole := @Overlong.operand false [] (first :: others) [] .absent hdigits hlong
    rwa [List.nil_append, List.append_nil] at hwhole
  have hspelling : ['J', 'P'].map Char.toUpper = Opcode.jp.spelling := rfl
  rw [outcome_eq, sourceTokens_of_rendersLine hline htokens]
  show (encode 0 [(.operation, canonicalToken (upper ['J', 'P'])),
    (.operand, canonicalToken (stripComma (upper (first :: others))))]).outcome = _
  rw [hcanonical, encode_cons 0 _ (encodeToken_operation hspelling),
    encode_cons_of_error 1 [] (encodeToken_of_overlong hoverlong)]
  rfl

end RegisterMachine.Assembly
