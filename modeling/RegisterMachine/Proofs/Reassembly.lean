import RegisterMachine.Proofs.Rendering

set_option autoImplicit false

/-! # Listings as source texts

A listing without its addresses is a source text again (`source?`). Its tokens are the names and
operands of its rows, and each of them is read as a word: that of the listing where the language can
say it, and the unresolved word otherwise (`outcome_assemble_of_source?`). So a listing gives its
words back exactly if each row says them (`reassembles_iff`). -/

namespace RegisterMachine.Listing

open Assembly

/-! ## Without addresses -/

/-- What follows the first colon with a space behind it. -/
def afterAddress : List Char → List Char
  | [] => []
  | ':' :: ' ' :: rest => rest
  | _ :: rest => afterAddress rest

/-- The rows of a list of words without their addresses, as the lines of a text, if all of them can
    be written. -/
def source? (words : List Int) : Except Failure String := do
  let texts ← (rows words).mapM Row.text?
  return String.intercalate "\n" (texts.map fun text => String.ofList (afterAddress text.toList))

theorem afterAddress_append {before : List Char} (h : ':' ∉ before) (rest : List Char) :
    afterAddress (before ++ ':' :: ' ' :: rest) = rest := by
  induction before with
  | nil => rfl
  | cons c before ih =>
      obtain ⟨hc, hbefore⟩ := not_or.1 (mt List.mem_cons.2 h)
      rw [List.cons_append, afterAddress, ih hbefore]
      intro _ heq
      exact absurd heq.symm hc

theorem colon_not_mem_padded (width n : Nat) : ':' ∉ (Decimal.padded width n).toList := by
  intro h
  rw [Decimal.padded, String.toList_ofList, List.leftpad] at h
  rcases List.mem_append.1 h with hzero | hdigit
  · exact absurd (List.eq_of_mem_replicate hzero) (by decide)
  · exact absurd (Nat.isDigit_of_mem_toDigits (by decide) (by decide) hdigit) (by decide)

/-- A row's text without the address is the row's body. -/
theorem afterAddress_text (row : Row) : afterAddress row.text.toList = row.body.toList := by
  have htext : row.text.toList =
      (Decimal.padded 4 row.address).toList ++ ':' :: ' ' :: row.body.toList := by
    simp [Row.text]
  rw [htext, afterAddress_append (colon_not_mem_padded 4 row.address)]

theorem text?_of_writable {row : Row} (h : row.Writable) : row.text? = .ok row.text :=
  if_pos h

theorem mapM_text?_of_writable {rs : List Row} (h : ∀ row ∈ rs, row.Writable) :
    rs.mapM Row.text? = .ok (rs.map Row.text) := by
  induction rs with
  | nil => rfl
  | cons row rs ih =>
      obtain ⟨hrow, hrest⟩ := List.forall_mem_cons.1 h
      rw [List.mapM_cons, text?_of_writable hrow, ih hrest]
      rfl

theorem writable_of_mapM_text? {rs : List Row} {texts : List String}
    (h : rs.mapM Row.text? = .ok texts) : ∀ row ∈ rs, row.Writable := by
  induction rs generalizing texts with
  | nil => exact fun _ hmem => absurd hmem List.not_mem_nil
  | cons row rs ih =>
      rw [List.mapM_cons, Row.text?] at h
      by_cases hrow : row.Writable
      · rw [if_pos hrow] at h
        cases hrest : rs.mapM Row.text? with
        | error failure => rw [hrest] at h; cases h
        | ok rest => exact List.forall_mem_cons.2 ⟨hrow, ih hrest⟩
      · rw [if_neg hrow] at h
        cases h

/-- The source text of a listing: it is there if all rows can be written, and then its lines are the
    bodies of the rows. -/
theorem source?_eq_ok_iff {words : List Int} {source : String} :
    source? words = .ok source ↔ (∀ row ∈ rows words, row.Writable) ∧
      source = String.intercalate "\n" ((rows words).map Row.body) := by
  have hbodies : ((rows words).map Row.text).map (fun text => String.ofList
      (afterAddress text.toList)) = (rows words).map Row.body := by
    simp only [List.map_map, Function.comp_def, afterAddress_text, String.ofList_toList]
  constructor
  · intro h
    cases htexts : (rows words).mapM Row.text? with
    | error failure =>
        rw [source?, htexts] at h
        cases h
    | ok texts =>
        have hwritable := writable_of_mapM_text? htexts
        rw [source?, mapM_text?_of_writable hwritable] at h
        refine ⟨hwritable, ?_⟩
        rw [← hbodies]
        exact (Except.ok.inj h).symm
  · rintro ⟨hwritable, rfl⟩
    rw [source?, mapM_text?_of_writable hwritable, ← hbodies]
    rfl

/-! ## Reading names and operands back -/

/-- The word that is read where a row has an opcode. -/
def readOpcode (word : Int) : Int :=
  if (Opcode.ofCode? word).isSome then word else unresolved

/-- The numbers that a source text can say as an operand of a kind. That no register is meant can be
    said too. -/
def Sayable : OperandKind → Int → Prop
  | .register, n => -1 ≤ n ∧ n ≤ 9
  | .value, n | .address, n => Word.Fits n

instance (kind : OperandKind) (n : Int) : Decidable (Sayable kind n) := by
  cases kind <;> exact inferInstanceAs (Decidable (_ ∧ _))

/-- The word that is read where a row has an operand. -/
def readOperand (kind : OperandKind) (n : Int) : Int :=
  if Sayable kind n then n else unresolved

theorem ofSpelling?_of_spellsLiteral {n : Int} {text : List Char} (h : SpellsLiteral n text) :
    Opcode.ofSpelling? text = none := by
  cases hop : Opcode.ofSpelling? text with
  | none => rfl
  | some op =>
      -- The first letter of a mnemonic is neither a digit nor a sign.
      have hspelling := Opcode.spelling_of_ofSpelling? hop
      have hletter : ∃ c ∈ op.spelling, ¬ (c.isDigit = true ∨ c = '+' ∨ c = '-') := by
        cases op <;> exact ⟨_, List.mem_cons_self, by decide⟩
      obtain ⟨c, hc, hno⟩ := hletter
      exact absurd (h.isDigit_or (hspelling ▸ hc)) hno

theorem encodeToken_name {row : Row} (h : Decimal.Writable row.opcode) :
    encodeToken .operation (canonicalToken (Text.upper row.name.toList)) =
      .ok (readOpcode row.opcode) := by
  unfold Row.name readOpcode
  cases hop : Opcode.ofCode? row.opcode with
  | some op =>
      have hname : op.mnemonic.toList.map Char.toUpper = op.spelling := by
        rw [Opcode.mnemonic, String.toList_ofList, map_toUpper_spelling]
      have hencode := encodeToken_operation hname
      rwa [Opcode.code_of_ofCode? hop] at hencode
  | none =>
      have hspells := spells_text h
      have hplain := hspells.plainToken.plain
      have hupper := hspells.map_toUpper
      simp only [Option.isSome_none, Bool.false_eq_true, if_false]
      rw [Assembly.upper_of_plain hplain, hupper, canonicalToken_of_plain hplain hupper,
        encodeToken, operationWord, Assembly.upper_of_plain hplain, hupper,
        ofSpelling?_of_spellsLiteral hspells]

theorem spelling_eq_toDigits (r : Register) : r.spelling = 'R' :: Nat.toDigits 10 r.val := by
  revert r
  decide

/-- Only a register has its name. -/
theorem registerWord_text (n : Int) :
    registerWord ('R' :: (Decimal.text n).toList) = readOperand .register n := by
  unfold registerWord readOperand
  cases hr : Register.ofSpelling? ('R' :: (Decimal.text n).toList) with
  | some r =>
      have hspelling := Register.spelling_of_ofSpelling? hr
      rw [spelling_eq_toDigits] at hspelling
      have hn : n = r.val := eq_of_toList_text (List.cons.inj hspelling).2.symm
      have hlt : r.val < 10 := r.isLt
      have hsayable : Sayable .register n := ⟨by omega, by omega⟩
      rw [if_pos hsayable, hn]
  | none =>
      have hunnamed : ¬ (0 ≤ n ∧ n ≤ 9) := by
        rintro ⟨hlow, hhigh⟩
        have hlt : n.toNat < 10 := by omega
        let r : Register := ⟨n.toNat, hlt⟩
        have hspelling : r.spelling = 'R' :: (Decimal.text n).toList := by
          rw [spelling_eq_toDigits, toList_text, if_pos hlow]
        rw [← hspelling, Register.ofSpelling?_spelling] at hr
        cases hr
      by_cases hsayable : Sayable .register n
      · rw [if_pos hsayable]
        obtain ⟨hlow, hhigh⟩ := hsayable
        show (-1 : Int) = n
        omega
      · rw [if_neg hsayable]

theorem plain_register_text {n : Int} (h : Decimal.Writable n) :
    PlainToken ('R' :: (Decimal.text n).toList) :=
  .cons (by decide) (spells_text h).plainToken

theorem encodeToken_register_text {n : Int} (h : Decimal.Writable n) :
    encodeToken .operand
        (canonicalToken (stripComma (Text.upper ('R' :: (Decimal.text n).toList)))) =
      .ok (readOperand .register n) := by
  have hplain := (plain_register_text h).plain
  have hupper : ('R' :: (Decimal.text n).toList).map Char.toUpper =
      'R' :: (Decimal.text n).toList := by
    rw [List.map_cons, (spells_text h).map_toUpper]
    rfl
  have hcomma : ∀ c ∈ 'R' :: (Decimal.text n).toList, c ≠ ',' := by
    intro c hc
    rcases List.mem_cons.1 hc with rfl | hc
    · decide
    · rcases (spells_text h).isDigit_or hc with hdigit | rfl | rfl
      · rintro rfl
        exact absurd hdigit (by decide)
      · decide
      · decide
  have hlooks : looksLikeRegister ('R' :: (Decimal.text n).toList) = true := rfl
  have hstrip : stripComma ('R' :: (Decimal.text n).toList) = 'R' :: (Decimal.text n).toList := by
    rw [stripComma, if_pos hlooks]
    exact dropTrailing_of_false fun c hc => beq_eq_false_iff_ne.2 (hcomma c hc)
  have htake : ('R' :: (Decimal.text n).toList).takeWhile (· ≠ ',') =
      'R' :: (Decimal.text n).toList :=
    List.takeWhile_eq_self_iff.2 fun c hc => decide_eq_true (hcomma c hc)
  rw [Assembly.upper_of_plain hplain, hupper, hstrip, canonicalToken_of_plain hplain hupper]
  simp only [encodeToken, if_pos hlooks, htake, registerWord_text]

theorem encodeToken_operandText {n : Int} (kind : OperandKind) (h : Decimal.Writable n) :
    encodeToken .operand (canonicalToken (stripComma (Text.upper (operandText kind n).toList))) =
      .ok (readOperand kind n) := by
  have hliteral : encodeToken .operand (canonicalToken (stripComma (Text.upper
      (Decimal.text n).toList))) = .ok (if Word.Fits n then n else unresolved) := by
    rw [encodeToken_of_spellsLiteral (spells_text h), parseLiteral_eq_of_spells (spells_text h)]
  cases kind with
  | register =>
      have htext : (operandText .register n).toList = 'R' :: (Decimal.text n).toList := by
        rw [operandText, String.toList_append]
        rfl
      rw [htext]
      exact encodeToken_register_text h
  | value => exact hliteral
  | address => exact hliteral

/-! ## Reading rows back -/

/-- The tokens of a row. -/
def Row.tokens (row : Row) : List Token :=
  row.name.toList :: (List.zipWith operandText row.signature row.operands).map String.toList

/-- The words that are read of a row. -/
def Row.reread (row : Row) : List Int :=
  readOpcode row.opcode :: List.zipWith readOperand row.signature row.operands

theorem spaced_intercalate (tokens : List Token) : Spaced tokens ([' '].intercalate tokens) := by
  induction tokens with
  | nil => exact .none
  | cons token tokens ih =>
      cases tokens with
      | nil =>
          rw [List.intercalate_singleton]
          exact .last
      | cons next tokens =>
          rw [List.intercalate_cons_cons, List.append_assoc]
          exact .more (by decide) (List.cons_ne_nil _ _) ih

theorem rendersLine_body (row : Row) : RendersLine row.tokens row.body.toList := by
  have hbody : row.body.toList = [] ++ ([' '].intercalate row.tokens ++ ([] ++ [])) := by
    rw [Row.body, String.toList_intercalate, Row.tokens]
    simp
  rw [hbody]
  exact .line (by decide) (spaced_intercalate row.tokens) (by decide) .absent

theorem plainToken_name {row : Row} (h : Decimal.Writable row.opcode) :
    PlainToken row.name.toList := by
  unfold Row.name
  cases Opcode.ofCode? row.opcode with
  | some op =>
      have hne : op.spelling ≠ [] := by cases op <;> exact List.cons_ne_nil _ _
      simp only [Opcode.mnemonic, String.toList_ofList]
      exact ⟨hne, plain_spelling op⟩
  | none => exact (spells_text h).plainToken

theorem plainToken_operandText {n : Int} (kind : OperandKind) (h : Decimal.Writable n) :
    PlainToken (operandText kind n).toList := by
  cases kind with
  | register =>
      rw [operandText, String.toList_append]
      exact plain_register_text h
  | value => exact (spells_text h).plainToken
  | address => exact (spells_text h).plainToken

theorem plainToken_of_mem_tokens {row : Row} (h : row.Writable) :
    ∀ token ∈ row.tokens, PlainToken token := by
  obtain ⟨hopcode, hoperands⟩ := List.forall_mem_cons.1 h
  refine List.forall_mem_cons.2 ⟨plainToken_name hopcode, ?_⟩
  generalize row.signature = kinds
  generalize row.operands = ns at hoperands
  induction kinds generalizing ns with
  | nil => exact fun _ hmem => absurd hmem List.not_mem_nil
  | cons kind kinds ih =>
      cases ns with
      | nil => exact fun _ hmem => absurd hmem List.not_mem_nil
      | cons n ns =>
          obtain ⟨hn, hns⟩ := List.forall_mem_cons.1 hoperands
          exact List.forall_mem_cons.2 ⟨plainToken_operandText kind hn, ih ns hns⟩

theorem encodes_zipWith (kinds : List OperandKind) {ns : List Int}
    (h : ∀ n ∈ ns, Decimal.Writable n) :
    List.Forall₂ Encodes
      (((List.zipWith operandText kinds ns).map String.toList).map fun token =>
        (.operand, canonicalToken (stripComma (Text.upper token))))
      (List.zipWith readOperand kinds ns) := by
  induction kinds generalizing ns with
  | nil => exact .nil
  | cons kind kinds ih =>
      cases ns with
      | nil => exact .nil
      | cons n ns =>
          obtain ⟨hn, hns⟩ := List.forall_mem_cons.1 h
          exact .cons (.of_encodeToken (encodeToken_operandText kind hn)) (ih hns)

theorem encodes_row {row : Row} (h : row.Writable) :
    List.Forall₂ Encodes
      (placeTokens ((stripOperandCommas (row.tokens.map Text.upper)).map canonicalToken))
      row.reread := by
  obtain ⟨hopcode, hoperands⟩ := List.forall_mem_cons.1 h
  refine .cons (.of_encodeToken (encodeToken_name hopcode)) ?_
  have hencodes := encodes_zipWith row.signature hoperands
  simpa only [List.map_map, Function.comp_def] using hencodes

theorem encodes_rows {rs : List Row} (h : ∀ row ∈ rs, row.Writable) :
    List.Forall₂ Encodes
      ((((rs.map fun row => row.body.toList).map tokensOfLine).filter (· ≠ [])).flatMap
        fun line => placeTokens (line.map canonicalToken))
      (rs.flatMap Row.reread) := by
  induction rs with
  | nil => exact .nil
  | cons row rs ih =>
      obtain ⟨hrow, hrest⟩ := List.forall_mem_cons.1 h
      have htokens : tokensOfLine row.body.toList =
          stripOperandCommas (row.tokens.map Text.upper) :=
        tokensOfLine_of_rendersLine (rendersLine_body row) (plainToken_of_mem_tokens hrow)
      have hne : stripOperandCommas (row.tokens.map Text.upper) ≠ [] := List.cons_ne_nil _ _
      rw [List.map_cons, List.map_cons, htokens, List.filter_cons, if_pos (decide_eq_true hne),
        List.flatMap_cons, List.flatMap_cons]
      exact List.rel_append (encodes_row hrow) (ih hrest)

/-- The source text of a listing is assembled to the words that are read of its rows. -/
theorem outcome_assemble_of_source? {words : List Int} {source : String}
    (h : source? words = .ok source) :
    (assemble source).outcome = .ok ((rows words).flatMap Row.reread) := by
  obtain ⟨hwritable, rfl⟩ := source?_eq_ok_iff.1 h
  have hlines : (String.intercalate "\n" ((rows words).map Row.body)).toList =
      ['\n'].intercalate ((rows words).map fun row => row.body.toList) := by
    rw [String.toList_intercalate, List.map_map]
    rfl
  have hnewline : ∀ line ∈ (rows words).map (fun row => row.body.toList), '\n' ∉ line := by
    intro line hline
    obtain ⟨row, hrow, rfl⟩ := List.mem_map.1 hline
    exact newline_not_mem_of_rendersLine (rendersLine_body row)
      (plainToken_of_mem_tokens (hwritable row hrow))
  exact outcome_assemble_of_intercalate hlines hnewline (encodes_rows hwritable)

/-! ## Rows that are read as they are -/

/-- A source text can say a row: its first word is an opcode or the unresolved word, and each
    operand is one that can be said. -/
def Row.Sayable (row : Row) : Prop :=
  ((Opcode.ofCode? row.opcode).isSome = true ∨ row.opcode = -1) ∧
    ∀ operand ∈ row.signature.zip row.operands, Listing.Sayable operand.1 operand.2

theorem readOpcode_eq_iff (word : Int) :
    readOpcode word = word ↔ (Opcode.ofCode? word).isSome = true ∨ word = -1 := by
  unfold readOpcode
  split
  · rename_i hsome
    exact ⟨fun _ => Or.inl hsome, fun _ => rfl⟩
  · rename_i hnone
    constructor
    · intro h
      exact Or.inr h.symm
    · rintro (hsome | rfl)
      · exact absurd hsome hnone
      · rfl

/-- The unresolved word can be said as an operand of any kind. -/
theorem sayable_unresolved (kind : OperandKind) : Sayable kind unresolved := by
  cases kind <;> decide

theorem readOperand_eq_iff (kind : OperandKind) (n : Int) :
    readOperand kind n = n ↔ Sayable kind n := by
  unfold readOperand
  split
  · rename_i hsayable
    exact ⟨fun _ => hsayable, fun _ => rfl⟩
  · rename_i hno
    constructor
    · rintro rfl
      exact sayable_unresolved kind
    · intro hsayable
      exact absurd hsayable hno

theorem zipWith_readOperand_eq_iff {kinds : List OperandKind} {ns : List Int}
    (hlength : ns.length ≤ kinds.length) :
    List.zipWith readOperand kinds ns = ns ↔
      ∀ operand ∈ kinds.zip ns, Sayable operand.1 operand.2 := by
  induction kinds generalizing ns with
  | nil =>
      have hnil : ns = [] := List.length_eq_zero_iff.1 (Nat.le_zero.1 hlength)
      subst hnil
      exact ⟨fun _ _ hmem => absurd hmem List.not_mem_nil, fun _ => rfl⟩
  | cons kind kinds ih =>
      cases ns with
      | nil => exact ⟨fun _ _ hmem => absurd hmem List.not_mem_nil, fun _ => rfl⟩
      | cons n ns =>
          have hrest := ih (Nat.le_of_succ_le_succ hlength)
          rw [List.zipWith_cons_cons, List.cons.injEq, readOperand_eq_iff, hrest,
            List.zip_cons_cons, List.forall_mem_cons]

/-- A row is read as its own words exactly if it can be said. -/
theorem reread_eq_words_iff {row : Row} (hlength : row.operands.length ≤ row.signature.length) :
    row.reread = row.words ↔ row.Sayable := by
  rw [Row.reread, Row.words, List.cons.injEq, readOpcode_eq_iff,
    zipWith_readOperand_eq_iff hlength, Row.Sayable]

theorem length_operands_le_signature {words : List Int} {row : Row} (h : row ∈ rows words) :
    row.operands.length ≤ row.signature.length := by
  have hcount : operandCount row.opcode = row.signature.length := by
    unfold operandCount Row.signature
    cases Opcode.ofCode? row.opcode <;> rfl
  rw [← hcount]
  exact length_operands_le_of_rowAt? (rowAt?_of_mem_rows h)

theorem length_reread {row : Row} (hlength : row.operands.length ≤ row.signature.length) :
    row.reread.length = row.words.length := by
  rw [Row.reread, Row.words, List.length_cons, List.length_cons, List.length_zipWith,
    Nat.min_eq_right hlength]

/-- Two concatenations of parts of equal lengths are equal exactly if their parts are. -/
theorem flatMap_eq_flatMap_iff {α β : Type} {f g : α → List β} {items : List α}
    (hlength : ∀ a ∈ items, (f a).length = (g a).length) :
    items.flatMap f = items.flatMap g ↔ ∀ a ∈ items, f a = g a := by
  induction items with
  | nil => exact ⟨fun _ _ hmem => absurd hmem List.not_mem_nil, fun _ => rfl⟩
  | cons a items ih =>
      obtain ⟨ha, hitems⟩ := List.forall_mem_cons.1 hlength
      rw [List.flatMap_cons, List.flatMap_cons, List.forall_mem_cons, ← ih hitems]
      constructor
      · intro h
        exact List.append_inj h ha
      · rintro ⟨hfirst, hrest⟩
        rw [hfirst, hrest]

theorem writable_readOpcode (word : Int) : Decimal.Writable (readOpcode word) := by
  unfold readOpcode
  split
  · rename_i hsome
    obtain ⟨op, hop⟩ := Option.isSome_iff_exists.1 hsome
    rw [← Opcode.code_of_ofCode? hop]
    cases op <;> exact Decimal.writable_of_natAbs_lt (by decide)
  · exact Decimal.writable_of_natAbs_lt (by decide)

theorem writable_readOperand (kind : OperandKind) (n : Int) :
    Decimal.Writable (readOperand kind n) := by
  unfold readOperand
  split
  · rename_i hsayable
    refine Decimal.writable_of_natAbs_lt ?_
    cases kind <;> obtain ⟨hlow, hhigh⟩ := hsayable <;> omega
  · exact Decimal.writable_of_natAbs_lt (by decide)

/-- A row that can be said can be written. -/
theorem writable_of_sayable {row : Row} (hlength : row.operands.length ≤ row.signature.length)
    (h : row.Sayable) : row.Writable := by
  rw [← reread_eq_words_iff hlength] at h
  intro n hn
  rw [← h] at hn
  rcases List.mem_cons.1 hn with rfl | hn
  · exact writable_readOpcode row.opcode
  · rw [← List.map_uncurry_zip_eq_zipWith] at hn
    obtain ⟨⟨kind, operand⟩, -, rfl⟩ := List.mem_map.1 hn
    exact writable_readOperand kind operand

/-- The listing of a list of words, without its addresses, is assembled to the same words exactly if
    in every row the first word is an opcode or the unresolved word, every register operand is an
    index of a register or the unresolved word, and every other operand is a signed 32-bit number.
    The last row need not be whole. -/
theorem reassembles_iff (words : List Int) :
    (∃ source, source? words = .ok source ∧ (assemble source).outcome = .ok words) ↔
      ∀ row ∈ rows words, row.Sayable := by
  -- The words of the rows are all words, and each row is read as so many words as it has.
  have hwords : (rows words).flatMap Row.words = words := words_rows words
  have hparts : (rows words).flatMap Row.reread = (rows words).flatMap Row.words ↔
      ∀ row ∈ rows words, row.reread = row.words :=
    flatMap_eq_flatMap_iff fun row hrow => length_reread (length_operands_le_signature hrow)
  constructor
  · rintro ⟨source, hsource, houtcome⟩
    rw [outcome_assemble_of_source? hsource] at houtcome
    have hreread := hparts.1 ((Except.ok.inj houtcome).trans hwords.symm)
    intro row hrow
    exact (reread_eq_words_iff (length_operands_le_signature hrow)).1 (hreread row hrow)
  · intro hsayable
    have hreread : ∀ row ∈ rows words, row.reread = row.words := by
      intro row hrow
      exact (reread_eq_words_iff (length_operands_le_signature hrow)).2 (hsayable row hrow)
    have hwritable : ∀ row ∈ rows words, row.Writable := by
      intro row hrow
      exact writable_of_sayable (length_operands_le_signature hrow) (hsayable row hrow)
    have hsource := source?_eq_ok_iff.2 ⟨hwritable, rfl⟩
    refine ⟨_, hsource, ?_⟩
    rw [outcome_assemble_of_source? hsource, hparts.2 hreread, hwords]

end RegisterMachine.Listing
