import RegisterMachine.Proofs.Numeral
import RegisterMachine.Proofs.Rows
import Mathlib.Data.Bool.AllAny
import Mathlib.Data.List.Forall2

set_option autoImplicit false

/-! # Renderings of a program

`Renders` relates a program to all source texts that write it down: one line per instruction, in any
mixture of case, with any gaps, commas, literals, comments and blank lines. Assembling such a text
gives the words of the instructions (`outcome_assemble`), and listing these words gives the
instructions back, each at the address behind the ones before it (`rowsFrom_flatMap_words`). -/

namespace RegisterMachine

/-- Whether all operands are signed 32-bit numbers. -/
def Instruction.Fits (i : Instruction) : Prop :=
  ∀ n ∈ i.operands, Word.Fits n

instance (i : Instruction) : Decidable i.Fits :=
  inferInstanceAs (Decidable (∀ n ∈ i.operands, Word.Fits n))

namespace Assembly

open Text

/-! ## Spellings -/

/-- The spellings of an operand: a register in any mixture of case, with commas after it, or a
    literal. -/
inductive SpellsOperand : OperandKind → Int → Token → Prop where
  | register {r : Register} {name : List Char} (commas : Nat)
      (h : name.map Char.toUpper = r.spelling) :
      SpellsOperand .register r.val (name ++ List.replicate commas ',')
  | value {n : Int} {text : List Char} (h : SpellsLiteral n text) : SpellsOperand .value n text
  | address {n : Int} {text : List Char} (h : SpellsLiteral n text) : SpellsOperand .address n text

/-- The spellings of operands, each of its own kind. -/
inductive SpellsOperands : List OperandKind → List Int → List Token → Prop where
  | nil : SpellsOperands [] [] []
  | cons {kind : OperandKind} {kinds : List OperandKind} {n : Int} {ns : List Int} {token : Token}
      {tokens : List Token} (h : SpellsOperand kind n token)
      (hrest : SpellsOperands kinds ns tokens) :
      SpellsOperands (kind :: kinds) (n :: ns) (token :: tokens)

/-- The spellings of an instruction: its mnemonic in any mixture of case, and its operands. -/
inductive SpellsInstruction (i : Instruction) : List Token → Prop where
  | tokens {name : Token} {operands : List Token}
      (hname : name.map Char.toUpper = i.opcode.spelling)
      (hoperands : SpellsOperands i.opcode.signature i.operands operands) :
      SpellsInstruction i (name :: operands)

/-- The lines that render a program: one for each instruction, in order, and blank ones. -/
inductive RendersLines : List Instruction → List (List Char) → Prop where
  | done : RendersLines [] []
  | blank {program : List Instruction} {line : List Char} {lines : List (List Char)}
      (hline : RendersLine [] line) (h : RendersLines program lines) :
      RendersLines program (line :: lines)
  | instruction {i : Instruction} {tokens : List Token} {program : List Instruction}
      {line : List Char} {lines : List (List Char)} (hi : SpellsInstruction i tokens)
      (hline : RendersLine tokens line) (h : RendersLines program lines) :
      RendersLines (i :: program) (line :: lines)

/-- Whether a source text is a program's lines, with line feeds between them. -/
def Renders (program : List Instruction) (source : String) : Prop :=
  ∃ lines, RendersLines program lines ∧ source.toList = ['\n'].intercalate lines

/-! ## Spelt tokens are plain -/

theorem plain_spelling (op : Opcode) : ∀ c ∈ op.spelling, Plain c := by
  have hall : op.spelling.all (decide <| Plain ·) = true := by cases op <;> rfl
  exact List.all_iff_forall_prop.1 hall

theorem map_toUpper_spelling (op : Opcode) : op.spelling.map Char.toUpper = op.spelling := by
  cases op <;> rfl

theorem plain_register_spelling (r : Register) : ∀ c ∈ r.spelling, Plain c := by
  have hall : r.spelling.all (decide <| Plain ·) = true := by
    revert r
    decide
  exact List.all_iff_forall_prop.1 hall

theorem map_toUpper_register_spelling (r : Register) :
    r.spelling.map Char.toUpper = r.spelling := by
  revert r
  decide

theorem plain_of_map_toUpper {letters name : List Char} (h : name.map Char.toUpper = letters)
    (hletters : ∀ c ∈ letters, Plain c) : ∀ c ∈ name, Plain c := by
  intro c hc
  exact plain_of_toUpper (hletters _ (h ▸ List.mem_map_of_mem hc))

theorem ne_nil_of_map_toUpper {letters name : List Char} (h : name.map Char.toUpper = letters)
    (hletters : letters ≠ []) : name ≠ [] := by
  rintro rfl
  exact hletters h.symm

theorem plain_of_mem_commas {commas : Nat} : ∀ c ∈ List.replicate commas ',', Plain c := by
  intro c hc
  rw [List.eq_of_mem_replicate hc]
  decide

theorem SpellsOperand.plainToken {kind : OperandKind} {n : Int} {token : Token}
    (h : SpellsOperand kind n token) : PlainToken token := by
  cases h with
  | @register r name commas h =>
      have hplain := plain_of_map_toUpper h (plain_register_spelling r)
      have hne := ne_nil_of_map_toUpper h (List.cons_ne_nil _ _)
      refine ⟨fun hnil => hne (List.append_eq_nil_iff.1 hnil).1, fun c hc => ?_⟩
      exact (List.mem_append.1 hc).elim (hplain c) (plain_of_mem_commas c)
  | value h => exact h.plainToken
  | address h => exact h.plainToken

theorem SpellsOperands.plainToken {kinds : List OperandKind} {ns : List Int} {tokens : List Token}
    (h : SpellsOperands kinds ns tokens) : ∀ token ∈ tokens, PlainToken token := by
  induction h with
  | nil => exact fun _ hmem => absurd hmem List.not_mem_nil
  | cons h hrest ih => exact List.forall_mem_cons.2 ⟨h.plainToken, ih⟩

theorem SpellsInstruction.plainToken {i : Instruction} {tokens : List Token}
    (h : SpellsInstruction i tokens) : ∀ token ∈ tokens, PlainToken token := by
  obtain ⟨hname, hoperands⟩ := h
  have hne : i.opcode.spelling ≠ [] := by cases i.opcode <;> exact List.cons_ne_nil _ _
  refine List.forall_mem_cons.2 ⟨⟨?_, ?_⟩, hoperands.plainToken⟩
  · exact ne_nil_of_map_toUpper hname hne
  · exact plain_of_map_toUpper hname (plain_spelling i.opcode)

/-! ## Encoding -/

theorem stripComma_spelling (r : Register) (commas : Nat) :
    stripComma (r.spelling ++ List.replicate commas ',') = r.spelling := by
  have hlooks : looksLikeRegister (r.spelling ++ List.replicate commas ',') = true := rfl
  have hcommas : ∀ c ∈ List.replicate commas ',', (c == ',') = true := by
    intro c hc
    exact beq_iff_eq.2 (List.eq_of_mem_replicate hc)
  have hspelling : ∀ s : Register, dropTrailing (· == ',') s.spelling = s.spelling := by decide
  rw [stripComma, if_pos hlooks, dropTrailing_append_of_forall_true hcommas, hspelling]

theorem encodeToken_spelling (r : Register) : encodeToken .operand r.spelling = .ok r.val := by
  revert r
  decide

/-- A register without its commas is encoded as its index. -/
theorem encodeToken_register {r : Register} {name : List Char} (commas : Nat)
    (h : name.map Char.toUpper = r.spelling) :
    encodeToken .operand
        (canonicalToken (stripComma (upper (name ++ List.replicate commas ',')))) =
      .ok r.val := by
  have hplain := plain_register_spelling r
  have hupper : upper (name ++ List.replicate commas ',') =
      r.spelling ++ List.replicate commas ',' := by
    rw [upper_append, upper_of_plain (plain_of_map_toUpper h hplain), h,
      upper_of_plain plain_of_mem_commas, List.map_replicate]
    rfl
  rw [hupper, stripComma_spelling,
    canonicalToken_of_plain hplain (map_toUpper_register_spelling r), encodeToken_spelling]

/-- A plain operand in upper case that is no register is not changed before it is read. -/
theorem canonicalToken_operand {text : Token} (h : ∀ c ∈ text, Plain c)
    (hupper : text.map Char.toUpper = text) (hlooks : looksLikeRegister text = false) :
    canonicalToken (stripComma (upper text)) = text := by
  rw [upper_of_plain h, hupper, stripComma, if_neg (Bool.not_eq_true _ ▸ hlooks),
    canonicalToken_of_plain h hupper]

theorem encodeToken_of_spellsLiteral {n : Int} {text : List Char} (h : SpellsLiteral n text) :
    encodeToken .operand (canonicalToken (stripComma (upper text))) = parseLiteral text := by
  rw [canonicalToken_operand h.plainToken.plain h.map_toUpper h.looksLikeRegister, encodeToken,
    if_neg (Bool.not_eq_true _ ▸ h.looksLikeRegister)]

theorem encodeToken_literal {n : Int} {text : List Char} (h : SpellsLiteral n text)
    (hfits : Word.Fits n) :
    encodeToken .operand (canonicalToken (stripComma (upper text))) = .ok n := by
  rw [encodeToken_of_spellsLiteral h]
  exact parseLiteral_of_spells h hfits

theorem encodeToken_of_spells {kind : OperandKind} {n : Int} {token : Token}
    (h : SpellsOperand kind n token) (hfits : Word.Fits n) :
    encodeToken .operand (canonicalToken (stripComma (upper token))) = .ok n := by
  cases h with
  | register commas h => exact encodeToken_register commas h
  | value h => exact encodeToken_literal h hfits
  | address h => exact encodeToken_literal h hfits

theorem encodeToken_operation {op : Opcode} {name : Token}
    (h : name.map Char.toUpper = op.spelling) :
    encodeToken .operation (canonicalToken (upper name)) = .ok op.code := by
  have hplain := plain_spelling op
  rw [upper_of_plain (plain_of_map_toUpper h hplain), h,
    canonicalToken_of_plain hplain (map_toUpper_spelling op), encodeToken, operationWord,
    upper_of_plain hplain, map_toUpper_spelling, Opcode.ofSpelling?_spelling]

/-- Whether a token in its place is encoded as a word. -/
def Encodes (token : Place × Token) (word : Int) : Prop :=
  encodeToken token.1 token.2 = .ok word

theorem Encodes.of_encodeToken {place : Place} {token : Token} {word : Int}
    (h : encodeToken place token = .ok word) : Encodes (place, token) word :=
  h

/-- The words of tokens are the word of the first one and those of the others. -/
theorem exists_of_outcome_encode_cons {token : Place × Token} {tokens : List (Place × Token)}
    {words : List Int} {offset : Nat} (h : (encode offset (token :: tokens)).outcome = .ok words) :
    ∃ word rest, words = word :: rest ∧ Encodes token word ∧
      (encode (offset + 1) tokens).outcome = .ok rest := by
  obtain ⟨place, token⟩ := token
  cases hword : encodeToken place token with
  | error failure =>
      rw [encode_cons_of_error offset tokens hword] at h
      cases h
  | ok word =>
      rw [encode_cons offset tokens hword] at h
      cases hrest : (encode (offset + 1) tokens).outcome with
      | error failure =>
          rw [hrest] at h
          cases h
      | ok rest =>
          rw [hrest] at h
          cases h
          exact ⟨word, rest, rfl, hword, rfl⟩

/-- Tokens that are encoded one by one are encoded all together. -/
theorem outcome_encode {tokens : List (Place × Token)} {words : List Int}
    (h : List.Forall₂ Encodes tokens words) (offset : Nat) :
    (encode offset tokens).outcome = .ok words := by
  induction h generalizing offset with
  | nil => rfl
  | @cons token word tokens words hword hrest ih =>
      rw [encode_cons offset tokens hword, ih (offset + 1)]
      rfl

theorem encodes_operands {kinds : List OperandKind} {ns : List Int} {tokens : List Token}
    (h : SpellsOperands kinds ns tokens) (hfits : ∀ n ∈ ns, Word.Fits n) :
    List.Forall₂ Encodes
      (tokens.map fun token => (.operand, canonicalToken (stripComma (upper token)))) ns := by
  induction h with
  | nil => exact .nil
  | cons h hrest ih =>
      obtain ⟨hn, hns⟩ := List.forall_mem_cons.1 hfits
      exact .cons (.of_encodeToken (encodeToken_of_spells h hn)) (ih hns)

theorem tokensOfLine_of_rendersLine {tokens : List Token} {line : List Char}
    (h : RendersLine tokens line) (hplain : ∀ token ∈ tokens, PlainToken token) :
    tokensOfLine line = stripOperandCommas (tokens.map upper) := by
  rw [tokensOfLine, runs_of_rendersLine h hplain]

theorem SpellsInstruction.stripOperandCommas_ne_nil {i : Instruction} {tokens : List Token}
    (h : SpellsInstruction i tokens) : stripOperandCommas (tokens.map upper) ≠ [] := by
  cases h
  exact List.cons_ne_nil _ _

/-- The line of an instruction is encoded as its words. -/
theorem encodes_instruction {i : Instruction} {tokens : List Token} (h : SpellsInstruction i tokens)
    (hfits : i.Fits) :
    List.Forall₂ Encodes (placeTokens ((stripOperandCommas (tokens.map upper)).map canonicalToken))
      i.words := by
  obtain ⟨hname, hoperands⟩ := h
  refine .cons (.of_encodeToken (encodeToken_operation hname)) ?_
  simp only [List.map_map]
  exact encodes_operands hoperands hfits

/-- The lines of a program are encoded as its words, the blank ones as nothing. -/
theorem encodes_lines {program : List Instruction} {lines : List (List Char)}
    (h : RendersLines program lines) (hfits : ∀ i ∈ program, i.Fits) :
    List.Forall₂ Encodes
      (((lines.map tokensOfLine).filter (· ≠ [])).flatMap
        fun line => placeTokens (line.map canonicalToken))
      (program.flatMap Instruction.words) := by
  induction h with
  | done => exact .nil
  | blank hline h ih =>
      -- A blank line has no tokens and is dropped.
      have hblank := tokensOfLine_of_rendersLine hline fun _ hmem => absurd hmem List.not_mem_nil
      rw [List.map_cons, hblank]
      exact ih hfits
  | instruction hi hline h ih =>
      obtain ⟨hfit, hrest⟩ := List.forall_mem_cons.1 hfits
      have htokens := tokensOfLine_of_rendersLine hline hi.plainToken
      have hne := hi.stripOperandCommas_ne_nil
      rw [List.map_cons, htokens, List.filter_cons, if_pos (decide_eq_true hne), List.flatMap_cons,
        List.flatMap_cons]
      exact List.rel_append (encodes_instruction hi hfit) (ih hrest)

theorem newline_not_mem_of_rendersLines {program : List Instruction} {lines : List (List Char)}
    (h : RendersLines program lines) : ∀ line ∈ lines, '\n' ∉ line := by
  induction h with
  | done => exact fun _ hmem => absurd hmem List.not_mem_nil
  | blank hline h ih =>
      refine List.forall_mem_cons.2 ⟨?_, ih⟩
      exact newline_not_mem_of_rendersLine hline fun _ hmem => absurd hmem List.not_mem_nil
  | instruction hi hline h ih =>
      exact List.forall_mem_cons.2 ⟨newline_not_mem_of_rendersLine hline hi.plainToken, ih⟩

/-- The tokens of lines that are put together with line feeds are those of the lines. -/
theorem tokenLines_of_intercalate {source : String} {lines : List (List Char)}
    (hsource : source.toList = ['\n'].intercalate lines) (h : ∀ line ∈ lines, '\n' ∉ line) :
    tokenLines source = (lines.map tokensOfLine).filter (· ≠ []) := by
  -- The text of no lines is that of one blank line, so it is not cut into the lines it came from.
  by_cases hne : lines = []
  · subst hne
    simp only [tokenLines, hsource]
    rfl
  · have hsplit : Text.lines source.toList = lines := by
      rw [Text.lines, hsource]
      exact List.splitOn_intercalate _ h hne
    rw [tokenLines, hsplit]

/-- A text is assembled to the words that its lines are encoded as. -/
theorem outcome_assemble_of_intercalate {source : String} {lines : List (List Char)}
    {words : List Int} (hsource : source.toList = ['\n'].intercalate lines)
    (hnewline : ∀ line ∈ lines, '\n' ∉ line)
    (hencodes : List.Forall₂ Encodes
      (((lines.map tokensOfLine).filter (· ≠ [])).flatMap
        fun line => placeTokens (line.map canonicalToken)) words) :
    (assemble source).outcome = .ok words := by
  rw [← tokenLines_of_intercalate hsource hnewline] at hencodes
  exact outcome_encode hencodes 0

/-- Assembling a rendering gives the words of the program. -/
theorem outcome_assemble {program : List Instruction} {source : String}
    (h : Renders program source) (hfits : ∀ i ∈ program, i.Fits) :
    (assemble source).outcome = .ok (program.flatMap Instruction.words) := by
  obtain ⟨lines, hlines, hsource⟩ := h
  exact outcome_assemble_of_intercalate hsource (newline_not_mem_of_rendersLines hlines)
    (encodes_lines hlines hfits)

end Assembly

/-! ## Listing -/

namespace Listing

/-- The words of an instruction are one row. -/
theorem rowsFrom_words_append (address : Nat) (i : Instruction) (rest : List Int) :
    rowsFrom address (i.words ++ rest) =
      ⟨address, i.opcode.code, i.operands⟩ :: rowsFrom (address + i.width) rest := by
  rw [Instruction.words, List.cons_append, rowsFrom, operandCount_code, ← i.length_operands,
    List.take_left, List.drop_left, i.length_operands, Nat.add_assoc]
  rfl

/-- The listing of a program's words has one row per instruction, at the total width of the
    instructions before it. -/
theorem rowsFrom_flatMap_words (address : Nat) (program : List Instruction) :
    rowsFrom address (program.flatMap Instruction.words) =
      program.mapIdx fun k i =>
        ⟨address + ((program.take k).map Instruction.width).sum, i.opcode.code, i.operands⟩ := by
  induction program generalizing address with
  | nil => rw [List.flatMap_nil, rowsFrom, List.mapIdx_nil]
  | cons i program ih =>
      rw [List.flatMap_cons, rowsFrom_words_append, ih, List.mapIdx_cons]
      simp only [List.take_zero, List.take_succ_cons, List.map_nil, List.map_cons, List.sum_nil,
        List.sum_cons, Nat.add_zero, Nat.add_assoc]

end Listing

/-! ## Round trip -/

namespace Assembly

/-- Assembling a rendering of a program gives the words of its instructions, and listing these words
    gives one row per instruction: its opcode and its operands, at the total width of the
    instructions before it. -/
theorem assemble_of_renders {program : List Instruction} {source : String}
    (h : Renders program source) (hfits : ∀ i ∈ program, i.Fits) :
    (assemble source).outcome = .ok (program.flatMap Instruction.words) ∧
      Listing.rows (program.flatMap Instruction.words) =
        program.mapIdx fun k i =>
          ⟨((program.take k).map Instruction.width).sum, i.opcode.code, i.operands⟩ := by
  refine ⟨outcome_assemble h hfits, ?_⟩
  rw [Listing.rows, Listing.rowsFrom_flatMap_words]
  simp only [Nat.zero_add]

/-- Two instructions in mixed case, with a comment, a blank line and commas. -/
theorem assemble_of_renders_mixed_case :
    Renders [.movv 1 (-7), .print 1] "  movV r1,\t-007 //seven\n \nPrint R1,," ∧
      (assemble "  movV r1,\t-007 //seven\n \nPrint R1,,").outcome = .ok [11, 1, -7, 60, 1] ∧
      Listing.rows [11, 1, -7, 60, 1] = [⟨0, 11, [1, -7]⟩, ⟨3, 60, [1]⟩] := by
  have hnumeral : IsNumeral ['0', '0', '7'] :=
    ⟨List.cons_ne_nil _ _, List.all_iff_forall_prop.1 rfl, by decide⟩
  have hseven : SpellsLiteral (-7) ['-', '0', '0', '7'] := .minus hnumeral
  have htarget : SpellsOperand .register (1 : Register).val
      (['r', '1'] ++ List.replicate 1 ',') := .register 1 rfl
  have hsource : SpellsOperand .register (1 : Register).val
      (['R', '1'] ++ List.replicate 2 ',') := .register 2 rfl
  have hmovv : SpellsInstruction (.movv 1 (-7))
      [['m', 'o', 'v', 'V'], ['r', '1', ','], ['-', '0', '0', '7']] :=
    .tokens rfl (.cons htarget (.cons (.value hseven) .nil))
  have hprint : SpellsInstruction (.print 1) [['P', 'r', 'i', 'n', 't'], ['R', '1', ',', ',']] :=
    .tokens rfl (.cons hsource .nil)
  have hspace : IsGap [' '] := by decide
  have hfirst : RendersLine [['m', 'o', 'v', 'V'], ['r', '1', ','], ['-', '0', '0', '7']]
      ([' ', ' '] ++ (['m', 'o', 'v', 'V'] ++ ([' '] ++ (['r', '1', ','] ++ (['\t'] ++
        ['-', '0', '0', '7']))) ++ ([' '] ++ ['/', '/', 's', 'e', 'v', 'e', 'n']))) :=
    .line (by decide) (.more hspace (by decide) (.more (by decide) (by decide) .last)) hspace
      (.slashes (by decide))
  have hsecond : RendersLine [] ([' '] ++ ([] ++ ([] ++ []))) :=
    .line hspace .none (by decide) .absent
  have hthird : RendersLine [['P', 'r', 'i', 'n', 't'], ['R', '1', ',', ',']]
      ([] ++ (['P', 'r', 'i', 'n', 't'] ++ ([' '] ++ ['R', '1', ',', ',']) ++ ([] ++ []))) :=
    .line (by decide) (.more hspace (by decide) .last) (by decide) .absent
  have hrenders : Renders [.movv 1 (-7), .print 1]
      "  movV r1,\t-007 //seven\n \nPrint R1,," :=
    ⟨_, .instruction hmovv hfirst (.blank hsecond (.instruction hprint hthird .done)), by decide⟩
  exact ⟨hrenders, assemble_of_renders hrenders (by decide)⟩

end Assembly

end RegisterMachine
