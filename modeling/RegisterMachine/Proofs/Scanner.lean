import RegisterMachine.Proofs.LineGrammar

set_option autoImplicit false

/-! # Reading a line from its front

A line can also be read by a scanner (`scanLine?`) that takes one token after the other from its
front, each up to a separator or a `//`, and rejects the line where something other than a comment
is left. It takes the maximal runs of the line's code (`scanTokens_spec`) and rejects no line, so
that the tokens of a source text are those that it takes (`scanLines?_eq`). -/

namespace RegisterMachine.Assembly

open Text

/-! ## The scanner -/

/-- The longest token at the front of a text, which may be empty, and what follows it. A token ends
    at a separator or at a `//`. -/
def scanToken : List Char → Token × List Char
  | [] => ([], [])
  | '/' :: '/' :: rest => ([], '/' :: '/' :: rest)
  | c :: rest =>
    if isSeparator c then ([], c :: rest) else (c :: (scanToken rest).1, (scanToken rest).2)

theorem scanToken_append (text : List Char) : (scanToken text).1 ++ (scanToken text).2 = text := by
  fun_induction scanToken text with
  | case4 c rest hcomment hc ih => exact congrArg (c :: ·) ih
  | _ => rfl

theorem length_scanToken_lt {text : List Char}
    (h : (scanToken (text.dropWhile isSeparator)).1 ≠ []) :
    (scanToken (text.dropWhile isSeparator)).2.length < text.length := by
  have hsplit := congrArg List.length (scanToken_append (text.dropWhile isSeparator))
  have hshorter := (List.dropWhile_suffix isSeparator (l := text)).length_le
  have hpos := List.length_pos_iff.2 h
  rw [List.length_append] at hsplit
  omega

/-- As many tokens as there are at the front of a text, with separators before each, and what
    follows them. -/
def scanTokens (text : List Char) : List Token × List Char :=
  let scanned := scanToken (text.dropWhile isSeparator)
  if _ : scanned.1 = [] then ([], text)
  else (scanned.1 :: (scanTokens scanned.2).1, (scanTokens scanned.2).2)
termination_by text.length
decreasing_by all_goals exact length_scanToken_lt ‹_›

/-- What follows a comment at the front of a text, with separators before it, if there is one. -/
def scanComment (text : List Char) : List Char :=
  match text.dropWhile isSeparator with
  | '/' :: '/' :: _ => []
  | _ => text

/-- The tokens of a line without the separators around it, or `none` if something other than a
    comment follows them. -/
def scanLine? (line : List Char) : Option (List Token) :=
  let scanned := scanTokens (trim isSeparator line)
  if (scanComment scanned.2).dropWhile isSeparator = [] then some scanned.1 else none

/-- The tokens of a source text, put into upper case after they have been scanned. -/
def scanLines? (source : String) : Option (List TokenLine) := do
  let scanned ← (lines source.toList).mapM scanLine?
  return (scanned.filter (· ≠ [])).map fun tokens => stripOperandCommas (tokens.map upper)

/-! ## What the scanner takes -/

theorem unbroken_scanToken (text : List Char) : Unbroken (scanToken text).1 := by
  fun_induction scanToken text with
  | case4 c rest hcomment hc ih => exact List.forall_mem_cons.2 ⟨Bool.not_eq_true _ ▸ hc, ih⟩
  | _ => exact nofun

theorem beforeComment_eq_scanToken_append (text : List Char) :
    beforeComment text = (scanToken text).1 ++ beforeComment (scanToken text).2 := by
  fun_induction scanToken text with
  | case4 c rest hcomment hc ih =>
      rw [beforeComment_cons (head?_ne_slash hcomment), ih]
      rfl
  | _ => rfl

/-- A scanned token ends at a separator or where the code ends. -/
theorem scanToken_stop (text : List Char) :
    ∀ c ∈ (beforeComment (scanToken text).2).head?, isSeparator c = true := by
  fun_induction scanToken text with
  | case3 c rest hcomment hc =>
      rw [beforeComment_cons (head?_ne_slash hcomment)]
      intro d hd
      cases hd
      exact hc
  | case4 c rest hcomment hc ih => exact ih
  | _ => exact nofun

/-- Where no token begins, the code is at its end. -/
theorem beforeComment_eq_nil_of_scanToken {text : List Char}
    (hfirst : ∀ c ∈ text.head?, isSeparator c = false) (h : (scanToken text).1 = []) :
    beforeComment text = [] := by
  revert h
  fun_cases scanToken text with
  | case3 c rest hcomment hc =>
      rw [hfirst c rfl] at hc
      cases hc
  | case4 => exact fun h => absurd h (List.cons_ne_nil _ _)
  | _ => exact fun _ => rfl

theorem slash_not_mem_of_separators {gap : List Char} (h : ∀ c ∈ gap, isSeparator c = true) :
    '/' ∉ gap :=
  fun hslash => absurd (h '/' hslash) (by decide)

theorem isSeparator_of_mem_takeWhile {text : List Char} :
    ∀ c ∈ text.takeWhile isSeparator, isSeparator c = true :=
  fun _ => List.mem_takeWhile_imp

theorem isSeparator_of_mem_head?_dropWhile {text : List Char} :
    ∀ c ∈ (text.dropWhile isSeparator).head?, isSeparator c = false := by
  intro c hc
  have hhead := List.head?_dropWhile_not isSeparator text
  rw [Option.mem_def.1 hc] at hhead
  exact hhead

theorem beforeComment_eq_gap_append (text : List Char) :
    beforeComment text =
      text.takeWhile isSeparator ++ beforeComment (text.dropWhile isSeparator) := by
  have hgap := slash_not_mem_of_separators (@isSeparator_of_mem_takeWhile text)
  rw [← beforeComment_append hgap, List.takeWhile_append_dropWhile]

/-- The scanner takes the maximal runs of the code, and only a comment can follow them. -/
theorem scanTokens_spec (text : List Char) :
    MaximalRuns (beforeComment text) (scanTokens text).1 ∧
      beforeComment ((scanTokens text).2.dropWhile isSeparator) = [] := by
  fun_induction scanTokens text with
  | case1 text scanned h =>
      have hend := beforeComment_eq_nil_of_scanToken isSeparator_of_mem_head?_dropWhile h
      refine ⟨?_, hend⟩
      rw [beforeComment_eq_gap_append, hend, List.append_nil]
      exact .none isSeparator_of_mem_takeWhile
  | case2 text scanned h ih =>
      refine ⟨?_, ih.2⟩
      rw [beforeComment_eq_gap_append, beforeComment_eq_scanToken_append]
      exact .more isSeparator_of_mem_takeWhile h (unbroken_scanToken _) (scanToken_stop _) ih.1

theorem dropWhile_scanComment {text : List Char}
    (h : beforeComment (text.dropWhile isSeparator) = []) :
    (scanComment text).dropWhile isSeparator = [] := by
  unfold scanComment
  split
  · rfl
  · rename_i hcomment
    cases hbody : text.dropWhile isSeparator with
    | nil => rfl
    | cons c rest =>
        rw [hbody] at h hcomment
        have hother : ∀ comment, c = '/' → rest = '/' :: comment → False :=
          fun comment hc hrest => hcomment comment (by rw [hc, hrest])
        rw [beforeComment_cons (head?_ne_slash hother)] at h
        cases h

/-! ## Separators at the end of a line -/

theorem runs_append_of_separators_right {gap : List Char} (h : ∀ c ∈ gap, isSeparator c = true)
    (text : List Char) : runs (text ++ gap) = runs text := by
  cases gap with
  | nil => rw [List.append_nil]
  | cons c gap =>
      obtain ⟨hc, hgap⟩ := List.forall_mem_cons.1 h
      rw [runs_append_cons hc, runs_of_separators hgap, List.append_nil]

/-- Separators at the end of a line are at the end of its code or in its comment. -/
theorem exists_beforeComment_append {gap : List Char} (h : ∀ c ∈ gap, isSeparator c = true)
    (text : List Char) : ∃ trail, (∀ c ∈ trail, isSeparator c = true) ∧
      beforeComment (text ++ gap) = beforeComment text ++ trail := by
  fun_induction beforeComment text with
  | case1 =>
      have hgap := beforeComment_append (slash_not_mem_of_separators h) []
      have hnil : beforeComment [] = [] := rfl
      rw [List.append_nil, hnil, List.append_nil] at hgap
      exact ⟨gap, h, hgap⟩
  | case2 => exact ⟨[], List.forall_mem_nil _, rfl⟩
  | case3 c rest hcomment ih =>
      obtain ⟨trail, htrail, hrest⟩ := ih
      refine ⟨trail, htrail, ?_⟩
      rw [List.cons_append, beforeComment_cons, hrest, List.cons_append]
      intro hc hhead
      cases rest with
      | nil => exact slash_not_mem_of_separators h (List.mem_of_mem_head? hhead)
      | cons d rest =>
          cases hhead
          exact hcomment rest hc rfl

theorem runs_beforeComment_trim (line : List Char) :
    runs (beforeComment (trim isSeparator line)) = runs (beforeComment line) := by
  obtain ⟨gap, hgap, hsplit⟩ :=
    exists_dropTrailing_append isSeparator (line.dropWhile isSeparator)
  obtain ⟨trail, htrail, hcode⟩ := exists_beforeComment_append hgap (trim isSeparator line)
  rw [beforeComment_eq_gap_append line, runs_append_of_separators isSeparator_of_mem_takeWhile,
    ← hsplit, ← trim, hcode, runs_append_of_separators_right htrail]

/-! ## The scanner and the tokens -/

theorem scanLine?_eq (line : List Char) : scanLine? line = some (runs (beforeComment line)) := by
  obtain ⟨hruns, hrest⟩ := scanTokens_spec (trim isSeparator line)
  simp only [scanLine?]
  rw [if_pos (dropWhile_scanComment hrest), ← hruns.runs_eq, runs_beforeComment_trim]

/-- The scanner gives up on no source text, and takes the tokens of all of them. -/
theorem scanLines?_eq (source : String) : scanLines? source = some (tokenLines source) := by
  have hscan : scanLine? = fun line => pure (runs (beforeComment line)) := funext scanLine?_eq
  have hblank (tokens : List Token) : stripOperandCommas (tokens.map upper) = [] ↔ tokens = [] := by
    cases tokens <;> simp [stripOperandCommas]
  rw [scanLines?, hscan, List.mapM_pure]
  show some _ = some _
  rw [tokenLines, List.filter_map, List.map_map, List.filter_map]
  congr 2
  refine List.filter_congr fun line _ => ?_
  simp [tokensOfLine, hblank]

/-- The tokens of a source text are the ones that its description asks for and no others. The
    scanner rejects no text and takes the same tokens. No line is empty, and neither is any token,
    nor is a separator or a `//` in one. -/
theorem tokenLines_as_described (source : String) :
    (∀ result, HasTokens source result ↔ result = tokenLines source) ∧
      scanLines? source = some (tokenLines source) ∧
      ∀ line ∈ tokenLines source, line ≠ [] ∧ ∀ token ∈ line, Proper token := by
  refine ⟨fun _ => hasTokens_iff, scanLines?_eq source, fun line hline => ?_⟩
  refine ⟨ne_nil_of_mem_tokenLines hline, fun token htoken => ?_⟩
  obtain ⟨text, -, rfl⟩ := List.mem_map.1 (List.mem_filter.1 hline).1
  exact proper_of_mem_tokensOfLine htoken

/-- Single slashes, three in a row, commas of an operation and of operands, a carriage return, and a
    letter that becomes two. -/
example : tokenLines "ret,/, r1,,/ Rß,,\r\n // R2,\n\nr3,, 7,///4" =
    [["RET,/,".toList, "R1,,/".toList, "RSS".toList], ["R3,,".toList, "7,".toList]] := by
  decide +kernel

end RegisterMachine.Assembly
