import RegisterMachine.Proofs.Pixels
import RegisterMachine.Screen.Render
import RegisterMachine.Text.Lines
import Mathlib.Data.Int.Bitwise
import Mathlib.Tactic.Zify

set_option autoImplicit false

/-! # The picture in the text

The text that shows a screen leaves out blanks at the ends of lines and lines at the end, and
nothing else. What is dropped from the end of a list is put back by filling it up
(`rightpad_dropTrailing`), first the lines that are left to the width of the screen and then the
rows to its height (`filled_textLines`). So the text tells the shade of every pixel
(`shade_of_renderText`), which is the one that shifts and masks of its colour give, for any integer
(`brightness_eq_masked`). -/

namespace RegisterMachine

/-! ## Filling up -/

namespace Text

section

variable {α : Type} {p : α → Bool} {a : α}

/-- If only one item can be dropped, filling up with it puts back what was dropped. -/
theorem rightpad_dropTrailing (h : ∀ b, p b = true → b = a) (items : List α) :
    (dropTrailing p items).rightpad items.length a = items := by
  obtain ⟨suffix, hdropped, hsuffix⟩ := exists_dropTrailing_append p items
  have hlength : items.length - (dropTrailing p items).length = suffix.length := by
    rw [← congrArg List.length hsuffix, List.length_append, Nat.add_sub_cancel_left]
  have hreplicate : suffix = List.replicate suffix.length a :=
    List.eq_replicate_iff.2 ⟨rfl, fun b hb => h b (hdropped b hb)⟩
  rw [List.rightpad, hlength, ← hreplicate, hsuffix]

theorem map_rightpad {β : Type} (f : α → β) (count : Nat) (items : List α) :
    (items.rightpad count a).map f = (items.map f).rightpad count (f a) := by
  rw [List.rightpad, List.rightpad, List.map_append, List.map_replicate, List.length_map]

end

/-- The lines that a text shows; an empty text shows none. -/
def shownLines (text : String) : List (List Char) :=
  if text = "" then [] else lines text.toList

/-- Lines filled up with blanks to a number of columns and a number of rows. -/
def filled (columns rows : Nat) (lines : List (List Char)) : List (List Char) :=
  (lines.map (List.rightpad columns ' ')).rightpad rows (List.replicate columns ' ')

/-- Rows of the same length are got back from their lines. -/
theorem filled_dropTrailing {columns : Nat} {rows : List (List Char)}
    (h : ∀ row ∈ rows, row.length = columns) :
    filled columns rows.length
      (dropTrailing (·.isEmpty) (rows.map (dropTrailing (· == ' ')))) = rows := by
  have hempty : ∀ line : List Char, line.isEmpty = true → line = [] := fun _ => List.isEmpty_iff.1
  have hblank : ∀ c : Char, (c == ' ') = true → c = ' ' := fun _ => eq_of_beq
  have hlines := rightpad_dropTrailing hempty (rows.map (dropTrailing (· == ' ')))
  rw [List.length_map] at hlines
  calc filled columns rows.length (dropTrailing (·.isEmpty) (rows.map (dropTrailing (· == ' '))))
      = (rows.map (dropTrailing (· == ' '))).map (List.rightpad columns ' ') := by
        rw [filled, show List.replicate columns ' ' = List.rightpad columns ' ' [] from rfl,
          ← map_rightpad, hlines]
    _ = rows.map id := by
        rw [List.map_map]
        refine List.map_congr_left fun row hrow => ?_
        rw [Function.comp_apply, ← h row hrow]
        exact rightpad_dropTrailing hblank row
    _ = rows := List.map_id rows

end Text

/-! ## Shades -/

/-- A mask of the low byte is the remainder modulo 256, also below zero. -/
theorem land_low_byte (n : Int) : n.land 0xff = n % 0x100 := by
  cases n with
  | ofNat n =>
      show ((n &&& 2 ^ 8 - 1 : Nat) : Int) = _
      rw [Nat.and_two_pow_sub_one_eq_mod]
      rfl
  | negSucc n =>
      -- Below zero the mask keeps the low bits of the complement.
      have hcomplement : Nat.ldiff 0xff n = 2 ^ 8 - (n % 2 ^ 8 + 1) := by
        refine Nat.eq_of_testBit_eq fun i => ?_
        rw [Nat.testBit_ldiff, Nat.testBit_two_pow_sub_succ (Nat.mod_lt _ (by decide)),
          Nat.testBit_mod_two_pow, show 0xff = 2 ^ 8 - 1 from rfl, Nat.testBit_two_pow_sub_one]
        cases decide (i < 8) <;> rfl
      show ((Nat.ldiff 0xff n : Nat) : Int) = _
      rw [hcomplement, Int.negSucc_eq]
      omega

/-- The brightness is the mean of the three low bytes, as shifts and masks take them. -/
theorem brightness_eq_masked (colour : Int) :
    (brightness colour : Int) =
      ((colour >>> (16 : Nat)).land 0xff + (colour >>> (8 : Nat)).land 0xff +
        colour.land 0xff) / 3 := by
  simp only [land_low_byte, Int.shiftRight_eq_div_pow, Nat.reducePow, Nat.cast_ofNat]
  unfold brightness
  omega

theorem shade_ne_newline (colour : Int) : shade colour ≠ '\n' := by
  have hshades : ∀ i, shades.get i ≠ '\n' := by decide
  exact hshades _

namespace Screen

open Text

variable {screen : Screen}

/-! ## Lines -/

theorem exists_row_of_mem_textLines {line : List Char} (h : line ∈ screen.textLines) :
    ∃ row : Nat, (row : Int) < screen.height ∧
      line = dropTrailing (· == ' ') (screen.rowShades row) := by
  obtain ⟨row, hrow, rfl⟩ := List.mem_map.1 (mem_of_mem_dropTrailing h)
  have hbelow := List.mem_range.1 hrow
  exact ⟨row, by omega, rfl⟩

theorem length_textLines_le (screen : Screen) : screen.textLines.length ≤ screen.height.toNat := by
  refine (length_dropTrailing_le _ _).trans ?_
  rw [List.length_map, List.length_range]

theorem getLast?_of_mem_textLines {line : List Char} (h : line ∈ screen.textLines) :
    line.getLast? ≠ some ' ' := by
  obtain ⟨row, -, rfl⟩ := exists_row_of_mem_textLines h
  intro hblank
  simpa using getLast?_dropTrailing _ _ _ hblank

theorem newline_not_mem_textLines {line : List Char} (h : line ∈ screen.textLines) :
    '\n' ∉ line := by
  intro hnewline
  obtain ⟨row, -, rfl⟩ := exists_row_of_mem_textLines h
  obtain ⟨byte, -, hshade⟩ := List.mem_map.1 (mem_of_mem_dropTrailing hnewline)
  exact shade_ne_newline _ hshade

/-- The lines of the text are read back from it. -/
theorem shownLines_renderText (screen : Screen) :
    shownLines screen.renderText = screen.textLines := by
  have hlines : screen.textLines ≠ [] → lines screen.renderText.toList = screen.textLines := by
    intro hne
    rw [lines, renderText, String.toList_ofList]
    exact List.splitOn_intercalate '\n' (fun _ => newline_not_mem_textLines) hne
  unfold shownLines
  split_ifs with hempty
  · -- An empty text would be read as one empty line, but no text ends in an empty line.
    by_contra hne
    have hread := hlines (Ne.symm hne)
    rw [hempty] at hread
    exact screen.getLast?_textLines (hread ▸ rfl)
  · refine hlines fun hnone => hempty ?_
    rw [renderText, hnone]
    rfl

/-! ## Rows -/

/-- The cells of a row are inside the framebuffer, and as many as the screen is wide. -/
theorem rowBounds_sub (hwidth : 0 ≤ screen.width) {row : Nat} (hrow : (row : Int) < screen.height) :
    min ((row + 1) * screen.width.toNat) screen.framebuffer.size - row * screen.width.toNat =
      screen.width.toNat := by
  have hend : (row + 1) * screen.width.toNat ≤ screen.framebuffer.size := by
    zify
    rw [Int.toNat_of_nonneg hwidth]
    exact rowEnd_le_size hwidth hrow
  rw [Nat.min_eq_left hend, Nat.add_mul, Nat.one_mul, Nat.add_sub_cancel_left]

/-- A row has one shade for each pixel of it. -/
theorem length_rowShades (hwidth : 0 ≤ screen.width) {row : Nat}
    (hrow : (row : Int) < screen.height) : (screen.rowShades row).length = screen.width.toNat := by
  rw [rowShades, List.length_map, Array.length_toList, Array.size_extract,
    rowBounds_sub hwidth hrow]

theorem length_le_of_mem_textLines (hwidth : 0 ≤ screen.width) {line : List Char}
    (h : line ∈ screen.textLines) : (line.length : Int) ≤ screen.width := by
  obtain ⟨row, hrow, rfl⟩ := exists_row_of_mem_textLines h
  have hshort := length_dropTrailing_le (· == ' ') (screen.rowShades row)
  rw [length_rowShades hwidth hrow] at hshort
  omega

theorem getElem?_rowShades {x y : Nat} (hx : (x : Int) < screen.width)
    (hy : (y : Int) < screen.height) :
    ∃ byte, screen.getPixel x y = .ok byte ∧
      (screen.rowShades y)[x]? = some (shade (screen.palette.colour byte)) := by
  have hwidth : 0 ≤ screen.width := by omega
  have hon : screen.OnScreen x y := ⟨⟨by omega, hx⟩, by omega, hy⟩
  have hcell : screen.cellOf x y = y * screen.width.toNat + x := by
    zify
    rw [cellOf, Int.toNat_of_nonneg (distance_of_onScreen hon).1, Int.toNat_of_nonneg hwidth]
  have hinside := cellOf_lt_size hon
  have hbyte := Array.getElem?_eq_getElem hinside
  refine ⟨screen.framebuffer[screen.cellOf x y], ?_, ?_⟩
  · rw [getPixel, cell?_of_onScreen hon, Option.bind_some, hbyte]
  · rw [rowShades, List.getElem?_map, Array.getElem?_toList, Array.getElem?_extract,
      rowBounds_sub hwidth hy, if_pos (by omega), ← hcell, hbyte]
    rfl

/-- The lines of the text, filled up, are the rows of the screen. -/
theorem filled_textLines (hwidth : 0 ≤ screen.width) :
    filled screen.width.toNat screen.height.toNat screen.textLines =
      (List.range screen.height.toNat).map screen.rowShades := by
  have hrows : ∀ row ∈ (List.range screen.height.toNat).map screen.rowShades,
      row.length = screen.width.toNat := by
    intro row hrow
    obtain ⟨index, hindex, rfl⟩ := List.mem_map.1 hrow
    have := List.mem_range.1 hindex
    exact length_rowShades hwidth (by omega)
  have hfilled := filled_dropTrailing hrows
  rw [List.length_map, List.length_range, List.map_map] at hfilled
  exact hfilled

/-! ## The whole text -/

/-- The text of a screen has no more lines than the screen has rows, each no longer than a row and
    none with a blank at its end, and its last line is not empty. Filled up with blanks, the lines
    are the rows of the screen, with the shade of its pixel in every place. The shade of a colour is
    at the place in the ramp that the mean of the three low bytes gives, for any integer. -/
theorem shade_of_renderText (hwidth : 0 ≤ screen.width) (hheight : 0 ≤ screen.height) :
    let lines := shownLines screen.renderText
    let picture := filled screen.width.toNat screen.height.toNat lines
    ((lines.length : Int) ≤ screen.height ∧
      (∀ line ∈ lines, (line.length : Int) ≤ screen.width ∧ line.getLast? ≠ some ' ') ∧
      lines.getLast? ≠ some []) ∧
    ((picture.length : Int) = screen.height ∧
      (∀ row ∈ picture, (row.length : Int) = screen.width) ∧
      ∀ x y : Nat, x < screen.width → y < screen.height →
        ∃ byte, screen.getPixel x y = .ok byte ∧
          picture[y]?.bind (·[x]?) = some (shade (screen.palette.colour byte))) ∧
    ∀ colour : Int,
      let level := ((colour >>> (16 : Nat)).land 0xff + (colour >>> (8 : Nat)).land 0xff +
        colour.land 0xff) / 3
      0 ≤ level * 10 / 256 ∧ level * 10 / 256 < 10 ∧
        shades.toList[(level * 10 / 256).toNat]? = some (shade colour) := by
  intro lines picture
  have hlines : lines = screen.textLines := shownLines_renderText screen
  have hpicture : picture = (List.range screen.height.toNat).map screen.rowShades := by
    rw [← filled_textLines hwidth, ← hlines]
  refine ⟨⟨?_, ?_, ?_⟩, ⟨?_, ?_, ?_⟩, ?_⟩
  · have hshort := screen.length_textLines_le
    rw [hlines]
    omega
  · intro line hline
    rw [hlines] at hline
    exact ⟨length_le_of_mem_textLines hwidth hline, getLast?_of_mem_textLines hline⟩
  · rw [hlines]
    exact screen.getLast?_textLines
  · rw [hpicture, List.length_map, List.length_range, Int.toNat_of_nonneg hheight]
  · intro row hrow
    rw [hpicture] at hrow
    obtain ⟨index, hindex, rfl⟩ := List.mem_map.1 hrow
    have hbelow := List.mem_range.1 hindex
    rw [length_rowShades hwidth (by omega), Int.toNat_of_nonneg hwidth]
  · intro x y hx hy
    obtain ⟨byte, hbyte, hshade⟩ := getElem?_rowShades hx hy
    refine ⟨byte, hbyte, ?_⟩
    rw [hpicture, List.getElem?_map, List.getElem?_range (by omega)]
    exact hshade
  · intro colour level
    have hlevel : level = brightness colour := (brightness_eq_masked colour).symm
    have hbound := brightness_lt colour
    have hplace : (level * 10 / 256).toNat = brightness colour * 10 / 256 := by omega
    exact ⟨by omega, by omega, hplace ▸ getElem?_shades colour⟩

/-- A screen with a blank row between two others and one below them, and with a colour below
    zero. -/
theorem shade_of_renderText_blank_rows :
    let screen : Screen := { dot with
      width := 2
      height := 4
      framebuffer := #[1, 0, 0, 0, 0, 255, 0, 0]
      size_framebuffer := rfl
      palette := (Vector.replicate paletteSize (-1)).set 0 0 }
    let picture := filled 2 4 (shownLines screen.renderText)
    (0 ≤ screen.width ∧ 0 ≤ screen.height) ∧ screen.renderText = "@\n\n @" ∧
      ∃ byte, screen.getPixel 1 2 = .ok byte ∧
        picture[2]?.bind (·[1]?) = some (shade (screen.palette.colour byte)) := by
  intro screen picture
  obtain ⟨-, ⟨-, -, hpicture⟩, -⟩ :=
    shade_of_renderText (show 0 ≤ screen.width by decide) (show 0 ≤ screen.height by decide)
  exact ⟨by decide, by decide +kernel, hpicture 1 2 (by decide) (by decide)⟩

end Screen

end RegisterMachine
