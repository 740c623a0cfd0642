import RegisterMachine.Screen.Basic
import Mathlib.Tactic.SplitIfs

set_option autoImplicit false

/-! # Pixels and cells

A screen of no negative dimension can be made wherever there is room for its cells
(`exists_create_iff`). A pixel on the screen has the cell at `y * width + x`, counted from the first
one and inside the framebuffer (`cell?_of_onScreen`), so that it can always be set
(`setPixel_of_onScreen`). Clearing the screen puts a zero into every cell (`clear_eq_blank`). -/

namespace RegisterMachine.Screen

/-- A dark screen of one pixel. -/
def dot : Screen where
  width := 1
  height := 1
  framebuffer := #[0]
  size_framebuffer := rfl
  palette := Palette.grayscale
  refreshInterval := 0
  clock := 0
  lastFlush := none
  flushes := 0
  isOpen := true

/-! ## Room for the cells -/

theorem exists_cellCount_iff {memory : Nat} {width height : Int} (hwidth : 0 ≤ width)
    (hheight : 0 ≤ height) :
    (∃ cells, cellCount memory width height = .ok cells) ↔
      width * height < cellBound ∧ width * height < memory := by
  have hnonneg : 0 ≤ width * height := Int.mul_nonneg hwidth hheight
  simp only [cellCount]
  split_ifs with hrange hnegative hmemory
  · simp only [exists_false, false_iff]
    omega
  · omega
  · simp only [exists_false, false_iff]
    omega
  · simp only [Except.ok.injEq, exists_eq', true_iff]
    omega

/-- A screen of no negative dimension can be made where there is room for its cells and its refresh
    interval is finite. -/
theorem exists_create_iff {memory : Nat} {width height refreshMs : Int} (hwidth : 0 ≤ width)
    (hheight : 0 ≤ height) :
    (∃ screen, create width height refreshMs memory = .ok screen) ↔
      (width * height < cellBound ∧ width * height < memory) ∧
        (Binary64.ofMilliseconds refreshMs).isSome = true := by
  rw [← exists_cellCount_iff hwidth hheight]
  unfold create
  split
  · rename_i hcells
    simp [hcells]
  · rename_i hinterval
    simp [hinterval]
  · rename_i hcells hinterval
    simp [hcells, hinterval]

/-! ## The cell of a pixel -/

/-- The cell of a pixel on the screen. -/
def cellOf (screen : Screen) (x y : Int) : Nat :=
  (y * screen.width + x).toNat

/-- The screen with one cell changed to the low byte of a colour index. -/
def plot (screen : Screen) (x y index : Int) : Screen :=
  { screen with
    framebuffer := screen.framebuffer.setIfInBounds (screen.cellOf x y) (lowByte index)
    size_framebuffer := by rw [Array.size_setIfInBounds, screen.size_framebuffer] }

theorem size_zeros (screen : Screen) :
    ((Array.replicate screen.framebuffer.size (0 : UInt8)).size : Int) =
      screen.width * screen.height := by
  rw [Array.size_replicate, screen.size_framebuffer]

/-- The screen with a zero in every cell. -/
def blank (screen : Screen) : Screen :=
  { screen with
    framebuffer := Array.replicate screen.framebuffer.size 0
    size_framebuffer := screen.size_zeros }

theorem clear_eq_blank (screen : Screen) : screen.clear = screen.blank := rfl

variable {screen : Screen} {x y : Int}

/-- A row ends where the next one begins, which is still inside the framebuffer. -/
theorem rowEnd_le_size (hwidth : 0 ≤ screen.width) (hy : y < screen.height) :
    (y + 1) * screen.width ≤ screen.framebuffer.size := by
  rw [screen.size_framebuffer, Int.mul_comm screen.width]
  exact Int.mul_le_mul_of_nonneg_right hy hwidth

theorem distance_of_onScreen (h : screen.OnScreen x y) :
    0 ≤ y * screen.width + x ∧ y * screen.width + x < screen.framebuffer.size := by
  obtain ⟨⟨hx, hwidth⟩, hy, hheight⟩ := h
  have hrow : 0 ≤ y * screen.width := Int.mul_nonneg hy (by omega)
  have hend := rowEnd_le_size (by omega) hheight
  rw [Int.add_mul, Int.one_mul] at hend
  constructor <;> omega

theorem cell?_of_onScreen (h : screen.OnScreen x y) :
    screen.cell? x y = some (screen.cellOf x y) := by
  rw [cell?, cellAt?, if_pos (distance_of_onScreen h), cellOf]

theorem cellOf_lt_size (h : screen.OnScreen x y) :
    screen.cellOf x y < screen.framebuffer.size :=
  cellAt?_lt (cell?_of_onScreen h)

/-- On the screen every pixel can be set. -/
theorem setPixel_of_onScreen (h : screen.OnScreen x y) (index : Int) :
    screen.setPixel x y index = .ok (screen.plot x y index) := by
  simp only [setPixel, cell?_of_onScreen h, plot]

end RegisterMachine.Screen
