import RegisterMachine.Failure
import RegisterMachine.Numeric.Binary64
import RegisterMachine.Screen.Palette

set_option autoImplicit false

/-! # The screen

A `Screen` has a framebuffer of one byte per cell, row after row, a palette, and the state of its
rate-limited flush. The cell of a pixel is found by its distance from the first cell; a distance
below zero counts from the end of the framebuffer (`cell?`). No operation changes the number of
cells, which the type ties to the dimensions (`size_framebuffer`). -/

namespace RegisterMachine

/-- A framebuffer with its palette and the state of its flushes. Times are in seconds. -/
structure Screen where
  width : Int
  height : Int
  framebuffer : Array UInt8
  /-- There is one cell for every pixel. -/
  size_framebuffer : (framebuffer.size : Int) = width * height
  palette : Palette
  /-- The least time between two flushes. -/
  refreshInterval : Rat
  /-- The present reading of the screen's clock. -/
  clock : Rat
  /-- The reading at the last flush. -/
  lastFlush : Option Rat
  /-- How many flushes there were. -/
  flushes : Nat
  isOpen : Bool

/-- What a flush hands over: the framebuffer with its palette and dimensions. -/
structure Frame where
  width : Int
  height : Int
  framebuffer : Array UInt8
  palette : Palette

/-- The colours of a frame's pixels, row after row. -/
def Frame.colours (frame : Frame) : List Int :=
  frame.framebuffer.toList.map frame.palette.colour

namespace Screen

/-! ## Construction -/

/-- The least number of cells that is too large to be addressed. -/
abbrev cellBound : Int := 0x8000000000000000

/-- The memory for a framebuffer where none is given, in cells. What a host can really give depends
    on the host; these are 64 GiB, a size at which an allocation is expected to fail. -/
abbrev defaultMemory : Nat := 0x1000000000

/-- The number of cells of a framebuffer, which has to be addressable, not negative and less than
    the memory. -/
def cellCount (memory : Nat) (width height : Int) : Except Failure Nat :=
  let cells := width * height
  if cells < -cellBound ∨ cellBound ≤ cells then .error .sizeTooLarge
  else if cells < 0 then .error .negativeSize
  else if memory ≤ cells then .error .outOfMemory
  else .ok cells.toNat

theorem cast_of_cellCount {memory : Nat} {width height : Int} {cells : Nat}
    (h : cellCount memory width height = .ok cells) : (cells : Int) = width * height := by
  simp only [cellCount] at h
  by_cases hrange : width * height < -cellBound ∨ cellBound ≤ width * height
  · simp [hrange] at h
  · by_cases hneg : width * height < 0
    · simp [hrange, hneg] at h
    · by_cases hmemory : memory ≤ width * height
      · simp [hrange, hneg, hmemory] at h
      · simp only [hrange, hneg, hmemory, if_false, Except.ok.injEq] at h
        omega

/-- A dark, open screen that has never been flushed, with its clock at zero. -/
def create (width height refreshMs : Int) (memory : Nat := defaultMemory) :
    Except Failure Screen :=
  match h : cellCount memory width height, Binary64.ofMilliseconds refreshMs with
  | .error failure, _ => .error failure
  | .ok _, none => .error .durationTooLong
  | .ok cells, some interval =>
    .ok {
      width
      height
      framebuffer := Array.replicate cells 0
      size_framebuffer := by rw [Array.size_replicate, cast_of_cellCount h]
      palette := Palette.grayscale
      refreshInterval := interval
      clock := 0
      lastFlush := none
      flushes := 0
      isOpen := true }

/-! ## Pixels -/

/-- The index of the cell at a distance from the first one; below zero the distance is from the
    end. -/
def cellAt? (size : Nat) (distance : Int) : Option Nat :=
  if 0 ≤ distance ∧ distance < size then some distance.toNat
  else if -(size : Int) ≤ distance ∧ distance < 0 then some (distance + size).toNat
  else none

/-- The cell of a pixel. -/
def cell? (screen : Screen) (x y : Int) : Option Nat :=
  cellAt? screen.framebuffer.size (y * screen.width + x)

/-- The low byte of a colour index. -/
def lowByte (index : Int) : UInt8 :=
  UInt8.ofNat (index % 256).toNat

/-- Sets a pixel to the low byte of a colour index. -/
def setPixel (screen : Screen) (x y index : Int) : Except Failure Screen :=
  match screen.cell? x y with
  | some cell =>
    .ok { screen with
      framebuffer := screen.framebuffer.setIfInBounds cell (lowByte index)
      size_framebuffer := by rw [Array.size_setIfInBounds, screen.size_framebuffer] }
  | none => .error .outsideFramebuffer

/-- The byte of a pixel. -/
def getPixel (screen : Screen) (x y : Int) : Except Failure UInt8 :=
  match (screen.cell? x y).bind (screen.framebuffer[·]?) with
  | some byte => .ok byte
  | none => .error .outsideFramebuffer

/-- Makes all pixels dark. -/
def clear (screen : Screen) : Screen :=
  { screen with
    framebuffer := Array.replicate screen.framebuffer.size 0
    size_framebuffer := by rw [Array.size_replicate, screen.size_framebuffer] }

/-- Whether a pixel is on the screen. -/
def OnScreen (screen : Screen) (x y : Int) : Prop :=
  (0 ≤ x ∧ x < screen.width) ∧ 0 ≤ y ∧ y < screen.height

instance (screen : Screen) (x y : Int) : Decidable (screen.OnScreen x y) :=
  inferInstanceAs (Decidable (_ ∧ _))

/-! ## Palette, clock and flushes -/

/-- Replaces the palette by a list of colours, one for every byte. -/
def setPalette (screen : Screen) (colours : List Int) : Except Failure Screen :=
  if h : colours.length = paletteSize then
    .ok { screen with palette := ⟨colours.toArray, by simpa using h⟩ }
  else .error (.paletteLength colours.length)

/-- Sets the clock to a number of milliseconds. -/
def setClock (screen : Screen) (ms : Int) : Except Failure Screen :=
  match Binary64.ofMilliseconds ms with
  | some reading => .ok { screen with clock := reading }
  | none => .error .durationTooLong

/-- Closes the screen. -/
def close (screen : Screen) : Screen :=
  { screen with isOpen := false }

/-- The frame that a flush hands over. -/
def frame (screen : Screen) : Frame :=
  ⟨screen.width, screen.height, screen.framebuffer, screen.palette⟩

/-- Whether the last flush is younger than the refresh interval. -/
def isFresh (screen : Screen) : Bool :=
  match screen.lastFlush with
  | some last => Binary64.differenceLess screen.clock last screen.refreshInterval
  | none => false

/-- Flushes the screen unless it is fresh, and gives the frame if it did. -/
def update (screen : Screen) : Screen × Option Frame :=
  if screen.isFresh then (screen, none)
  else
    ({ screen with lastFlush := some screen.clock, flushes := screen.flushes + 1 },
      some screen.frame)

/-! ## Laws -/

theorem cellAt?_lt {size : Nat} {distance : Int} {cell : Nat}
    (h : cellAt? size distance = some cell) : cell < size := by
  unfold cellAt? at h
  split at h
  · simp only [Option.some.injEq] at h
    omega
  · split at h
    · simp only [Option.some.injEq] at h
      omega
    · simp at h

theorem update_of_isFresh {screen : Screen} (h : screen.isFresh = true) :
    screen.update = (screen, none) := by
  simp [update, h]

end Screen

end RegisterMachine
