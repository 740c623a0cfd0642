set_option autoImplicit false

/-! # Palettes and shades

A `Palette` gives each byte of a framebuffer a colour, written as `0xRRGGBB` but not bounded to 24
bits. `shade` turns a colour into one of ten characters by the brightness of its low 24 bits
(`brightness_lt`), which always has its place among them (`getElem?_shades`). -/

namespace RegisterMachine

/-- The number of entries of a palette: one for every byte. -/
abbrev paletteSize : Nat := 256

/-- A colour for every byte. -/
abbrev Palette := Vector Int paletteSize

/-- The gray tones from black to white. -/
def Palette.grayscale : Palette :=
  Vector.ofFn fun i => (i.val * 0x010101 : Nat)

/-- The colour of a byte. -/
def Palette.colour (palette : Palette) (byte : UInt8) : Int :=
  palette.get ⟨byte.toNat, byte.toNat_lt⟩

/-- The mean of the three low bytes of a colour. -/
def brightness (colour : Int) : Nat :=
  ((colour / 0x10000 % 0x100 + colour / 0x100 % 0x100 + colour % 0x100) / 3).toNat

theorem brightness_lt (colour : Int) : brightness colour < 256 := by
  unfold brightness
  omega

/-- The shades from the darkest to the brightest. -/
def shades : Vector Char 10 :=
  #v[' ', '.', ':', '-', '=', '+', '*', '#', '%', '@']

/-- The shade of a colour. -/
def shade (colour : Int) : Char :=
  shades.get ⟨brightness colour * 10 / 256, by have := brightness_lt colour; omega⟩

theorem getElem?_shades (colour : Int) :
    shades.toList[brightness colour * 10 / 256]? = some (shade colour) := by
  have hplace : brightness colour * 10 / 256 < shades.toList.length := by
    have := brightness_lt colour
    rw [Vector.length_toList]
    omega
  rw [List.getElem?_eq_getElem hplace]
  rfl

end RegisterMachine
