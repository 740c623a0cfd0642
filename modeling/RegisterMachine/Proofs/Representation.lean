import RegisterMachine.Proofs.Requests

set_option autoImplicit false

/-! # The representation of a screen

The framebuffer of a screen has one byte for each pixel, and its palette one colour for each byte,
whatever is asked of it. A pixel has a cell if its distance from the first one is less than the
number of cells in either direction, and that cell is at the distance modulo this number
(`cellAt?_eq_none_iff`, `cast_of_cellAt?`); setting it changes this one byte, or it fails and
changes nothing (`serve_setPixel`). So every byte that is shown finds its colour and its shade
(`shownBy_frame`, `lookUpShade_eq`), and frames, updates and texts never fail
(`representation_kept`). -/

namespace RegisterMachine.Screen

/-! ## Cells -/

section

variable {size : Nat} {distance : Int}

theorem cellAt?_eq_none_iff :
    cellAt? size distance = none ↔ ¬ (-(size : Int) ≤ distance ∧ distance < size) := by
  unfold cellAt?
  split_ifs with hforward hbackward
  · simp only [false_iff, not_not]
    omega
  · simp only [false_iff, not_not]
    omega
  · simp only [true_iff]
    omega

/-- A cell is found at the distance modulo the number of cells. -/
theorem cast_of_cellAt? {cell : Nat} (h : cellAt? size distance = some cell) :
    (cell : Int) = distance % size := by
  unfold cellAt? at h
  split_ifs at h with hforward hbackward
  · obtain rfl := Option.some.inj h
    rw [Int.toNat_of_nonneg hforward.1, Int.emod_eq_of_lt hforward.1 hforward.2]
  · obtain rfl := Option.some.inj h
    rw [Int.toNat_of_nonneg (by omega), ← Int.add_emod_right, Int.emod_eq_of_lt] <;> omega

end

variable {screen : Screen}

/-- The screen with another byte in one cell. -/
def withByte (screen : Screen) (cell : Nat) (byte : UInt8) : Screen :=
  { screen with
    framebuffer := screen.framebuffer.setIfInBounds cell byte
    size_framebuffer := by rw [Array.size_setIfInBounds, screen.size_framebuffer] }

/-- Setting a pixel changes the byte at its distance modulo the number of cells, or the distance is
    out of range and it fails. -/
theorem serve_setPixel (screen : Screen) (x y index : Int) :
    let service := screen.serve (.operation (.setPixel x y index))
    let distance := y * screen.width + x
    let size := screen.framebuffer.size
    (-(size : Int) ≤ distance ∧ distance < size ∧ ∃ cell < size, (cell : Int) = distance % size ∧
      service = ⟨screen.withByte cell (lowByte index), [], .ok (.answer .nothing)⟩) ∨
    ¬ (-(size : Int) ≤ distance ∧ distance < size) ∧
      service = ⟨screen, [], .error .outsideFramebuffer⟩ := by
  intro service distance size
  have hservice : service = _ := serve_operation nofun
  have hattempt : screen.attempt (.setPixel x y index) = screen.setPixel x y index := rfl
  cases hcell : screen.cell? x y with
  | none =>
      have hset : screen.setPixel x y index = .error .outsideFramebuffer := by
        rw [setPixel, hcell]
      right
      refine ⟨cellAt?_eq_none_iff.1 hcell, ?_⟩
      rw [hservice, operate, hattempt, hset]
      rfl
  | some cell =>
      have hset : screen.setPixel x y index = .ok (screen.withByte cell (lowByte index)) := by
        rw [setPixel, hcell]
        rfl
      have hrange : -(size : Int) ≤ distance ∧ distance < size := by
        by_contra hout
        rw [cell?, cellAt?_eq_none_iff.2 hout] at hcell
        cases hcell
      left
      refine ⟨hrange.1, hrange.2, cell, cellAt?_lt hcell, cast_of_cellAt? hcell, ?_⟩
      rw [hservice, operate, hattempt, hset]
      rfl

/-! ## Palettes -/

/-- Setting the palette replaces it by a list of as many colours as there are bytes, and fails for
    every other list. -/
theorem serve_setPalette (screen : Screen) (colours : List Int) :
    let service := screen.serve (.operation (.setPalette colours))
    (∃ palette : Palette, palette.toList = colours ∧
      service = ⟨{ screen with palette }, [], .ok (.answer .nothing)⟩) ∨
    colours.length ≠ paletteSize ∧
      service = ⟨screen, [], .error (.paletteLength colours.length)⟩ := by
  intro service
  have hservice : service = _ := serve_operation nofun
  have hattempt : screen.attempt (.setPalette colours) = screen.setPalette colours := rfl
  by_cases hlength : colours.length = paletteSize
  · left
    refine ⟨⟨colours.toArray, by simpa using hlength⟩, rfl, ?_⟩
    rw [hservice, operate, hattempt, setPalette, dif_pos hlength]
    rfl
  · right
    refine ⟨hlength, ?_⟩
    rw [hservice, operate, hattempt, setPalette, dif_neg hlength]
    rfl

/-- The shade that stands in the ramp at the place of a byte's colour. -/
def lookUpShade (screen : Screen) (byte : UInt8) : Option Char := do
  let colour ← screen.lookUpColour byte
  shades.toList[brightness colour * 10 / 256]?

theorem lookUpShade_eq (screen : Screen) (byte : UInt8) :
    screen.lookUpShade byte = some (shade (screen.palette.colour byte)) := by
  simp only [lookUpShade, lookUpColour_eq, Option.bind_eq_bind, Option.bind_some]
  exact getElem?_shades _

/-- The bytes of one row. -/
def rowBytes (screen : Screen) (row : Nat) : List UInt8 :=
  let width := screen.width.toNat
  (screen.framebuffer.extract (row * width) ((row + 1) * width)).toList

/-! ## Every history -/

/-- Whatever has been asked of a new screen, it has one byte for each pixel and one colour for each
    byte. Setting a pixel fails if and only if its distance is out of range in both directions, and
    else changes the byte at the distance modulo the number of pixels and nothing else; setting the
    palette fails if and only if the colours are not as many as the bytes; a request that fails
    changes nothing; and frames, updates and texts do not fail, since every colour and every shade
    that they look up is there. -/
theorem representation_kept {width height refreshMs : Int} {memory : Nat}
    (h : create width height refreshMs memory = .ok screen) (history : List Request) :
    let now := screen.serveAll history
    let bytes := now.framebuffer.toList
    ((bytes.length : Int) = width * height ∧ (∀ byte ∈ bytes, byte.toNat ≤ 255) ∧
      now.palette.toList.length = 256) ∧
    (∀ x y index,
      let service := now.serve (.operation (.setPixel x y index))
      let distance := y * width + x
      let inside := -(width * height) ≤ distance ∧ distance < width * height
      (service.outcome = .error .outsideFramebuffer ↔ ¬ inside) ∧
      (inside → service.outcome = .ok (.answer .nothing) ∧ ∃ cell < bytes.length,
        (cell : Int) = distance % (width * height) ∧
          service.screen = now.withByte cell (lowByte index))) ∧
    (∀ colours, (∃ failure, (now.serve (.operation (.setPalette colours))).outcome =
      .error failure) ↔ colours.length ≠ 256) ∧
    (∀ request failure, (now.serve request).outcome = .error failure →
      (now.serve request).screen = now ∧ (now.serve request).frames = []) ∧
    (∃ colours, (now.serve .frame).outcome = .ok (.colours colours) ∧
      (colours.length : Int) = width * height ∧ bytes.mapM now.lookUpColour = some colours) ∧
    (∃ flushed, (now.serve (.operation .update)).outcome = .ok (.answer (.updated flushed))) ∧
    (∃ text, (now.serve .renderText).outcome = .ok (.text text)) ∧
    ∀ row, (now.rowBytes row).mapM now.lookUpShade = some (now.rowShades row) := by
  intro now bytes
  obtain ⟨hcreatedWidth, hcreatedHeight, -⟩ := created h
  obtain ⟨hnowWidth, hnowHeight⟩ := screen.sameSize_serveAll history
  have hwidth : now.width = width := hnowWidth.trans hcreatedWidth
  have hsize : (now.framebuffer.size : Int) = width * height := by
    rw [now.size_framebuffer, hwidth, show now.height = height from hnowHeight.trans hcreatedHeight]
  have hlength : (bytes.length : Int) = width * height := hsize
  refine ⟨⟨hlength, ?_, Vector.length_toList⟩, ?_, ?_, fun request failure => serve_of_failure, ?_,
    ⟨_, congrArg Service.outcome now.serve_update⟩, ⟨_, rfl⟩, ?_⟩
  · intro byte _
    exact Nat.le_of_lt_succ byte.toNat_lt
  · intro x y index service distance inside
    have hservice := now.serve_setPixel x y index
    simp only [hwidth, hsize] at hservice
    rcases hservice with ⟨hlow, hhigh, cell, hcell, hdistance, hserve⟩ | ⟨hout, hserve⟩
    · have hservice : service = _ := hserve
      rw [hservice]
      exact ⟨⟨nofun, fun hout => absurd ⟨hlow, hhigh⟩ hout⟩,
        fun _ => ⟨rfl, cell, hcell, hdistance, rfl⟩⟩
    · have hservice : service = _ := hserve
      rw [hservice]
      exact ⟨⟨fun _ => hout, fun _ => rfl⟩, fun hin => absurd hin hout⟩
  · intro colours
    rcases now.serve_setPalette colours with ⟨palette, rfl, hserve⟩ | ⟨hne, hserve⟩
    · rw [hserve]
      exact ⟨nofun, fun hne => absurd Vector.length_toList hne⟩
    · rw [hserve]
      exact ⟨fun _ => hne, fun _ => ⟨_, rfl⟩⟩
  · refine ⟨_, rfl, ?_, now.shownBy_frame.colours⟩
    rw [Frame.colours, List.length_map]
    exact hlength
  · intro row
    rw [funext now.lookUpShade_eq]
    exact List.mapM_pure

/-- A screen with two negative dimensions: a distance that counts from the end of the framebuffer,
    one that is out of range, and a palette that is too short. -/
theorem representation_kept_negative :
    let history : List Request :=
      [.operation (.setPixel 1 0 0x1ff), .operation (.setPixel 6 0 1), .operation (.setPalette [0]),
        .getPixel 0 9, .operation (.setPixel 0 2 7), .operation .update]
    ∃ screen, create (-2) (-3) 16 = .ok screen ∧
      (screen.serveAll history).framebuffer.toList = [0, 255, 7, 0, 0, 0] ∧
      ∃ colours, ((screen.serveAll history).serve .frame).outcome = .ok (.colours colours) ∧
        colours.length = 6 := by
  intro history
  have hcreated : ((create (-2) (-3) 16).toOption.map fun screen =>
      (screen.serveAll history).framebuffer.toList) = some [0, 255, 7, 0, 0, 0] := by
    decide +kernel
  obtain ⟨screen, h, hbytes⟩ := exists_created hcreated
  obtain ⟨-, -, -, -, ⟨colours, hframe, hlength, -⟩, -⟩ := representation_kept h history
  exact ⟨screen, h, hbytes, colours, hframe, by omega⟩

end RegisterMachine.Screen
