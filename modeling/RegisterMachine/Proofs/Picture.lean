import RegisterMachine.Proofs.Effect
import RegisterMachine.Proofs.Reach

set_option autoImplicit false

/-! # The picture of a program

What a program draws is a list of strokes: a colour for one pixel, or darkness for all of them.
`Stroke.latest` is the colour that such a list leaves at a pixel, and a screen `Shows` a list of
strokes if it has these colours. Pixels on the screen have cells of their own (`cellOf_inj`), so a
stroke is shown where it was made and nowhere else (`Shows.strike`). A step makes at most the stroke
of its instruction (`step_screen`), and what has been drawn since a program was loaded is always
shown (`shows_of_passes`). -/

namespace RegisterMachine

/-! ## Strokes -/

/-- What an instruction does to the picture. -/
inductive Stroke where
  /-- One pixel gets a colour. -/
  | pixel (x y colour : Int)
  /-- All pixels get dark. -/
  | wipe
  deriving DecidableEq

namespace Stroke

/-- The colour that a stroke gives to a pixel, if it is made there. -/
def colourAt? (x y : Int) : Stroke → Option Int
  | pixel column row colour => if column = x ∧ row = y then some colour else none
  | wipe => none

/-- The strokes after the latest wipe, the latest first. -/
def sinceWipe (strokes : List Stroke) : List Stroke :=
  strokes.reverse.takeWhile (· ≠ wipe)

/-- The colour of the latest stroke at a pixel since the latest wipe, or zero if there was none. -/
def latest (strokes : List Stroke) (x y : Int) : Int :=
  ((sinceWipe strokes).findSome? (colourAt? x y)).getD 0

theorem latest_nil (x y : Int) : latest [] x y = 0 := rfl

theorem latest_append_wipe (strokes : List Stroke) (x y : Int) :
    latest (strokes ++ [wipe]) x y = 0 := by
  simp [latest, sinceWipe]

theorem latest_append_pixel (strokes : List Stroke) (column row colour x y : Int) :
    latest (strokes ++ [pixel column row colour]) x y =
      if column = x ∧ row = y then colour else latest strokes x y := by
  have hsince : sinceWipe (strokes ++ [pixel column row colour]) =
      pixel column row colour :: sinceWipe strokes := by
    simp [sinceWipe]
  rw [latest, hsince, List.findSome?_cons, colourAt?]
  split_ifs <;> rfl

end Stroke

/-! ## Screens -/

namespace Screen

variable {screen : Screen} {x y column row : Int}

/-- Different pixels on the screen have different cells. -/
theorem cellOf_inj (h : screen.OnScreen x y) (h' : screen.OnScreen column row) :
    screen.cellOf column row = screen.cellOf x y ↔ column = x ∧ row = y := by
  constructor
  · intro hcell
    have hdistance : row * screen.width + column = y * screen.width + x := by
      have := (distance_of_onScreen h).1
      have := (distance_of_onScreen h').1
      unfold cellOf at hcell
      omega
    -- The column is what is left over when rows of the screen's width are taken away.
    have hcolumn : column = x := by
      have hmod := congrArg (· % screen.width) hdistance
      simp only [Int.mul_add_emod_self_right, Int.emod_eq_of_lt h.1.1 h.1.2,
        Int.emod_eq_of_lt h'.1.1 h'.1.2] at hmod
      exact hmod
    subst hcolumn
    have hwidth : screen.width ≠ 0 := by
      have := h.1
      omega
    exact ⟨rfl, Int.eq_of_mul_eq_mul_right hwidth (by omega)⟩
  · rintro ⟨rfl, rfl⟩
    rfl

/-- The screen after a stroke. One outside the screen is not made. -/
def strike (screen : Screen) : Stroke → Screen
  | .pixel x y colour => if screen.OnScreen x y then screen.plot x y colour else screen
  | .wipe => screen.clear

/-- Two screens have the same dimensions. -/
def SameSize (screen other : Screen) : Prop :=
  screen.width = other.width ∧ screen.height = other.height

theorem SameSize.symm {a b : Screen} (h : a.SameSize b) : b.SameSize a :=
  ⟨h.1.symm, h.2.symm⟩

theorem SameSize.trans {a b c : Screen} (h : a.SameSize b) (h' : b.SameSize c) : a.SameSize c :=
  ⟨h.1.trans h'.1, h.2.trans h'.2⟩

theorem SameSize.onScreen_iff {a b : Screen} (h : a.SameSize b) :
    a.OnScreen x y ↔ b.OnScreen x y := by
  rw [OnScreen, OnScreen, h.1, h.2]

theorem sameSize_strike (screen : Screen) (stroke : Stroke) :
    (screen.strike stroke).SameSize screen := by
  cases stroke with
  | wipe => exact ⟨rfl, rfl⟩
  | pixel x y colour =>
      rw [strike]
      split_ifs <;> exact ⟨rfl, rfl⟩

theorem sameSize_update (screen : Screen) : screen.update.1.SameSize screen := by
  unfold update
  split_ifs <;> exact ⟨rfl, rfl⟩

/-- Every pixel on the screen has the latest colour of the strokes. -/
def Shows (screen : Screen) (strokes : List Stroke) : Prop :=
  ∀ x y, screen.OnScreen x y →
    screen.framebuffer[screen.cellOf x y]? = some (lowByte (Stroke.latest strokes x y))

theorem shows_clear (screen : Screen) {strokes : List Stroke}
    (h : ∀ x y, Stroke.latest strokes x y = 0) : screen.clear.Shows strokes := by
  intro x y hon
  have hcell : screen.cellOf x y < screen.framebuffer.size := cellOf_lt_size hon
  rw [h x y]
  show (Array.replicate screen.framebuffer.size 0)[screen.cellOf x y]? = _
  rw [Array.getElem?_replicate, if_pos hcell]
  rfl

theorem Shows.plot {strokes : List Stroke} (h : screen.Shows strokes)
    (hon : screen.OnScreen column row) (colour : Int) :
    (screen.plot column row colour).Shows (strokes ++ [.pixel column row colour]) := by
  intro x y hpixel
  have hpixel : screen.OnScreen x y := hpixel
  show (screen.framebuffer.setIfInBounds (screen.cellOf column row) (lowByte colour))[
    screen.cellOf x y]? = _
  rw [Stroke.latest_append_pixel]
  by_cases hsame : column = x ∧ row = y
  · obtain ⟨rfl, rfl⟩ := hsame
    rw [if_pos ⟨rfl, rfl⟩, Array.getElem?_setIfInBounds_self_of_lt (cellOf_lt_size hon)]
  · have hcell := mt (cellOf_inj hpixel hon).1 hsame
    rw [if_neg hsame, Array.getElem?_setIfInBounds_ne hcell]
    exact h x y hpixel

/-- What a screen shows after a stroke has this stroke at the end. -/
theorem Shows.strike {strokes : List Stroke} (h : screen.Shows strokes) (stroke : Stroke) :
    (screen.strike stroke).Shows (strokes ++ [stroke]) := by
  cases stroke with
  | wipe => exact shows_clear screen (Stroke.latest_append_wipe strokes)
  | pixel column row colour =>
      by_cases hon : screen.OnScreen column row
      · rw [Screen.strike, if_pos hon]
        exact h.plot hon colour
      · rw [Screen.strike, if_neg hon]
        intro x y hpixel
        have hother : ¬ (column = x ∧ row = y) := by
          rintro ⟨rfl, rfl⟩
          exact hon hpixel
        rw [Stroke.latest_append_pixel, if_neg hother]
        exact h x y hpixel

/-- A pixel is read as the low byte of its latest colour. -/
theorem Shows.getPixel {strokes : List Stroke} (h : screen.Shows strokes)
    (hon : screen.OnScreen x y) :
    screen.getPixel x y = .ok (lowByte (Stroke.latest strokes x y)) := by
  simp only [Screen.getPixel, cell?_of_onScreen hon, Option.bind_some, h x y hon]

theorem toNat_lowByte (index : Int) : ((lowByte index).toNat : Int) = index % 256 := by
  have hlow := Int.emod_nonneg index (show (256 : Int) ≠ 0 by decide)
  have hhigh := Int.emod_lt_of_pos index (show (0 : Int) < 256 by decide)
  rw [lowByte, UInt8.toNat_ofNat']
  omega

theorem Shows.update {strokes : List Stroke} (h : screen.Shows strokes) :
    screen.update.1.Shows strokes := by
  unfold Screen.update
  split
  · exact h
  · exact h

end Screen

/-! ## Machines -/

namespace Machine

variable {m m' : Machine}

/-- The stroke of an instruction, if it draws. -/
def strokeOf (m : Machine) : Instruction → Option Stroke
  | .draw x y colour =>
    some (.pixel (m.registers.read x) (m.registers.read y) (m.registers.read colour))
  | .cls => some .wipe
  | _ => none

/-- The stroke of the instruction that the machine goes on with, if that draws. -/
def stroke? (m : Machine) : Option Stroke :=
  m.upcoming?.bind m.strokeOf

theorem AboutTo.stroke? {i : Instruction} (h : m.AboutTo i) : m.stroke? = m.strokeOf i := by
  rw [Machine.stroke?, h.upcoming?, Option.bind_some]

/-- A step makes the stroke of its instruction and changes nothing else on the screen. -/
theorem step_screen (m : Machine) :
    m.step.machine.screen = m.stroke?.elim m.screen m.screen.strike := by
  have hstepped := m.stepped
  generalize m.step = turn at hstepped
  cases hstepped with
  | resting hm =>
      rw [stroke?, upcoming?_of_halted hm]
      rfl
  | outside _ hpc =>
      rw [stroke?, upcoming?_of_not_inBounds hpc]
      rfl
  | refused _ hpc hrow hcause =>
      rw [stroke?, upcoming?_of_offence hpc hrow hcause, refuse_screen]
      rfl
  | offScreen hm hpc hrow hwords hoff =>
      rw [(aboutTo_of_words hm hpc hrow hwords).stroke?, refuse_screen]
      exact (if_neg hoff).symm
  | failed hm hpc hrow hwords hfails =>
      rw [(aboutTo_of_words hm hpc hrow hwords).stroke?]
      cases hfails <;> rfl
  | @executed _ i hm hpc hrow hwords hadmits =>
      rw [(aboutTo_of_words hm hpc hrow hwords).stroke?, effect_screen]
      cases i with
      | draw x y colour => exact (if_pos hadmits).symm
      | _ => rfl

/-- A step that fails does not fail for the framebuffer. -/
theorem step_failure_ne_outsideFramebuffer (m : Machine) :
    m.step.failure ≠ some .outsideFramebuffer := by
  have hrefuse (m : Machine) (cause : FaultCause) :
      (m.refuse cause).failure ≠ some .outsideFramebuffer := by
    unfold refuse
    split_ifs <;> simp
  have hstepped := m.stepped
  generalize m.step = turn at hstepped
  cases hstepped with
  | resting => exact nofun
  | outside => exact nofun
  | refused => exact hrefuse _ _
  | offScreen => exact hrefuse _ _
  | failed _ _ _ _ hfails => cases hfails <;> exact nofun
  | executed =>
      rw [effect_failure]
      exact nofun

/-- Every screen that a machine comes to has the size of its first one. -/
theorem sameSize_of_reaches (h : m.Reaches m') : m'.screen.SameSize m.screen := by
  refine h.invariant (P := fun m' => m'.screen.SameSize m.screen) ⟨rfl, rfl⟩ ?_ ?_
  · intro before hsize
    rw [step_screen]
    cases before.stroke? with
    | none => exact hsize
    | some stroke => exact (before.screen.sameSize_strike stroke).trans hsize
  · intro before hsize
    exact before.screen.sameSize_update.trans hsize

/-- All strokes since a program was loaded are shown. -/
theorem shows_of_passes {program : List Int} {output : String} {resetRegisters : Bool}
    {before : List Machine} (h : (m.load program output resetRegisters).Passes before m') :
    m'.screen.Shows (before.filterMap stroke?) := by
  induction h with
  | refl => exact Screen.shows_clear m.screen Stroke.latest_nil
  | @step before m' flush _ ih =>
      have hstep : m'.step.machine.screen.Shows ((before ++ [m']).filterMap stroke?) := by
        rw [step_screen, List.filterMap_append]
        cases hstroke : m'.stroke? with
        | none =>
            rw [List.filterMap_cons_none hstroke, List.filterMap_nil, List.append_nil]
            exact ih
        | some stroke =>
            rw [List.filterMap_cons_some hstroke, List.filterMap_nil]
            exact ih.strike stroke
      rcases m'.stepAndFlush_machine flush with hturn | hturn
      · rw [hturn]
        exact hstep
      · rw [hturn]
        exact hstep.update

/-- However far a program has been executed, each pixel on the screen reads as the low byte of the
    colour of the latest stroke that the program made at this pixel since it was loaded or wiped the
    screen, and as zero if there was none. No step fails for the framebuffer: what is drawn on the
    screen changes the one cell of its pixel, and what is drawn elsewhere changes nothing. -/
theorem pixels_show_latest_strokes {program : List Int} {output : String} {resetRegisters : Bool}
    {before : List Machine} (h : (m.load program output resetRegisters).Passes before m') :
    (∀ x y, m.screen.OnScreen x y → ∃ byte, m'.screen.getPixel x y = .ok byte ∧
      (byte.toNat : Int) = Stroke.latest (before.filterMap stroke?) x y % 256) ∧
    m'.step.failure ≠ some .outsideFramebuffer ∧
    ∀ x y colour, m'.AboutTo (.draw x y colour) →
      let column := m'.registers.read x
      let row := m'.registers.read y
      (m.screen.OnScreen column row → ∃ cell < m'.screen.framebuffer.size,
        (cell : Int) = row * m.screen.width + column ∧
        m'.step.machine.screen.framebuffer =
          m'.screen.framebuffer.setIfInBounds cell (Screen.lowByte (m'.registers.read colour))) ∧
      (¬ m.screen.OnScreen column row → m'.step.machine.screen = m'.screen) := by
  have hloaded := sameSize_of_reaches h.reaches
  have hsize : m'.screen.SameSize m.screen := hloaded
  refine ⟨?_, m'.step_failure_ne_outsideFramebuffer, ?_⟩
  · intro x y hon
    exact ⟨_, (shows_of_passes h).getPixel (hsize.onScreen_iff.2 hon), Screen.toNat_lowByte _⟩
  · intro x y colour hdraw column row
    have hscreen : m'.step.machine.screen =
        m'.screen.strike (.pixel column row (m'.registers.read colour)) := by
      rw [step_screen, hdraw.stroke?]
      rfl
    constructor
    · intro hon
      have hon' := hsize.onScreen_iff.2 hon
      refine ⟨m'.screen.cellOf column row, Screen.cellOf_lt_size hon', ?_, ?_⟩
      · rw [Screen.cellOf, Int.toNat_of_nonneg (Screen.distance_of_onScreen hon').1, hsize.1]
      · rw [hscreen, Screen.strike, if_pos hon']
        rfl
    · intro hoff
      rw [hscreen, Screen.strike, if_neg (mt hsize.onScreen_iff.1 hoff)]

/-- A negative colour, drawn at the one pixel of a screen after it has been wiped. -/
theorem pixels_show_latest_strokes_negative :
    let m := (fresh Screen.dot).load [11, 2, -1, 62, 61, 0, 0, 2, 255] "" false
    let before := [m, m.step.machine, m.step.machine.step.machine]
    let m' := m.step.machine.step.machine.step.machine
    before.filterMap stroke? = [.wipe, .pixel 0 0 (-1)] ∧
      ∃ byte, m'.screen.getPixel 0 0 = .ok byte ∧ (byte.toNat : Int) = 255 := by
  intro m before m'
  have hpasses : m.Passes before m' := Passes.refl.plainStep.plainStep.plainStep
  have hstrokes : before.filterMap stroke? = [.wipe, .pixel 0 0 (-1)] := by decide +kernel
  obtain ⟨byte, hbyte, hvalue⟩ := (pixels_show_latest_strokes hpasses).1 0 0 (by decide)
  rw [hstrokes] at hvalue
  exact ⟨hstrokes, byte, hbyte, hvalue.trans (by decide)⟩

end Machine

end RegisterMachine
