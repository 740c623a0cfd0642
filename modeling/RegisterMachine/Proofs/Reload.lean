import RegisterMachine.Proofs.Display

set_option autoImplicit false

/-! # Loading forgets the past

Loading a program resets all that its execution depends on, except for the registers if they are
kept. What a load leaves alone, such as the position of the last instruction or the palette, has no
influence: two machines that are `Twins` may differ there, and each step of theirs has the same
events and leaves them twins (`Twins.step`). So a machine that is loaded after any history behaves
like a new one (`loaded_like_new`). -/

namespace RegisterMachine

/-! ## Screens with the same picture -/

/-- Two screens have the same dimensions and the same framebuffer. -/
structure Screen.SamePicture (screen other : Screen) : Prop where
  size : screen.SameSize other
  framebuffer : screen.framebuffer = other.framebuffer

namespace Screen

variable {screen other : Screen}

theorem SamePicture.strike (h : screen.SamePicture other) (stroke : Stroke) :
    (screen.strike stroke).SamePicture (other.strike stroke) := by
  have hsize : (screen.strike stroke).SameSize (other.strike stroke) :=
    ((screen.sameSize_strike stroke).trans h.size).trans (other.sameSize_strike stroke).symm
  refine ⟨hsize, ?_⟩
  cases stroke with
  | wipe => simp only [Screen.strike, clear, h.framebuffer]
  | pixel x y colour =>
      by_cases hon : screen.OnScreen x y
      · rw [Screen.strike, Screen.strike, if_pos hon, if_pos (h.size.onScreen_iff.1 hon)]
        simp only [plot, cellOf, h.framebuffer, h.size.1]
      · rw [Screen.strike, Screen.strike, if_neg hon, if_neg (mt h.size.onScreen_iff.2 hon)]
        exact h.framebuffer

/-- Dark screens of the same size have the same picture. -/
theorem SameSize.clear (h : screen.SameSize other) : screen.clear.SamePicture other.clear := by
  have hcells : (screen.framebuffer.size : Int) = other.framebuffer.size := by
    rw [screen.size_framebuffer, other.size_framebuffer, h.1, h.2]
  refine ⟨h, ?_⟩
  simp only [Screen.clear, Int.ofNat_inj.1 hcells]

end Screen

namespace Machine

variable {m m' : Machine}

/-! ## Twins -/

/-- Two machines are the same except for the position of the last instruction and for what their
    screens do not show. -/
structure Twins (m m' : Machine) : Prop where
  pc : m.pc = m'.pc
  registers : m.registers = m'.registers
  stack : m.stack = m'.stack
  program : m.program = m'.program
  halted : m.halted = m'.halted
  output : m.output = m'.output
  fault : m.fault = m'.fault
  screen : m.screen.SamePicture m'.screen

/-- The machine with another position of the last instruction. -/
def withStart (m : Machine) (start : Int) : Machine :=
  { m with start }

/-- The position of the last instruction does not matter to a step. -/
theorem step_withStart (m : Machine) (start : Int) :
    ∃ after, (m.withStart start).step =
      { m.step with machine := m.step.machine.withStart after } := by
  cases hm : m.halted with
  | true =>
      have hm' : (m.withStart start).halted = true := hm
      rw [step_of_halted hm, step_of_halted hm']
      exact ⟨start, rfl⟩
  | false =>
      have hm' : (m.withStart start).halted = false := hm
      by_cases hpc : m.InBounds
      · have hpc' : (m.withStart start).InBounds := hpc
        rw [step_of_inBounds hm hpc, step_of_inBounds hm' hpc']
        exact ⟨m.execute.machine.start, rfl⟩
      · have hpc' : ¬ (m.withStart start).InBounds := hpc
        rw [step_of_not_inBounds hm hpc, step_of_not_inBounds hm' hpc']
        exact ⟨start, rfl⟩

theorem Twins.agrees (h : m.Twins m') : (m.withStart m'.start).Agrees m' :=
  { h with start := rfl, size := h.screen.size }

theorem Twins.stroke? (h : m.Twins m') : m.stroke? = m'.stroke? := by
  rw [h.agrees.eq_withScreen]
  rfl

theorem Twins.step (h : m.Twins m') :
    m.step.machine.Twins m'.step.machine ∧ m.step.events = m'.step.events ∧
      m.step.failure = m'.step.failure := by
  have hscreen : m.step.machine.screen.SamePicture m'.step.machine.screen := by
    rw [step_screen, step_screen, h.stroke?]
    cases m'.stroke? with
    | none => exact h.screen
    | some stroke => exact h.screen.strike stroke
  obtain ⟨start, hstart⟩ := m.step_withStart m'.start
  obtain ⟨screen, hstep⟩ := step_withScreen h.agrees.size.symm
  rw [← h.agrees.eq_withScreen, hstart] at hstep
  rw [hstep] at hscreen ⊢
  exact ⟨⟨rfl, rfl, rfl, rfl, rfl, rfl, rfl, hscreen⟩, rfl, rfl⟩

/-- So many steps leave twins twins, and all of them have the same replies. -/
theorem Twins.steps (h : m.Twins m') (count : Nat) :
    (m.operateAll (.replicate count .step)).Twins (m'.operateAll (.replicate count .step)) ∧
      m.transcript (.replicate count .step) = m'.transcript (.replicate count .step) := by
  induction count generalizing m m' with
  | zero => exact ⟨h, rfl⟩
  | succ count ih =>
      obtain ⟨hstep, hevents, hfailure⟩ := h.step
      obtain ⟨hmachine, htranscript⟩ := ih hstep
      have hreply : m.reply .step = m'.reply .step := by
        simp only [reply, hevents, hfailure]
      refine ⟨hmachine, ?_⟩
      show m.reply .step :: m.step.machine.transcript (.replicate count .step) =
        m'.reply .step :: m'.step.machine.transcript (.replicate count .step)
      rw [hreply, htranscript]

/-! ## Histories -/

theorem sameSize_operate (m : Machine) (operation : Operation) :
    (m.operate operation).screen.SameSize m.screen := by
  cases operation with
  | load program output resetRegisters => exact ⟨rfl, rfl⟩
  | step => exact m.sameSize_step
  | run limit flush fuel => exact sameSize_of_reaches (Reaches.refl.run limit flush fuel)
  | screen operation => exact m.screen.sameSize_operate operation

/-- No history changes the dimensions of the screen. -/
theorem sameSize_operateAll (m : Machine) (history : List Operation) :
    (m.operateAll history).screen.SameSize m.screen := by
  induction history generalizing m with
  | nil => exact ⟨rfl, rfl⟩
  | cons operation history ih =>
      exact (ih (m.operate operation)).trans (m.sameSize_operate operation)

/-! ## Loading -/

/-- A load with some steps behind it. -/
def loadAndStep (program : List Int) (output : String) (resetRegisters : Bool) (count : Nat) :
    List Operation :=
  .load program output resetRegisters :: .replicate count .step

/-- Machines that are loaded with the same program and go on with the same registers are twins. -/
theorem twins_loadAndStep (hsize : m.screen.SameSize m'.screen) {resetRegisters : Bool}
    (hregisters : (if resetRegisters then Registers.zero else m.registers) = m'.registers)
    (program : List Int) (output : String) (count : Nat) :
    (m.operateAll (loadAndStep program output resetRegisters count)).Twins
        (m'.operateAll (loadAndStep program output false count)) ∧
      m.transcript (loadAndStep program output resetRegisters count) =
        m'.transcript (loadAndStep program output false count) := by
  have hloaded : (m.load program output resetRegisters).Twins (m'.load program output false) :=
    ⟨rfl, hregisters, rfl, rfl, rfl, rfl, rfl, hsize.clear⟩
  obtain ⟨hmachine, htranscript⟩ := hloaded.steps count
  refine ⟨hmachine, ?_⟩
  show _ :: (m.load program output resetRegisters).transcript _ =
    _ :: (m'.load program output false).transcript _
  rw [htranscript]
  rfl

/-- After any history, a machine that is loaded with its registers reset is, after every number of
    steps, a twin of a new machine with a screen of the same size, and since the load it has had the
    same replies: the same lines, sleeps and notices. If it keeps its registers, this holds of a new
    machine that has been given these registers. -/
theorem loaded_like_new {screen screen' : Screen} (hsize : screen.SameSize screen')
    (history : List Operation) (program : List Int) (output : String) (count : Nat) :
    let m := (fresh screen).operateAll history
    let new := fresh screen'
    let given := { new with registers := m.registers }
    let anew := loadAndStep program output false count
    let reset := loadAndStep program output true count
    ((m.operateAll reset).Twins (new.operateAll anew) ∧
      m.transcript reset = new.transcript anew) ∧
    (m.operateAll anew).Twins (given.operateAll anew) ∧
      m.transcript anew = given.transcript anew := by
  intro m new given anew reset
  have hscreen : m.screen.SameSize screen' :=
    ((fresh screen).sameSize_operateAll history).trans hsize
  exact ⟨twins_loadAndStep hscreen rfl program output count,
    twins_loadAndStep hscreen rfl program output count⟩

/-- A machine that has drawn and halted at a fault, and the screen of which has been closed, forgets
    all of it but its registers. -/
theorem loaded_like_new_after_fault :
    let history : List Operation :=
      [.load [11, 1, 3, 61, 0, 0, 1, 12] "x" false, .run none true 9, .screen .close, .step]
    let m := (fresh Screen.dot).operateAll history
    let again := loadAndStep [60, 1, 61, 0, 0, 1, 99] "" true 2
    let kept := loadAndStep [60, 1, 61, 0, 0, 1, 99] "" false 2
    m.fault = some ⟨.unknownOpcode 12, 7⟩ ∧ m.start = 7 ∧
      (m.operateAll again).Twins ((fresh Screen.dot).operateAll kept) ∧
      (m.operateAll again).output = "0" ∧ (m.operateAll kept).output = "3" ∧
      m.transcript kept =
        ({ fresh Screen.dot with registers := m.registers } : Machine).transcript kept := by
  intro history m again kept
  have hsize : Screen.dot.SameSize Screen.dot := ⟨rfl, rfl⟩
  obtain ⟨⟨htwins, -⟩, -, htranscript⟩ :=
    loaded_like_new hsize history [60, 1, 61, 0, 0, 1, 99] "" 2
  exact ⟨by decide +kernel, by decide +kernel, htwins, by decide +kernel, by decide +kernel,
    htranscript⟩

end Machine

end RegisterMachine
