import RegisterMachine.Proofs.Requests
import Mathlib.Data.List.Forall2
import Mathlib.Data.List.Induction

set_option autoImplicit false

/-! # The rate of flushes

An update flushes unless the last flush is younger than the refresh interval. What the screen keeps
for this are the time of its last flush and a count, and only an update that flushes changes them
(`serve_cases`). After any history they are those of the updates that have answered that they
flushed (`flushes_serveAll`), wherever the clock has gone in between, and the frames handed over
show the screens at these moments, pixel by pixel (`frames_moments`, `flushes_keep_interval`). -/

namespace RegisterMachine.Screen

variable {screen : Screen}

/-! ## One request -/

/-- The screen after a flush. -/
def flushed (screen : Screen) : Screen :=
  { screen with lastFlush := some screen.clock, flushes := screen.flushes + 1 }

theorem update_of_not_isFresh (h : screen.isFresh = false) :
    screen.update = (screen.flushed, some screen.frame) := by
  rw [update, h]
  rfl

/-- Two screens have the same interval, and the same flushes behind them. -/
structure SameFlushes (screen other : Screen) : Prop where
  refreshInterval : screen.refreshInterval = other.refreshInterval
  lastFlush : screen.lastFlush = other.lastFlush
  flushes : screen.flushes = other.flushes

theorem SameFlushes.refl (screen : Screen) : screen.SameFlushes screen :=
  ⟨rfl, rfl, rfl⟩

theorem sameFlushes_of_attempt {after : Screen} {operation : Operation}
    (hoperation : operation ≠ .update) (h : screen.attempt operation = .ok after) :
    after.SameFlushes screen := by
  cases operation with
  | setPixel x y index =>
      simp only [attempt, setPixel] at h
      split at h
      · cases h
        exact ⟨rfl, rfl, rfl⟩
      · cases h
  | setPalette colours =>
      simp only [attempt, setPalette] at h
      split_ifs at h
      cases h
      exact ⟨rfl, rfl, rfl⟩
  | update => exact absurd rfl hoperation
  | clear | setClock reading | close =>
      cases h
      exact ⟨rfl, rfl, rfl⟩

theorem sameFlushes_operate {operation : Operation} (h : operation ≠ .update) :
    (screen.operate operation).SameFlushes screen := by
  unfold operate
  split
  · rename_i hafter
    exact sameFlushes_of_attempt h hafter
  · exact .refl screen

/-- A request flushes the screen, which only an update does that finds it not fresh, or it leaves
    the flushes as they are. -/
theorem serve_cases (screen : Screen) (request : Request) :
    (request = .operation .update ∧ screen.isFresh = false ∧
      screen.serve request = ⟨screen.flushed, [screen.frame], .ok (.answer (.updated true))⟩) ∨
    (screen.serve request).hasFlushed = false ∧ (screen.serve request).frames = [] ∧
      (screen.serve request).screen.SameFlushes screen := by
  cases request with
  | operation operation =>
      by_cases hupdate : operation = .update
      · subst hupdate
        rw [serve_update]
        cases hfresh : screen.isFresh with
        | true =>
            rw [update_of_isFresh hfresh]
            exact .inr ⟨rfl, rfl, .refl screen⟩
        | false =>
            rw [update_of_not_isFresh hfresh]
            exact .inl ⟨rfl, rfl, rfl⟩
      · rw [serve_operation hupdate]
        refine .inr ⟨?_, rfl, sameFlushes_operate hupdate⟩
        unfold Service.hasFlushed
        cases screen.attempt operation <;> rfl
  | getPixel x y =>
      refine .inr ⟨?_, rfl, .refl screen⟩
      simp only [serve, Service.hasFlushed]
      cases screen.getPixel x y <;> rfl
  | frame | renderText | isOpen => exact .inr ⟨rfl, rfl, rfl, rfl, rfl⟩

/-! ## Histories -/

/-- The moments of a history at which an update has answered that it flushed, in order. -/
def flushings (screen : Screen) (history : List Request) : List Moment :=
  (screen.moments history).filter fun moment => moment.service.hasFlushed

theorem flushings_append_singleton (screen : Screen) (history : List Request) (request : Request) :
    screen.flushings (history ++ [request]) =
      screen.flushings history ++
        if ((screen.serveAll history).serve request).hasFlushed
        then [⟨screen.serveAll history, request⟩] else [] := by
  have hlast : (screen.serveAll history).moments [request] =
      [⟨screen.serveAll history, request⟩] := rfl
  rw [flushings, moments_append, hlast, List.filter_append, List.filter_singleton,
    Bool.cond_eq_ite]
  rfl

theorem serveAll_append_singleton (screen : Screen) (history : List Request) (request : Request) :
    screen.serveAll (history ++ [request]) = ((screen.serveAll history).serve request).screen :=
  screen.serveAll_append history [request]

/-- What a screen keeps of its flushes is what its history says of them: the reading of the clock at
    the latest one, if there was one since, and how many there were. -/
theorem flushes_serveAll (screen : Screen) (history : List Request) :
    (screen.serveAll history).refreshInterval = screen.refreshInterval ∧
      (screen.serveAll history).lastFlush =
        ((screen.flushings history).getLast?.map fun latest => latest.screen.clock).or
          screen.lastFlush ∧
      (screen.serveAll history).flushes = screen.flushes + (screen.flushings history).length := by
  -- The last request is split off, as it is the one that decides which flush is the latest.
  induction history using List.reverseRecOn with
  | nil => exact ⟨rfl, rfl, rfl⟩
  | append_singleton history request ih =>
      obtain ⟨hinterval, hlast, hcount⟩ := ih
      rw [serveAll_append_singleton, flushings_append_singleton]
      rcases (screen.serveAll history).serve_cases request with
        ⟨-, -, hserve⟩ | ⟨hflushed, -, hsame⟩
      · have hflushed : ((screen.serveAll history).serve request).hasFlushed = true := by
          rw [hserve]
          rfl
        rw [if_pos hflushed, hserve, List.getLast?_concat, List.length_append]
        refine ⟨hinterval, rfl, ?_⟩
        show (screen.serveAll history).flushes + 1 = _
        rw [hcount, Nat.add_assoc]
        rfl
      · rw [hflushed, if_neg Bool.false_ne_true, List.append_nil]
        exact ⟨hsame.refreshInterval.trans hinterval, hsame.lastFlush.trans hlast,
          hsame.flushes.trans hcount⟩

/-- The frames of a history are those of the screens at the updates that have flushed. -/
theorem frames_moments (screen : Screen) (history : List Request) :
    (screen.moments history).flatMap (fun moment => moment.service.frames) =
      (screen.flushings history).map fun moment => moment.screen.frame := by
  induction history using List.reverseRecOn with
  | nil => rfl
  | append_singleton history request ih =>
      rw [moments_append, List.flatMap_append, ih, flushings_append_singleton, List.map_append]
      refine congrArg _ ?_
      show ((screen.serveAll history).serve request).frames ++ [] = _
      rw [List.append_nil]
      rcases (screen.serveAll history).serve_cases request with
        ⟨-, -, hserve⟩ | ⟨hflushed, hframes, -⟩
      · rw [hserve]
        rfl
      · rw [hframes, hflushed]
        rfl

/-! ## The rate limit -/

/-- A screen is fresh if the time since its last flush is less than its interval. -/
theorem isFresh_eq_false_iff (screen : Screen) :
    screen.isFresh = false ↔ ∀ last ∈ screen.lastFlush,
      Binary64.differenceLess screen.clock last screen.refreshInterval = false := by
  unfold isFresh
  cases screen.lastFlush with
  | none => exact ⟨fun _ => nofun, fun _ => rfl⟩
  | some last => exact ⟨fun h _ hlast => Option.some.inj hlast ▸ h, fun h => h last rfl⟩

/-- After any history of a new screen, an update answers that it has flushed if and only if none has
    before or the time since the latest one that did is not less than the refresh interval, as
    binary floating point subtracts and compares them; otherwise it changes nothing. The screen has
    counted the updates that have flushed, and the frames handed over show it at exactly their
    moments, one each and in order. A request hands a frame over if and only if it is an update that
    flushes; the frame has the dimensions that the screen was made with, and for each byte of the
    framebuffer the colour that stands at its place in the palette. -/
theorem flushes_keep_interval {width height refreshMs : Int} {memory : Nat}
    (h : create width height refreshMs memory = .ok screen) (history : List Request) :
    let now := screen.serveAll history
    let flushings := screen.flushings history
    let service := now.serve (.operation .update)
    (∃ interval, Binary64.ofMilliseconds refreshMs = some interval ∧
      ∃ flushed, service.outcome = .ok (.answer (.updated flushed)) ∧
        (flushed = true ↔ ∀ latest ∈ flushings.getLast?,
          Binary64.differenceLess now.clock latest.screen.clock interval = false) ∧
        (flushed = false → service.screen = now)) ∧
    now.flushes = flushings.length ∧
    List.Forall₂ (fun moment frame => moment.screen.ShownBy frame) flushings
      ((screen.moments history).flatMap fun moment => moment.service.frames) ∧
    ∀ request, if (now.serve request).hasFlushed
      then request = .operation .update ∧ ∃ frame, (now.serve request).frames = [frame] ∧
        now.ShownBy frame ∧ frame.width = width ∧ frame.height = height
      else (now.serve request).frames = [] := by
  intro now flushings service
  obtain ⟨hwidth, hheight, hinterval, hlast, hcount⟩ := created h
  obtain ⟨hsame, hnowLast, hnowCount⟩ := screen.flushes_serveAll history
  have hsize : now.SameSize screen := screen.sameSize_serveAll history
  refine ⟨⟨screen.refreshInterval, hinterval, ?_⟩, ?_, ?_, ?_⟩
  · have hrate : now.isFresh = false ↔ ∀ latest ∈ flushings.getLast?,
        Binary64.differenceLess now.clock latest.screen.clock screen.refreshInterval = false := by
      rw [isFresh_eq_false_iff, hnowLast, hlast, Option.or_none, hsame, Option.forall_mem_map]
    have hservice : service = _ := serve_update now
    cases hfresh : now.isFresh with
    | true =>
        rw [hservice, update_of_isFresh hfresh]
        rw [hfresh] at hrate
        exact ⟨false, rfl, by simpa using hrate, fun _ => rfl⟩
    | false =>
        rw [hservice, update_of_not_isFresh hfresh]
        exact ⟨true, rfl, by simpa using hrate.1 hfresh, nofun⟩
  · rw [hcount, Nat.zero_add] at hnowCount
    exact hnowCount
  · rw [screen.frames_moments history, List.forall₂_map_right_iff, List.forall₂_same]
    exact fun moment _ => moment.screen.shownBy_frame
  · intro request
    rcases now.serve_cases request with ⟨hrequest, -, hserve⟩ | ⟨hflushed, hframes, -⟩
    · rw [hserve]
      exact ⟨hrequest, now.frame, rfl, now.shownBy_frame, hsize.1.trans hwidth,
        hsize.2.trans hheight⟩
    · rw [hflushed]
      exact hframes

/-- With an interval of one second: an update just before it is over, one when it is over, and one
    after the clock has gone back. The two frames show a dark screen, and then a gray pixel
    on it. -/
theorem flushes_keep_interval_back_in_time :
    let history : List Request :=
      [.operation .update, .operation (.setClock (999 / 1000)),
        .operation (.setPixel 1 0 0x110), .operation .update, .operation (.setClock 1),
        .operation .update, .operation (.setClock (-5)), .operation .update]
    ∃ screen, create 2 1 1000 = .ok screen ∧
      ∃ frames, (screen.moments history).flatMap (fun moment => moment.service.frames) = frames ∧
        frames.map Frame.colours = [[0, 0], [0, 0x101010]] ∧
        List.Forall₂ (fun moment frame => moment.screen.ShownBy frame)
          (screen.flushings history) frames ∧
        (screen.serveAll history).flushes = 2 := by
  intro history
  have hcreated : ((create 2 1 1000).toOption.map fun screen =>
      ((screen.moments history).flatMap fun moment => moment.service.frames).map Frame.colours) =
        some [[0, 0], [0, 0x101010]] := by decide +kernel
  obtain ⟨screen, h, hcolours⟩ := exists_created hcreated
  obtain ⟨-, hcount, hshown, -⟩ := flushes_keep_interval h history
  refine ⟨screen, h, _, rfl, hcolours, hshown, ?_⟩
  rw [hcount, hshown.length_eq, ← List.length_map, hcolours]
  rfl

end RegisterMachine.Screen
