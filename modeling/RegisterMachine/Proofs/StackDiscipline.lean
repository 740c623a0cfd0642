import RegisterMachine.Proofs.Effect
import RegisterMachine.Proofs.History
import Mathlib.Data.List.Infix

set_option autoImplicit false

/-! # The discipline of the stack

Data and return addresses share one stack. A step leaves it as it is, puts one entry on top or takes
the top one away (`step_stack`), so the entries below a mark stay where they are as long as the
depth does not fall below the mark (`ReachesAbove.suffix`). What has been pushed is therefore what
is taken back at its depth, whatever happened above it (`taken_back`); with calls, this is the
return to the position behind the call. -/

namespace RegisterMachine.Machine

/-! ## From moment to moment -/

/-- The next moment of a machine that is not loaded in between: a step, with or without a flush
    behind it, or an operation on the screen. -/
inductive Follows (m : Machine) : Machine → Prop where
  | step (flush : Bool) : Follows m (m.stepAndFlush flush).machine
  | screen (operation : Screen.Operation) :
      Follows m { m with screen := m.screen.operate operation }

/-- The machines that a machine comes to while its stack has at least so many entries at every
    moment, the first and the last included. -/
inductive ReachesAbove (depth : Nat) (m : Machine) : Machine → Prop where
  | refl (hdepth : depth ≤ m.stack.length) : ReachesAbove depth m m
  | next {m' m'' : Machine} (h : ReachesAbove depth m m') (hnext : m'.Follows m'')
      (hdepth : depth ≤ m''.stack.length) : ReachesAbove depth m m''

/-- The moments of a run follow each other. -/
theorem reachesAbove_advance {depth : Nat} {run : Run} {flush : Bool} {count : Nat}
    (hdepth : ∀ k ≤ count, depth ≤ (run.advance flush k).machine.stack.length) :
    ReachesAbove depth run.machine (run.advance flush count).machine := by
  induction count with
  | zero => exact .refl (hdepth 0 (Nat.le_refl 0))
  | succ count ih =>
      have hbefore := ih fun k hk => hdepth k (Nat.le_succ_of_le hk)
      have hafter := hdepth (count + 1) (Nat.le_refl _)
      rw [Run.advance_succ] at hafter ⊢
      split_ifs at hafter ⊢
      · exact hbefore
      · exact .next hbefore (.step flush) hafter

/-! ## The stack after a step -/

/-- A step does nothing to the stack, pushes one entry or takes one away. -/
theorem step_stack (m : Machine) :
    m.step.machine.stack = m.stack ∨ (∃ value, m.step.machine.stack = value :: m.stack) ∨
      m.step.machine.stack = m.stack.tail := by
  have hstepped := m.stepped
  generalize m.step = turn at hstepped
  cases hstepped with
  | resting => exact Or.inl rfl
  | outside => exact Or.inl rfl
  | refused => exact Or.inl (refuse_stack _ _)
  | offScreen => exact Or.inl (refuse_stack _ _)
  | failed => exact Or.inl rfl
  | @executed _ i =>
      rw [effect_stack]
      cases i with
      | push source => exact Or.inr (Or.inl ⟨_, rfl⟩)
      | call address => exact Or.inr (Or.inl ⟨_, rfl⟩)
      | pop target => exact Or.inr (Or.inr rfl)
      | ret => exact Or.inr (Or.inr rfl)
      | _ => exact Or.inl rfl

theorem stepAndFlush_stack (m : Machine) (flush : Bool) :
    (m.stepAndFlush flush).machine.stack = m.step.machine.stack := by
  rcases m.stepAndFlush_machine flush with hturn | hturn
  · rw [hturn]
  · rw [hturn]
    rfl

theorem Follows.stack {m m' : Machine} (h : m.Follows m') :
    m'.stack = m.stack ∨ (∃ value, m'.stack = value :: m.stack) ∨ m'.stack = m.stack.tail := by
  cases h with
  | step flush =>
      rw [stepAndFlush_stack]
      exact m.step_stack
  | screen operation => exact Or.inl rfl

/-- The entries at the bottom are still there at the next moment if there are still as many. -/
theorem Follows.suffix {m m' : Machine} (h : m.Follows m') {entries : List Int}
    (hentries : entries <:+ m.stack) (hdepth : entries.length ≤ m'.stack.length) :
    entries <:+ m'.stack := by
  rcases h.stack with hsame | ⟨value, hpush⟩ | hpop
  · rw [hsame]
    exact hentries
  · rw [hpush]
    exact hentries.trans (List.suffix_cons value m.stack)
  · have htail : m'.stack <:+ m.stack := hpop ▸ List.tail_suffix m.stack
    exact List.suffix_of_suffix_length_le hentries htail hdepth

/-- Entries at the bottom stay there as long as there are as many. -/
theorem ReachesAbove.suffix {m m' : Machine} {entries : List Int}
    (h : ReachesAbove entries.length m m') (hentries : entries <:+ m.stack) :
    entries <:+ m'.stack := by
  induction h with
  | refl => exact hentries
  | next _ hnext hdepth ih => exact hnext.suffix ih hdepth

/-! ## Pushing and taking back -/

/-- The machine goes on with an instruction that pushes a value: a push that of its register, a call
    the position behind itself. -/
inductive Pushes (m : Machine) : Int → Prop where
  | push {source : Register} (h : m.AboutTo (.push source)) : Pushes m (m.registers.read source)
  | call {address : Int} (h : m.AboutTo (.call address)) : Pushes m (m.pc + 2)

theorem Pushes.stack {m : Machine} {value : Int} (h : m.Pushes value) :
    m.step.machine.stack = value :: m.stack := by
  cases h with
  | push h =>
      rw [h.step_eq trivial, effect_stack]
      rfl
  | call h =>
      rw [h.step_eq trivial, effect_stack]
      rfl

/-- A pop takes the top of the stack into its register. -/
theorem AboutTo.pop {m : Machine} {target : Register} {value : Int} {rest : List Int}
    (h : m.AboutTo (.pop target)) (hstack : m.stack = value :: rest) :
    m.step.machine.registers.read target = value ∧ m.step.machine.stack = rest := by
  rw [h.step_eq trivial, effect_registers, effect_stack]
  simp [registersAfter, written?, stackAfter, hstack]

/-- A return takes the top of the stack as the next position. -/
theorem AboutTo.ret {m : Machine} {value : Int} {rest : List Int} (h : m.AboutTo .ret)
    (hstack : m.stack = value :: rest) :
    m.step.machine.pc = value ∧ m.step.machine.stack = rest := by
  rw [h.step_eq trivial, effect_pc, effect_stack]
  simp [pcAfter, stackAfter, hstack]

/-- A value that has been pushed is taken back at its depth, however long the machine has been on
    its way in between, if the stack was never lower: a pop gets it into its register, a return goes
    on there, and the stack is again what it was before the push. After a call, the return is to the
    position behind it. -/
theorem taken_back {m m' : Machine} {value : Int} (hpush : m.Pushes value)
    (hreaches : ReachesAbove (m.stack.length + 1) m.step.machine m')
    (hdepth : m'.stack.length = m.stack.length + 1) :
    (∀ target, m'.AboutTo (.pop target) →
      m'.step.machine.registers.read target = value ∧ m'.step.machine.stack = m.stack) ∧
    (m'.AboutTo .ret → m'.step.machine.pc = value ∧ m'.step.machine.stack = m.stack) := by
  have hpushed : value :: m.stack <:+ m.step.machine.stack := by
    rw [hpush.stack]
  have hkept : value :: m.stack <:+ m'.stack := ReachesAbove.suffix hreaches hpushed
  have hstack : m'.stack = value :: m.stack := (hkept.eq_of_length hdepth.symm).symm
  constructor
  · intro target hpop
    exact hpop.pop hstack
  · intro hret
    exact hret.ret hstack

/-- A call of a subroutine that pushes and pops before it returns behind the call. -/
theorem taken_back_by_subroutine :
    let m := (fresh Screen.dot).load [42, 3, 255, 30, 0, 31, 1, 50] "" false
    let m' := ((Run.start m.step.machine).advance true 2).machine
    m'.AboutTo .ret ∧ m'.step.machine.pc = 2 ∧ m'.step.machine.stack = [] := by
  intro m m'
  have hcall : m.AboutTo (.call 3) := ⟨rfl, by decide, rfl⟩
  have hdepth : ∀ k ≤ 2, 1 ≤ ((Run.start m.step.machine).advance true k).machine.stack.length := by
    decide +kernel
  have hreaches : ReachesAbove 1 m.step.machine m' := reachesAbove_advance hdepth
  have hret : m'.AboutTo .ret := ⟨by decide +kernel, by decide +kernel, by decide +kernel⟩
  exact ⟨hret, (taken_back (.call hcall) hreaches (by decide +kernel)).2 hret⟩

end RegisterMachine.Machine
