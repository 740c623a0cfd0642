import RegisterMachine.Config.Basic
import Mathlib.Data.List.Nodup

set_option autoImplicit false

/-! # The order of parameters

Pairs of names and values are set one after the other, and one that cannot be set stops the others.
Whether there is such a pair does not depend on the order (`assignAll_eq_none_iff`). Where there is
none and no name stands twice, each parameter has the integer of its own pair, wherever that stands
(`sets_assignAll`). `Configuration.Sets` says this of the pairs without their order, and only one
configuration meets it (`Sets.unique`), so all orders lead to the same (`update_in_any_order`). -/

namespace RegisterMachine

/-- The name of a parameter. -/
def Parameter.name : Parameter → String
  | .screenWidth => "screen_width"
  | .screenHeight => "screen_height"
  | .refreshMs => "refresh_ms"

theorem Parameter.ofName?_name (p : Parameter) : ofName? p.name = some p := by
  cases p <;> rfl

theorem Parameter.name_of_ofName? {name : String} {p : Parameter} (h : ofName? name = some p) :
    p.name = name := by
  unfold ofName? at h
  split_ifs at h with hname hname hname <;> cases h <;> exact hname.symm

theorem Parameter.name_injective {p q : Parameter} (h : p.name = q.name) : p = q := by
  have hname := ofName?_name p
  rw [h, ofName?_name q] at hname
  exact (Option.some.inj hname).symm

namespace Configuration

/-- A pair can be set if its value is null, or if it names a parameter and has an integer. -/
def Settable (pair : String × Value) : Prop :=
  pair.2 = .null ∨ ∃ (p : Parameter) (n : Int), pair.1 = p.name ∧ pair.2.toInteger = .ok n

/-- Pairs are accepted if all of them can be set and none has the reserved name. -/
def Accepts (pairs : List (String × Value)) : Prop :=
  reservedName ∉ pairs.map Prod.fst ∧ ∀ pair ∈ pairs, Settable pair

/-- The configuration that pairs make of another one: a parameter that is named with a value other
    than null has the integer of that value, and every other parameter is as it was. -/
structure Sets (c : Configuration) (pairs : List (String × Value)) (result : Configuration) :
    Prop where
  named : ∀ (p : Parameter) value, (p.name, value) ∈ pairs → value ≠ .null →
    value.toInteger = .ok (result.get p)
  unnamed : ∀ p : Parameter, (∀ value, (p.name, value) ∈ pairs → value = .null) →
    result.get p = c.get p

variable {c c' result : Configuration} {name : String} {value : Value}
  {pairs order : List (String × Value)}

theorem eq_of_get (h : ∀ p, c.get p = c'.get p) : c = c' := by
  cases c
  cases c'
  have hwidth := h .screenWidth
  have hheight := h .screenHeight
  have hrefresh := h .refreshMs
  simp only [get] at hwidth hheight hrefresh
  rw [hwidth, hheight, hrefresh]

theorem Sets.unique (h : c.Sets pairs result) (h' : c.Sets pairs c') : result = c' := by
  refine eq_of_get fun p => ?_
  by_cases hnamed : ∀ value, (p.name, value) ∈ pairs → value = .null
  · rw [h.unnamed p hnamed, h'.unnamed p hnamed]
  · push Not at hnamed
    obtain ⟨value, hmem, hvalue⟩ := hnamed
    exact Except.ok.inj ((h.named p value hmem hvalue).symm.trans (h'.named p value hmem hvalue))

theorem Sets.perm (h : c.Sets order result) (hperm : order.Perm pairs) : c.Sets pairs result where
  named p value hmem := h.named p value (hperm.mem_iff.2 hmem)
  unnamed p hnull := h.unnamed p fun value hmem => hnull value (hperm.mem_iff.1 hmem)

/-! ## One pair -/

/-- What becomes of a configuration when a pair is set. -/
inductive Assigned (c : Configuration) : String → Value → Configuration → Prop where
  | null {name : String} : Assigned c name .null c
  | set (p : Parameter) {value : Value} {n : Int} (h : value.toInteger = .ok n) :
      Assigned c p.name value (c.set p n)

theorem assign_of_ne_null (c : Configuration) (name : String) (h : value ≠ .null) :
    c.assign name value = match Parameter.ofName? name with
      | none => .error (.unknownParameter name)
      | some p => value.toInteger.map (c.set p) := by
  cases value with
  | null => exact absurd rfl h
  | _ => rfl

theorem assign_eq_ok_iff : c.assign name value = .ok c' ↔ c.Assigned name value c' := by
  constructor
  · intro h
    by_cases hnull : value = .null
    · subst hnull
      cases h
      exact .null
    · rw [assign_of_ne_null c name hnull] at h
      cases hname : Parameter.ofName? name with
      | none =>
          rw [hname] at h
          cases h
      | some p =>
          cases hvalue : value.toInteger with
          | error failure =>
              rw [hname, hvalue] at h
              cases h
          | ok n =>
              rw [hname, hvalue] at h
              cases h
              rw [← Parameter.name_of_ofName? hname]
              exact .set p hvalue
  · intro h
    cases h with
    | null => rfl
    | set p hvalue =>
        have hnull : value ≠ .null := by
          rintro rfl
          cases hvalue
        rw [assign_of_ne_null c p.name hnull, Parameter.ofName?_name, hvalue]
        rfl

theorem exists_assigned_iff (c : Configuration) (name : String) (value : Value) :
    (∃ c', c.Assigned name value c') ↔ Settable (name, value) := by
  constructor
  · rintro ⟨c', h⟩
    cases h with
    | null => exact .inl rfl
    | set p hvalue => exact .inr ⟨p, _, rfl, hvalue⟩
  · rintro (hnull | ⟨p, n, hname, hvalue⟩)
    · obtain rfl : value = .null := hnull
      exact ⟨c, .null⟩
    · obtain rfl : name = p.name := hname
      exact ⟨_, .set p hvalue⟩

/-- A pair that is set before others with other names. -/
theorem Assigned.sets_cons (h : c.Assigned name value c') (hname : name ∉ pairs.map Prod.fst)
    (hpairs : c'.Sets pairs result) : c.Sets ((name, value) :: pairs) result := by
  cases h with
  | null =>
      refine ⟨fun p value hmem hvalue => ?_, fun p hnull => ?_⟩
      · rcases List.mem_cons.1 hmem with hfirst | hmem
        · exact absurd (Prod.mk.inj hfirst).2 hvalue
        · exact hpairs.named p value hmem hvalue
      · exact hpairs.unnamed p fun value hmem => hnull value (List.mem_cons_of_mem _ hmem)
  | @set p _ n hset =>
      -- The others leave the parameter alone, as none of them has its name.
      have hkept : result.get p = n := by
        rw [hpairs.unnamed p fun value hmem => absurd (List.mem_map_of_mem hmem) hname,
          get_set_self]
      refine ⟨fun q value hmem hvalue => ?_, fun q hnull => ?_⟩
      · rcases List.mem_cons.1 hmem with hfirst | hmem
        · obtain ⟨hq, rfl⟩ := Prod.mk.inj hfirst
          rw [Parameter.name_injective hq, hkept]
          exact hset
        · exact hpairs.named q value hmem hvalue
      · have hne : q ≠ p := by
          rintro rfl
          rw [hnull _ List.mem_cons_self] at hset
          cases hset
        rw [hpairs.unnamed q fun value hmem => hnull value (List.mem_cons_of_mem _ hmem),
          get_set_of_ne c n hne]

/-! ## All pairs -/

theorem assignAll_eq_none_iff :
    (c.assignAll pairs).2 = none ↔ ∀ pair ∈ pairs, Settable pair := by
  induction pairs generalizing c with
  | nil => exact ⟨fun _ => nofun, fun _ => rfl⟩
  | cons pair pairs ih =>
      obtain ⟨name, value⟩ := pair
      have hfirst := exists_assigned_iff c name value
      rw [List.forall_mem_cons, ← hfirst]
      cases hassign : c.assign name value with
      | error failure =>
          rw [assignAll_cons_of_error pairs hassign]
          refine ⟨nofun, fun ⟨⟨c', h⟩, _⟩ => ?_⟩
          rw [assign_eq_ok_iff.2 h] at hassign
          cases hassign
      | ok c' =>
          rw [assignAll_cons_of_ok pairs hassign, ih]
          exact ⟨fun h => ⟨⟨c', assign_eq_ok_iff.1 hassign⟩, h⟩, fun h => h.2⟩

theorem sets_assignAll (hnodup : (pairs.map Prod.fst).Nodup)
    (h : (c.assignAll pairs).2 = none) : c.Sets pairs (c.assignAll pairs).1 := by
  induction pairs generalizing c with
  | nil => exact ⟨nofun, fun _ _ => rfl⟩
  | cons pair pairs ih =>
      obtain ⟨name, value⟩ := pair
      obtain ⟨hname, hothers⟩ := List.nodup_cons.1 hnodup
      cases hassign : c.assign name value with
      | error failure =>
          rw [assignAll_cons_of_error pairs hassign] at h
          cases h
      | ok c' =>
          rw [assignAll_cons_of_ok pairs hassign] at h ⊢
          exact (assign_eq_ok_iff.1 hassign).sets_cons hname (ih hothers h)

theorem Accepts.perm (h : Accepts pairs) (hperm : order.Perm pairs) : Accepts order :=
  ⟨mt (hperm.map Prod.fst).mem_iff.1 h.1, fun pair hmem => h.2 pair (hperm.mem_iff.1 hmem)⟩

/-! ## Updates -/

theorem any_reservedName_iff :
    pairs.any (·.1 == reservedName) = true ↔ reservedName ∈ pairs.map Prod.fst := by
  simp [List.any_eq_true]

theorem update_eq_none_iff : (c.update pairs).2 = none ↔ Accepts pairs := by
  unfold update
  split_ifs with hreserved
  · exact ⟨nofun, fun h => absurd (any_reservedName_iff.1 hreserved) h.1⟩
  · rw [assignAll_eq_none_iff, Accepts, ← any_reservedName_iff]
    exact ⟨fun h => ⟨hreserved, h⟩, fun h => h.2⟩

theorem Accepts.update_eq (h : Accepts pairs) : c.update pairs = c.assignAll pairs :=
  if_neg (mt any_reservedName_iff.1 h.1)

/-- Accepted pairs without a name twice make of a configuration the one that they describe. -/
theorem Accepts.exists_sets (h : Accepts pairs) (hnodup : (pairs.map Prod.fst).Nodup) :
    ∃ result, c.update pairs = (result, none) ∧ c.Sets pairs result := by
  have hnone : (c.assignAll pairs).2 = none := assignAll_eq_none_iff.2 h.2
  refine ⟨(c.assignAll pairs).1, ?_, sets_assignAll hnodup hnone⟩
  rw [h.update_eq, ← hnone]

/-- Pairs without a name twice fail to be set in every order, or they are accepted and lead in every
    order to the same configuration: a parameter that is named with a value other than null has the
    integer of that value, and every other parameter is as it was. -/
theorem update_in_any_order (c : Configuration) {pairs : List (String × Value)}
    (h : (pairs.map Prod.fst).Nodup) :
    (¬ Accepts pairs ∧ ∀ order, order.Perm pairs → (c.update order).2.isSome = true) ∨
      Accepts pairs ∧ ∃ result, c.Sets pairs result ∧
        ∀ order, order.Perm pairs → c.update order = (result, none) := by
  by_cases haccepts : Accepts pairs
  · obtain ⟨result, -, hsets⟩ := haccepts.exists_sets (c := c) h
    refine .inr ⟨haccepts, result, hsets, fun order hperm => ?_⟩
    have hnodup := (hperm.map Prod.fst).nodup_iff.2 h
    obtain ⟨other, hupdate, hother⟩ := (haccepts.perm hperm).exists_sets (c := c) hnodup
    rw [hupdate, (hother.perm hperm).unique hsets]
  · refine .inl ⟨haccepts, fun order hperm => ?_⟩
    rw [Option.isSome_iff_ne_none, Ne, update_eq_none_iff]
    exact fun horder => haccepts (horder.perm hperm.symm)

/-- A text, a null for a name that is no parameter, and a fraction. -/
theorem update_in_any_order_reversed :
    let c : Configuration := {}
    let pairs : List (String × Value) :=
      [("refresh_ms", .text " +1_0\n"), ("depth", .null), ("screen_width", .real (-67 / 2))]
    (pairs.map Prod.fst).Nodup ∧ c.update pairs = (⟨-33, 100, 10⟩, none) ∧
      c.update pairs.reverse = (⟨-33, 100, 10⟩, none) := by
  intro c pairs
  have hnodup : (pairs.map Prod.fst).Nodup := by decide
  have hupdate : c.update pairs = (⟨-33, 100, 10⟩, none) := by decide +kernel
  rcases update_in_any_order c hnodup with ⟨-, hfails⟩ | ⟨-, result, -, hsame⟩
  · have hfailure := hfails pairs (.refl _)
    rw [hupdate] at hfailure
    cases hfailure
  · have hresult := (hsame pairs (.refl _)).symm.trans hupdate
    exact ⟨hnodup, hupdate, (hsame _ pairs.reverse_perm).trans hresult⟩

end Configuration

end RegisterMachine
