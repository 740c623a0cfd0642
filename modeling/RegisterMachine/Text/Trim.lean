set_option autoImplicit false

/-! # Trimming

Items of a class are dropped from the end (`dropTrailing`) or from both ends (`trim`) of a list.
What is left does not end in an item of the class (`getLast?_dropTrailing`), what is dropped has
only such items (`exists_dropTrailing_append`), and a list that does not end in one is left alone
(`dropTrailing_eq_self`). -/

namespace RegisterMachine.Text

variable {α : Type}

/-- The list without its longest final run of items in `p`. -/
def dropTrailing (p : α → Bool) (items : List α) : List α :=
  (items.reverse.dropWhile p).reverse

/-- The list without its longest first and last runs of items in `p`. -/
def trim (p : α → Bool) (items : List α) : List α :=
  dropTrailing p (items.dropWhile p)

theorem dropTrailing_cons_of_false {p : α → Bool} {a : α} (h : p a = false) (items : List α) :
    dropTrailing p (a :: items) = a :: dropTrailing p items := by
  rw [dropTrailing, List.reverse_cons, List.dropWhile_append]
  split
  · rename_i hempty
    rw [dropTrailing, List.isEmpty_iff.1 hempty]
    simp [h]
  · rw [List.reverse_append]
    rfl

theorem getLast?_dropTrailing (p : α → Bool) (items : List α) (a : α)
    (h : (dropTrailing p items).getLast? = some a) : p a = false := by
  rw [dropTrailing, List.getLast?_reverse] at h
  cases hd : items.reverse.dropWhile p with
  | nil => simp [hd] at h
  | cons d rest =>
    have := List.head?_dropWhile_not p items.reverse
    rw [hd] at h this
    simp only [List.head?_cons, Option.some.injEq] at h this
    simpa [h] using this

theorem dropTrailing_eq_self {p : α → Bool} {items : List α}
    (h : ∀ a ∈ items.getLast?, p a = false) : dropTrailing p items = items := by
  cases hreverse : items.reverse with
  | nil =>
      rw [List.reverse_eq_nil_iff.1 hreverse]
      rfl
  | cons last rest =>
      have hlast : items.getLast? = some last := by rw [← List.head?_reverse, hreverse]; rfl
      rw [dropTrailing, hreverse, List.dropWhile_cons_of_neg (by simp [h last hlast]), ← hreverse,
        List.reverse_reverse]

/-- What is dropped are items in `p`. -/
theorem exists_dropTrailing_append (p : α → Bool) (items : List α) :
    ∃ suffix, (∀ a ∈ suffix, p a = true) ∧ dropTrailing p items ++ suffix = items := by
  refine ⟨(items.reverse.takeWhile p).reverse, fun a ha => ?_, ?_⟩
  · exact List.all_eq_true.1 List.all_takeWhile a (List.mem_reverse.1 ha)
  · rw [dropTrailing, ← List.reverse_append, List.takeWhile_append_dropWhile,
      List.reverse_reverse]

theorem mem_of_mem_dropTrailing {p : α → Bool} {items : List α} {a : α}
    (h : a ∈ dropTrailing p items) : a ∈ items := by
  have hreverse := (List.dropWhile_sublist p).subset (List.mem_reverse.1 h)
  exact List.mem_reverse.1 hreverse

theorem length_dropTrailing_le (p : α → Bool) (items : List α) :
    (dropTrailing p items).length ≤ items.length := by
  have hreverse := (items.reverse.dropWhile_sublist p).length_le
  rwa [List.length_reverse, ← List.length_reverse] at hreverse

end RegisterMachine.Text
