set_option autoImplicit false

/-! # Registers

There are ten registers. One is named by its index in a program and by `R` and a digit in a source
text; both names are read back (`ofIndex?_val`, `ofSpelling?_spelling`), and
`ofIndex?_eq_some_iff` says which indices name a register. Writing one register leaves the others as
they are (`read_write_self`, `read_write_of_ne`). -/

namespace RegisterMachine

/-- The number of registers. -/
abbrev registerCount : Nat := 10

/-- A register of the machine. -/
abbrev Register := Fin registerCount

/-- The contents of all registers. -/
abbrev Registers := Vector Int registerCount

namespace Register

/-- The register with an index, if there is one. -/
def ofIndex? (index : Int) : Option Register :=
  if h : 0 ≤ index ∧ index < registerCount then some ⟨index.toNat, by omega⟩ else none

/-- The name of a register in a source text. -/
def spelling (r : Register) : List Char :=
  ['R', Nat.digitChar r]

/-- The register that is spelt so. -/
def ofSpelling? (letters : List Char) : Option Register :=
  (List.finRange registerCount).find? (·.spelling == letters)

theorem ofIndex?_eq_some_iff {index : Int} {r : Register} :
    ofIndex? index = some r ↔ index = (r.val : Int) := by
  have := r.isLt
  unfold ofIndex?
  split
  · simp only [Option.some.injEq, Fin.ext_iff]
    omega
  · simp only [reduceCtorEq, false_iff]
    omega

@[simp] theorem ofIndex?_val (r : Register) : ofIndex? (r.val : Int) = some r :=
  ofIndex?_eq_some_iff.2 rfl

theorem isSome_ofIndex? (index : Int) :
    (ofIndex? index).isSome = true ↔ 0 ≤ index ∧ index < registerCount := by
  unfold ofIndex?
  split
  · rename_i h
    simpa using h
  · rename_i h
    simpa using h

@[simp] theorem ofSpelling?_spelling (r : Register) : ofSpelling? r.spelling = some r := by
  revert r
  decide

theorem spelling_of_ofSpelling? {letters : List Char} {r : Register}
    (h : ofSpelling? letters = some r) : r.spelling = letters := by
  simpa using List.find?_some h

end Register

/-! ## Contents -/

namespace Registers

/-- Registers that hold zero. -/
def zero : Registers :=
  Vector.replicate registerCount 0

/-- The content of a register. -/
def read (registers : Registers) (r : Register) : Int :=
  registers.get r

/-- The registers with a new content for one of them. -/
def write (registers : Registers) (r : Register) (content : Int) : Registers :=
  registers.set r content r.isLt

@[simp] theorem read_zero (r : Register) : zero.read r = 0 := by
  simp [zero, read, Vector.get]

@[simp] theorem read_write_self (registers : Registers) (r : Register) (content : Int) :
    (registers.write r content).read r = content :=
  Vector.getElem_set_self r.isLt

theorem read_write_of_ne (registers : Registers) {r s : Register} (content : Int) (h : r ≠ s) :
    (registers.write r content).read s = registers.read s := by
  have hval : r.val ≠ s.val := fun heq => h (Fin.ext heq)
  exact Vector.getElem_set_ne r.isLt s.isLt hval

end Registers

end RegisterMachine
