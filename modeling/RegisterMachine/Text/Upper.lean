import RegisterMachine.Text.UpperTable

set_option autoImplicit false

/-! # Upper case

`Text.upper` replaces every character by its full upper-case form, which for a few characters is
two or three characters long. It works character by character (`upper_append`) and agrees with
`Char.toUpper` on ASCII (`upperChar_of_ascii`). -/

namespace RegisterMachine.Text

/-- The full upper-case form of a character. -/
def upperChar (c : Char) : List Char :=
  let code := c.toNat
  if code < 0x80 then [c.toUpper]
  else match caseRuns.find? (·.contains code) with
    | some run => [Char.ofNat ((code : Int) + run.shift).toNat]
    | none => match caseExpansions.lookup code with
      | some codes => codes.map Char.ofNat
      | none => [c]

/-- The full upper-case form of a text. -/
def upper (text : List Char) : List Char :=
  text.flatMap upperChar

theorem upperChar_of_ascii {c : Char} (h : c.toNat < 0x80) : upperChar c = [c.toUpper] := by
  simp [upperChar, h]

@[simp] theorem upper_nil : upper [] = [] := rfl

@[simp] theorem upper_cons (c : Char) (text : List Char) :
    upper (c :: text) = upperChar c ++ upper text := rfl

@[simp] theorem upper_append (s t : List Char) : upper (s ++ t) = upper s ++ upper t := by
  simp [upper]

end RegisterMachine.Text
