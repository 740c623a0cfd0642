set_option autoImplicit false

/-! # Separators

`Text.isSeparator` is the one notion of white space in this library's source language: the Unicode
white-space characters together with the four ASCII information separators. -/

namespace RegisterMachine.Text

/-- Whether a character separates tokens. -/
def isSeparator (c : Char) : Bool :=
  let n := c.toNat
  (0x09 ≤ n && n ≤ 0x0D) || (0x1C ≤ n && n ≤ 0x20) || n == 0x85 || n == 0xA0 || n == 0x1680
    || (0x2000 ≤ n && n ≤ 0x200A) || n == 0x2028 || n == 0x2029 || n == 0x202F || n == 0x205F
    || n == 0x3000

@[simp] theorem isSeparator_newline : isSeparator '\n' = true := by decide
@[simp] theorem isSeparator_space : isSeparator ' ' = true := by decide

end RegisterMachine.Text
