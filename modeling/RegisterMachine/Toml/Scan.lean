import RegisterMachine.Failure
import RegisterMachine.Text.DecimalDigit

set_option autoImplicit false

/-! # Scanning a document

A reader of a part of a document takes the characters that are left and gives what it read with the
characters after it. This module holds the character classes of the format and the readers of
blanks, comments and fixed texts. -/

namespace RegisterMachine.Toml

/-- The document is malformed. -/
def malformed {α : Type} : Except Failure α :=
  .error .malformedDocument

/-! ## Character classes -/

/-- The blanks inside a line. -/
def isBlank (c : Char) : Bool :=
  c == ' ' || c == '\t'

/-- The blanks inside a line, and the end of a line. -/
def isBlankOrNewline (c : Char) : Bool :=
  isBlank c || c == '\n'

/-- The control characters that may not stand in comments and one-line texts. -/
def isIllegal (c : Char) : Bool :=
  (c.toNat < 0x20 && c != '\t') || c.toNat == 0x7F

/-- The control characters that may not stand in texts of several lines. -/
def isIllegalInLines (c : Char) : Bool :=
  isIllegal c && c != '\n'

/-- The characters of a key without quotes. -/
def isBareKey (c : Char) : Bool :=
  c.isAlphanum || c == '-' || c == '_'

/-- The value of a hexadecimal digit. -/
def hexDigit? (c : Char) : Option Nat :=
  if 'a' ≤ c ∧ c ≤ 'f' then some (c.toNat - 'a'.toNat + 10)
  else if 'A' ≤ c ∧ c ≤ 'F' then some (c.toNat - 'A'.toNat + 10)
  else Text.asciiDigit? c

/-! ## Readers -/

/-- The characters after the blanks of a line. -/
def skipBlanks (chars : List Char) : List Char :=
  chars.dropWhile isBlank

/-- The characters after a fixed text, if it stands at the start. -/
def afterText? : List Char → List Char → Option (List Char)
  | [], chars => some chars
  | _ :: _, [] => none
  | expected :: rest, c :: chars => if c = expected then afterText? rest chars else none

/-- The characters after a comment, which ends before its newline. -/
def skipCommentBody : List Char → Except Failure (List Char)
  | [] => .ok []
  | c :: rest =>
    if c = '\n' then .ok (c :: rest)
    else if isIllegal c then malformed
    else skipCommentBody rest

/-- The characters after a comment, if one stands at the start. -/
def skipComment : List Char → Except Failure (List Char)
  | '#' :: rest => skipCommentBody rest
  | chars => .ok chars

/-- The characters after blanks, newlines and comments in any order. -/
def skipFiller (insideComment : Bool) : List Char → Except Failure (List Char)
  | [] => .ok []
  | c :: rest =>
    if c = '\n' then skipFiller false rest
    else if insideComment then
      if isIllegal c then malformed else skipFiller true rest
    else if isBlank c then skipFiller false rest
    else if c = '#' then skipFiller true rest
    else .ok (c :: rest)

/-- Digits of one kind, at least one, between which single underscores may stand, and the characters
    after them. -/
def digitsOf? (digit? : Char → Option Nat) : List Char → Option (List Nat × List Char)
  | [] => none
  | c :: '_' :: rest => (digit? c).map fun d =>
    match digitsOf? digit? rest with
    | some (digits, after) => (d :: digits, after)
    | none => ([d], '_' :: rest)
  | c :: rest => (digit? c).map fun d =>
    match digitsOf? digit? rest with
    | some (digits, after) => (d :: digits, after)
    | none => ([d], rest)

end RegisterMachine.Toml
