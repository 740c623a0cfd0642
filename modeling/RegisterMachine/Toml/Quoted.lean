import RegisterMachine.Toml.Scan

set_option autoImplicit false

/-! # Quoted texts

A text stands between quotation marks, where a backslash starts an escape, or between apostrophes,
where every character stands for itself. Three marks on either side allow several lines; then a
newline right after the opening marks does not belong to the text, a backslash before the end of a
line swallows the blanks and newlines that follow, and up to two further marks may stand right
before the closing ones. -/

namespace RegisterMachine.Toml

/-! ## Escapes -/

/-- The character that a one-letter escape stands for. -/
def escapedChar? : Char → Option Char
  | 'b' => some '\x08'
  | 't' => some '\t'
  | 'n' => some '\n'
  | 'f' => some '\x0C'
  | 'r' => some '\r'
  | '"' => some '"'
  | '\\' => some '\\'
  | _ => none

/-- The character with a code point in hexadecimal digits, if it is a Unicode scalar value. -/
def charOfHex? (digits : List Char) : Option Char := do
  let values ← digits.mapM hexDigit?
  let code := values.foldl (fun acc d => 16 * acc + d) 0
  if h : code.isValidChar then some (Char.ofNatAux code h) else none

/-- The length of the escape of a code point. -/
def hexLength? : Char → Option Nat
  | 'u' => some 4
  | 'U' => some 8
  | _ => none

/-! ## Texts on one line -/

/-- How far the reader of a text with escapes is. -/
inductive EscapeState where
  /-- Not inside an escape. -/
  | plain
  /-- Behind a backslash. -/
  | opened
  /-- Inside the hexadecimal digits of a code point, with so many to come and those read, in
      reverse. -/
  | hex (missing : Nat) (read : List Char)
  /-- Behind a backslash and blanks, before the end of the line. -/
  | beforeNewline
  /-- Behind a backslash and the end of the line. -/
  | afterNewline
  deriving DecidableEq

/-- The state behind one more character of an escape, with the character that is finished by it. -/
def EscapeState.next? (multiline : Bool) (c : Char) : EscapeState → Option (EscapeState × List Char)
  | plain => if c = '\\' then some (opened, []) else some (plain, [c])
  | opened =>
    if multiline && c == '\n' then some (afterNewline, [])
    else if multiline && isBlank c then some (beforeNewline, [])
    else match hexLength? c with
      | some length => some (hex length [], [])
      | none => (escapedChar? c).map fun e => (plain, [e])
  | hex missing read =>
    match missing with
    | 0 | 1 => (charOfHex? (c :: read).reverse).map fun e => (plain, [e])
    | missing + 1 => if (hexDigit? c).isSome then some (hex missing (c :: read), []) else none
  | beforeNewline =>
    if c = '\n' then some (afterNewline, [])
    else if isBlank c then some (beforeNewline, [])
    else none
  | afterNewline =>
    if isBlankOrNewline c then some (afterNewline, [])
    else if c = '\\' then some (opened, [])
    else some (plain, [c])

/-- Whether a mark in this state ends a text or stands for itself. -/
def EscapeState.isOpenText : EscapeState → Bool
  | plain | afterNewline => true
  | opened | hex .. | beforeNewline => false

/-- The rest of a text between quotation marks, with its escapes resolved. -/
def scanBasic (state : EscapeState) : List Char → Except Failure (List Char × List Char)
  | [] => malformed
  | c :: rest =>
    if state.isOpenText && c == '"' then .ok ([], rest)
    else if state.isOpenText && isIllegal c then malformed
    else match state.next? false c with
      | none => malformed
      | some (state, out) => (scanBasic state rest).map fun (text, after) => (out ++ text, after)

/-- The rest of a text between apostrophes. -/
def scanLiteral : List Char → Except Failure (List Char × List Char)
  | [] => malformed
  | c :: rest =>
    if c = '\'' then .ok ([], rest)
    else if isIllegal c then malformed
    else (scanLiteral rest).map fun (text, after) => (c :: text, after)

/-! ## Texts of several lines -/

/-- Up to two further marks behind the three that close a text belong to it. -/
def trailingMarks (mark : Char) : List Char → List Char × List Char
  | a :: b :: rest =>
    if a = mark then if b = mark then ([mark, mark], rest) else ([mark], b :: rest)
    else ([], a :: b :: rest)
  | [a] => if a = mark then ([mark], []) else ([], [a])
  | [] => ([], [])

/-- The characters after the three marks that close a text, if they stand at the start. -/
def afterMarks? (mark : Char) (chars : List Char) : Option (List Char) :=
  afterText? [mark, mark, mark] chars

/-- The rest of a text between three quotation marks. -/
def scanBasicLines (state : EscapeState) : List Char → Except Failure (List Char × List Char)
  | [] => malformed
  | c :: rest =>
    match (if state.isOpenText then afterMarks? '"' (c :: rest) else none) with
    | some after => .ok (trailingMarks '"' after)
    | none =>
      if state.isOpenText && isIllegalInLines c then malformed
      else match state.next? true c with
        | none => malformed
        | some (state, out) =>
          (scanBasicLines state rest).map fun (text, after) => (out ++ text, after)

/-- The rest of a text between three apostrophes. -/
def scanLiteralLines : List Char → Except Failure (List Char × List Char)
  | [] => malformed
  | c :: rest =>
    match afterMarks? '\'' (c :: rest) with
    | some after => .ok (trailingMarks '\'' after)
    | none =>
      if isIllegalInLines c then malformed
      else (scanLiteralLines rest).map fun (text, after) => (c :: text, after)

/-- The characters after a newline right behind opening marks. -/
def skipFirstNewline : List Char → List Char
  | '\n' :: rest => rest
  | chars => chars

/-- A quoted text of either kind, on one line or on several, or `none` where none begins. -/
def scanQuoted? (chars : List Char) : Option (Except Failure (List Char × List Char)) :=
  match afterMarks? '"' chars, afterMarks? '\'' chars, chars with
  | some rest, _, _ => some (scanBasicLines .plain (skipFirstNewline rest))
  | none, some rest, _ => some (scanLiteralLines (skipFirstNewline rest))
  | none, none, '"' :: rest => some (scanBasic .plain rest)
  | none, none, '\'' :: rest => some (scanLiteral rest)
  | none, none, _ => none

end RegisterMachine.Toml
