import RegisterMachine.Toml.Scalar
import RegisterMachine.Toml.Table

set_option autoImplicit false

/-! # Documents

`Toml.parse` reads a document of statements, one to a line: headers, which open a table or append
one to a list, and pairs of a key and a value in the open table. A dotted key leads into tables of
its own. Values may be lists and inline tables, which hold further values; since every value takes
at least one character, the number of characters bounds the depth. -/

namespace RegisterMachine.Toml

/-! ## Keys -/

/-- One part of a key: bare characters or a quoted text on one line. -/
def scanKeyPart : List Char → Except Failure (String × List Char)
  | '"' :: rest => (scanBasic .plain rest).map fun (text, rest) => (String.ofList text, rest)
  | '\'' :: rest => (scanLiteral rest).map fun (text, rest) => (String.ofList text, rest)
  | chars =>
    let text := chars.takeWhile isBareKey
    if text = [] then malformed else .ok (String.ofList text, chars.dropWhile isBareKey)

/-- The parts of a dotted key, and the characters after the blanks behind it. At most `fuel` parts
    are read. -/
def scanKeyParts : (fuel : Nat) → List Char → Except Failure (Path × List Char)
  | 0, _ => malformed
  | fuel + 1, chars => do
    let (part, rest) ← scanKeyPart chars
    match skipBlanks rest with
    | '.' :: rest =>
      let (parts, rest) ← scanKeyParts fuel (skipBlanks rest)
      .ok (part :: parts, rest)
    | rest => .ok ([part], rest)

/-- A key. -/
def scanKey (chars : List Char) : Except Failure (Path × List Char) :=
  scanKeyParts (chars.length + 1) chars

/-! ## Values -/

/-- Whether a value holds others. -/
def isContainer : Value → Bool
  | .list _ | .table _ => true
  | _ => false

/-- Adds a pair of a dotted key and a value to an inline table. Inline values in it stay as they
    are. -/
def addInline (frozen : Marks) (key : Path) (value : Value) (entries : Entries) :
    Except Failure Entries :=
  if frozen.isFrozen key then malformed
  else match key.getLast? with
    | none => malformed
    | some stem => changeAt false (addNew stem value) key.dropLast entries

mutual

/-- A value. -/
def scanValue : (fuel : Nat) → List Char → Except Failure (Value × List Char)
  | 0, _ => malformed
  | fuel + 1, chars =>
    match chars with
    | '[' :: rest => do
      let rest ← skipFiller false rest
      match rest with
      | ']' :: rest => .ok (.list [], rest)
      | rest => do
        let (items, rest) ← scanItems fuel rest
        .ok (.list items, rest)
    | '\x7b' :: rest =>
      match skipBlanks rest with
      | '\x7d' :: rest => .ok (.table [], rest)
      | rest => do
        let (entries, rest) ← scanPairs fuel {} [] rest
        .ok (.table entries, rest)
    | _ => scanScalar chars

/-- The items of a list, up to the bracket that closes it. A comma may stand behind the last. -/
def scanItems : (fuel : Nat) → List Char → Except Failure (List Value × List Char)
  | 0, _ => malformed
  | fuel + 1, chars => do
    let (item, rest) ← scanValue fuel chars
    let rest ← skipFiller false rest
    match rest with
    | ']' :: rest => .ok ([item], rest)
    | ',' :: rest => do
      let rest ← skipFiller false rest
      match rest with
      | ']' :: rest => .ok ([item], rest)
      | rest => do
        let (items, rest) ← scanItems fuel rest
        .ok (item :: items, rest)
    | _ => malformed

/-- The pairs of an inline table after those read so far, up to the brace that closes it. -/
def scanPairs : (fuel : Nat) → Marks → Entries → List Char → Except Failure (Entries × List Char)
  | 0, _, _, _ => malformed
  | fuel + 1, frozen, entries, chars => do
    let (key, rest) ← scanKey chars
    match rest with
    | '=' :: rest => do
      let (value, rest) ← scanValue fuel (skipBlanks rest)
      let entries ← addInline frozen key value entries
      match skipBlanks rest with
      | '\x7d' :: rest => .ok (entries, rest)
      | ',' :: rest =>
        let frozen := if isContainer value then frozen.freeze key else frozen
        scanPairs fuel frozen entries (skipBlanks rest)
      | _ => malformed
    | _ => malformed

end

/-! ## Statements -/

/-- A document, so far. -/
structure Document where
  root : Entries := []
  marks : Marks := {}
  /-- The path of the open table. -/
  header : Path := []

/-- Opens a table by its path. -/
def Document.openTable (d : Document) (path : Path) : Except Failure Document := do
  if d.marks.isOpened path || d.marks.isFrozen path then malformed
  else
    let root ← changeAt true .ok path d.root
    return { root, marks := d.marks.markOpened path, header := path }

/-- Appends a table to the list at a path and opens it. -/
def Document.openItem (d : Document) (path : Path) : Except Failure Document := do
  if d.marks.isFrozen path then malformed
  else match path.getLast? with
    | none => malformed
    | some stem =>
      let root ← changeAt true (appendTable stem) path.dropLast d.root
      return { root, marks := (d.marks.forget path).markOpened path, header := path }

/-- The proper beginnings of a key, without the empty one. -/
def properBeginnings (key : Path) : List Path :=
  (List.range' 1 (key.length - 1)).map key.take

/-- Adds a pair to the open table. -/
def Document.addPair (d : Document) (key : Path) (value : Value) : Except Failure Document := do
  let tables := (properBeginnings key).map (d.header ++ ·)
  if tables.any d.marks.isOpened then malformed
  else if d.marks.isFrozen (d.header ++ key.dropLast) then malformed
  else match key.getLast? with
    | none => malformed
    | some stem =>
      let root ← changeAt true (addNew stem value) (d.header ++ key.dropLast) d.root
      let deferred := d.marks.defer tables
      let marks := if isContainer value then deferred.freeze (d.header ++ key) else deferred
      return { d with root, marks }

/-- A header: the path behind its opening brackets, up to the closing ones. -/
def scanHeader (closing : List Char) (chars : List Char) : Except Failure (Path × List Char) := do
  let (path, rest) ← scanKey (skipBlanks chars)
  match afterText? closing rest with
  | some rest => .ok (path, rest)
  | none => malformed

/-- One statement at the start of a line, which may be missing. -/
def scanStatement (d : Document) (chars : List Char) : Except Failure (Document × List Char) :=
  match chars with
  | '[' :: '[' :: rest => do
    let (path, rest) ← scanHeader [']', ']'] rest
    let d ← ({ d with marks := d.marks.settle } : Document).openItem path
    .ok (d, rest)
  | '[' :: rest => do
    let (path, rest) ← scanHeader [']'] rest
    let d ← ({ d with marks := d.marks.settle } : Document).openTable path
    .ok (d, rest)
  | [] => .ok (d, [])
  | '\n' :: _ => .ok (d, chars)
  | '#' :: _ => .ok (d, chars)
  | _ => do
    let (key, rest) ← scanKey chars
    match rest with
    | '=' :: rest => do
      let rest := skipBlanks rest
      let (value, rest) ← scanValue (2 * rest.length + 2) rest
      let d ← d.addPair key value
      .ok (d, rest)
    | _ => malformed

/-- The statements of a document, at most `fuel` of them. -/
def scanStatements : (fuel : Nat) → Document → List Char → Except Failure Document
  | 0, _, _ => malformed
  | fuel + 1, d, chars => do
    let (d, rest) ← scanStatement d (skipBlanks chars)
    let rest ← skipComment (skipBlanks rest)
    match rest with
    | [] => .ok d
    | '\n' :: rest => scanStatements fuel d rest
    | _ => malformed

/-- The table that a document spells. -/
def parse (source : String) : Except Failure Entries :=
  let chars := source.toList
  (scanStatements (chars.length + 1) {} chars).map (·.root)

end RegisterMachine.Toml
