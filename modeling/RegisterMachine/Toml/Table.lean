import RegisterMachine.Config.Value
import RegisterMachine.Toml.Scan

set_option autoImplicit false

/-! # Tables of a document

A document builds one table of tables. A `Path` leads from table to table by keys, and
`changeAt` changes the table at its end, creating the tables that are missing on the way. `Marks`
remember which tables may not be opened or changed again. -/

namespace RegisterMachine.Toml

/-- The keys and values of a table, in the order in which the keys came up. -/
abbrev Entries := List (String × Value)

/-- The keys that lead to a table or a value. -/
abbrev Path := List String

/-! ## Changes -/

/-- Changes the table at the end of a path. Missing tables are created; with `throughLists` a list
    on the way stands for its last table. -/
def changeAt (throughLists : Bool) (change : Entries → Except Failure Entries) :
    Path → Entries → Except Failure Entries
  | [], entries => change entries
  | key :: path, entries => do
    let child ← match entries.lookup key with
      | none => (changeAt throughLists change path []).map .table
      | some (.table inner) => (changeAt throughLists change path inner).map .table
      | some (.list items) =>
        match throughLists, items.getLast? with
        | true, some (.table inner) =>
          (changeAt throughLists change path inner).map fun inner =>
            .list (items.dropLast ++ [.table inner])
        | _, _ => malformed
      | some _ => malformed
    return Value.put key child entries

/-- Adds a key that the table does not have yet. -/
def addNew (key : String) (value : Value) (entries : Entries) : Except Failure Entries :=
  match entries.lookup key with
  | some _ => malformed
  | none => .ok (entries ++ [(key, value)])

/-- Appends an empty table to the list behind a key, which may be missing. -/
def appendTable (key : String) (entries : Entries) : Except Failure Entries :=
  match entries.lookup key with
  | none => .ok (entries ++ [(key, .list [.table []])])
  | some (.list items) => .ok (Value.put key (.list (items ++ [.table []])) entries)
  | some _ => malformed

/-! ## Marks -/

/-- What may not be done with paths. -/
structure Marks where
  /-- Paths of tables that were opened and may not be opened again. -/
  opened : List Path := []
  /-- Paths of inline values, at and below which nothing may be changed. -/
  frozen : List Path := []
  /-- Paths of tables made by dotted keys, which count as opened from the next header on. -/
  pending : List Path := []

namespace Marks

/-- Whether a table was opened. -/
def isOpened (marks : Marks) (path : Path) : Bool :=
  marks.opened.contains path

/-- Whether a path leads to an inline value or into one. -/
def isFrozen (marks : Marks) (path : Path) : Bool :=
  marks.frozen.any (·.isPrefixOf path)

/-- Marks a table as opened. -/
def markOpened (marks : Marks) (path : Path) : Marks :=
  { marks with opened := path :: marks.opened }

/-- Marks an inline value. -/
def freeze (marks : Marks) (path : Path) : Marks :=
  { marks with frozen := path :: marks.frozen }

/-- Marks tables that were made by dotted keys. -/
def defer (marks : Marks) (paths : List Path) : Marks :=
  { marks with pending := paths ++ marks.pending }

/-- The tables made by dotted keys count as opened. -/
def settle (marks : Marks) : Marks :=
  { marks with opened := marks.pending ++ marks.opened, pending := [] }

/-- Removes the marks at a path and below it. -/
def forget (marks : Marks) (path : Path) : Marks :=
  { marks with
    opened := marks.opened.filter (!path.isPrefixOf ·)
    frozen := marks.frozen.filter (!path.isPrefixOf ·) }

end Marks

end RegisterMachine.Toml
