set_option autoImplicit false

/-! # Paths

A path is shown without the parts that lead nowhere: empty ones and single dots. In a directory of
files, a path leads to a file if its last part is the file's name and all parts before it are single
dots or empty, the first not being empty. -/

namespace RegisterMachine.Command

/-- The parts of a path between its slashes. -/
def pathParts (path : String) : List (List Char) :=
  path.toList.splitOn '/'

/-- Whether a part of a path stays in the same directory. -/
def staysPut (part : List Char) : Bool :=
  part == [] || part == ['.']

/-- The slashes that a path keeps at its start: two stay two, any other number becomes one. -/
def rootOf (path : String) : List Char :=
  match path.toList.takeWhile (· == '/') with
  | [] => []
  | ['/', '/'] => ['/', '/']
  | _ => ['/']

/-- The form in which a path is shown. -/
def displayPath (path : String) : String :=
  let parts := (pathParts path).filter (!staysPut ·)
  let shown := rootOf path ++ List.intercalate ['/'] parts
  if shown = [] then "." else String.ofList shown

/-- Files by their names. -/
abbrev Directory := List (String × ByteArray)

/-- The file that a path leads to. -/
def Directory.file? (directory : Directory) (path : String) : Option ByteArray :=
  let parts := pathParts path
  match parts.getLast?, parts.head? with
  | some name, some first =>
    if parts.dropLast.all staysPut ∧ (first ≠ [] ∨ parts.length = 1) then
      directory.lookup (String.ofList name)
    else none
  | _, _ => none

end RegisterMachine.Command
