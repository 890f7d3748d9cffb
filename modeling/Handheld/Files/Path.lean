import Handheld.Text.Parts

/-! # Paths — the names of files

    A path is a list of names with slashes in between.  Empty names and
    single dots mean nothing; two dots mean the directory above. -/

namespace Handheld.Path

/-- The names of a path as they are written. -/
def pieces (path : String) : List String :=
  (Parts.splitAll '/' path.toList).map String.ofList

/-- The names of a path that mean something. -/
def names (path : String) : List String :=
  (pieces path).filter fun name => name ≠ "" ∧ name ≠ "."

/-- Whether a path begins at the root. -/
def isAbsolute (path : String) : Bool :=
  path.startsWith "/"

/-- The places that one comes through by these names, without regard to
    what is there. -/
def placesFrom (place : List String) : List String → List (List String)
  | [] => []
  | name :: rest =>
      let next := if name = ".." then place.dropLast else place ++ [name]
      next :: placesFrom next rest

/-- The places that a path leads through from a directory. -/
def places (here : List String) (path : String) : List (List String) :=
  placesFrom (if isAbsolute path then [] else here) (names path)

/-- The path that is written as names from the root on. -/
def ofNames (names : List String) : String :=
  String.join (names.map ("/" ++ ·))

/-- The name of the file that a path leads to. -/
def fileName? (path : String) : Option String :=
  match (names path).getLast? with
  | some name => if name = ".." then none else some name
  | none => none

/-- The name of a file without its extension.  A dot at the beginning
    starts no extension. -/
def stem (name : String) : String :=
  match Parts.splitLast? '.' name.toList with
  | some ([], _) => name
  | some (before, _) => String.ofList before
  | none => name

/-- The name of the file that a path leads to, without its extension. -/
def fileStem? (path : String) : Option String :=
  (fileName? path).map stem

end Handheld.Path
