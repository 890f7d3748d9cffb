import Handheld.Bytes
import Handheld.Files.Error
import Handheld.Files.Path
import Std.Data.ExtTreeMap

/-! # Files — a tree of directories, and the paths in it

    A path leads to a file or a directory one name at a time, from the root
    or from the directory where the program runs.  Writing a file replaces
    it as a whole:

    • `place` is where a path leads to, or why it leads nowhere;
    • `read` and `readText` are what is there;
    • `write` puts a file there and changes nothing else. -/

namespace Handheld

/-- What a name stands for. -/
inductive Node where
  | file (contents : Bytes)
  | directory
deriving DecidableEq

/-- The files that a program can see.  The names of the directories down to
    a node, and its own, are what it is found by. -/
structure Files where
  /-- The directory where the program runs. -/
  here : List String
  nodes : Std.ExtTreeMap (List String) Node

namespace Files

/-! ## The tree -/

/-- What a list of names from the root on stands for. -/
def node? (f : Files) (names : List String) : Option Node :=
  if names = [] then some .directory else f.nodes[names]?

/-- The files with one node added or replaced. -/
def put (f : Files) (names : List String) (node : Node) : Files :=
  ⟨f.here, f.nodes.insert names node⟩

/-- The directories that lead to a node, from the root on. -/
def above (names : List String) : List (List String) :=
  (List.range names.length).map names.take

/-- The files with one node added, and the directories that lead to it. -/
def add (f : Files) (names : List String) (node : Node) : Files :=
  ((above names).foldl (fun f names => f.put names .directory) f).put
    names node

/-- A directory where a program runs, without any files. -/
def empty (here : List String) : Files :=
  add ⟨here, ∅⟩ here .directory

/-- Where a path leads to: the names from the root on, and what they stand
    for. -/
structure Place where
  names : List String
  node : Node
deriving DecidableEq

/-- The greatest size of a name. -/
def nameLimit : Nat := 255

/-- The size that a path must not reach. -/
def pathLimit : Nat := 4096

/-- Goes on from a place by one name. -/
def step (f : Files) (p : Place) (name : String) : Except FileError Place :=
  match p.node with
  | .file _ => .error .notADirectory
  | .directory =>
      if name = "" ∨ name = "." then .ok p
      else if name = ".." then .ok ⟨p.names.dropLast, .directory⟩
      else if nameLimit < name.utf8ByteSize then .error .nameTooLong
      else match f.node? (p.names ++ [name]) with
        | some node => .ok ⟨p.names ++ [name], node⟩
        | none => .error .notFound

/-- Where a path begins. -/
def start (f : Files) (path : String) : Place :=
  if Path.isAbsolute path then ⟨[], .directory⟩ else ⟨f.here, .directory⟩

/-- Why a text is no path at all.  What is said of a NUL in it depends on
    what the path is for. -/
def flaw? (ofNul : FileError) (path : String) : Option FileError :=
  if path.contains '\x00' then some ofNul
  else if path = "" then some .notFound
  else if pathLimit ≤ path.utf8ByteSize then some .nameTooLong
  else none

/-- Where a path leads to. -/
def place (f : Files) (path : String) : Except FileError Place :=
  match flaw? .badName path with
  | some e => .error e
  | none => (Path.pieces path).foldlM f.step (f.start path)

/-! ## Reading -/

/-- Whether a path leads anywhere. -/
def leadsTo (f : Files) (path : String) : Bool :=
  match f.place path with
  | .ok _ => true
  | .error _ => false

/-- The contents of the file that a path leads to. -/
def read (f : Files) (path : String) : Except FileError Bytes :=
  match f.place path with
  | .ok ⟨_, .file contents⟩ => .ok contents
  | .ok ⟨_, .directory⟩ => .error .isADirectory
  | .error e => .error e

/-- The text in the file that a path leads to. -/
def readText (f : Files) (path : String) : Except FileError String :=
  match f.read path with
  | .ok contents =>
      match Bytes.toText? contents with
      | some text => .ok text
      | none => .error .notText
  | .error e => .error e

/-! ## Writing -/

/-- The names from the root on of the file that would be written to a path.
    The path must lead to a directory but for its last name, which stands
    for a file or nothing. -/
def target (f : Files) (path : String) : Except FileError (List String) :=
  match flaw? .invalidArgument path, (Path.pieces path).reverse.dropWhile (· = "") with
  | some e, _ => .error e
  | none, [] => .error .busy
  | none, last :: earlier =>
      match earlier.reverse.foldlM f.step (f.start path) with
      | .error e => .error e
      | .ok ⟨_, .file _⟩ => .error .notADirectory
      | .ok ⟨names, .directory⟩ =>
          if last = "." ∨ last = ".." then .error .busy
          else if nameLimit < last.utf8ByteSize then .error .nameTooLong
          else if path.endsWith "/" then .error .notADirectory
          else if f.node? (names ++ [last]) = some .directory then
            .error .isADirectory
          else .ok (names ++ [last])

/-- The files after the contents have been written to a path. -/
def write (f : Files) (path : String) (contents : Bytes) :
    Except FileError Files :=
  (f.target path).map fun names => f.put names (.file contents)

/-- The files that are there after a change and were not there before, or
    had other contents. -/
def changes (before after : Files) : List (List String × Bytes) :=
  after.nodes.toList.filterMap fun (names, node) =>
    match node with
    | .file contents =>
        if before.node? names = some node then none
        else some (names, contents)
    | .directory => none

end Files

end Handheld
