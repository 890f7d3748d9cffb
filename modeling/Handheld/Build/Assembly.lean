import Handheld.Build.Input

/-! # Assemblies — resources from several files

    The first file to supply a key keeps it; later resources with the same
    key are ignored with a warning.  A file that cannot be used adds
    nothing. -/

namespace Handheld

/-- The resources that have been collected, and what supplied each. -/
structure Assembly where
  database : Database .resource
  origins : Std.ExtTreeMap ResourceKey String ResourceKey.order
deriving DecidableEq

namespace Assembly

/-- The assembly before anything is collected. -/
def empty : Assembly := ⟨Database.new .resource Header.blank, ∅⟩

/-- The number of resources. -/
def size (a : Assembly) : Nat :=
  a.database.size

/-- Whether there are no resources. -/
def isEmpty (a : Assembly) : Bool :=
  a.database.isEmpty

/-- Whether nothing has supplied this key yet. -/
def isFree (a : Assembly) (key : ResourceKey) : Bool :=
  !a.origins.contains key

/-- The assembly after a resource is offered, and whether the resource was
    added.  It is unless its key is taken. -/
def offer (a : Assembly) (origin : String) (r : Resource) :
    Assembly × Bool :=
  if a.isFree r.1 then
    (⟨a.database.insert r.1 r.2, a.origins.insert r.1 origin⟩, true)
  else (a, false)

/-- The assembly with a resource, unless its key is taken. -/
def add (a : Assembly) (origin : String) (r : Resource) : Assembly :=
  (a.offer origin r).1

/-- What adding a resource reports. -/
def addEvents (a : Assembly) (origin : String) (r : Resource) :
    List Event :=
  match a.origins[r.1]? with
  | some first =>
      [.warning origin s!"resource {r.1.text} already obtained from {first}; ignoring this one"]
  | none => []

/-- The assembly with several resources from one origin. -/
def addAll (a : Assembly) (origin : String) (rs : List Resource) :
    Assembly :=
  rs.foldl (fun a r => a.add origin r) a

/-- What adding several resources reports. -/
def addAllEvents (a : Assembly) (origin : String) :
    List Resource → List Event
  | [] => []
  | r :: rest =>
      a.addEvents origin r ++ addAllEvents (a.add origin r) origin rest

/-- The assembly with the resources in a file. -/
def addFile (a : Assembly) (files : Files) (options : PackOptions)
    (path : String) : Run InputError Assembly := do
  let found ← Input.load files options path
  Run.tell (a.addAllEvents path found)
  return a.addAll path found

/-- The assembly with the resources in several files.  What is wrong with a
    file is reported, and the others are added all the same. -/
def addFiles (a : Assembly) (files : Files) (options : PackOptions) :
    List String → Assembly × List Event
  | [] => (a, [])
  | path :: rest =>
      let run := a.addFile files options path
      match run.result with
      | .ok added =>
          let (final, events) := addFiles added files options rest
          (final, run.journal ++ events)
      | .error e =>
          let (final, events) := addFiles a files options rest
          (final, run.journal ++ .error path e.message :: events)

/-- The resources, in the order of their keys. -/
def resources (a : Assembly) : List Resource :=
  a.database.toList

/-- The database of the resources under a header. -/
def finish (a : Assembly) (header : Header) : Database .resource :=
  (Database.new .resource header).insertAll a.resources

end Assembly

end Handheld
