import Handheld.Build.Assembly
import Handheld.Database.Layout
import Handheld.Program.Configure
import Handheld.Report

/-! # The program — from a command line to its outcome

    Packing writes the output only if nothing was an error before; problems
    with one input do not keep the others from being tried.  Describing
    writes nothing. -/

namespace Handheld

/-- How a run ended: what it said, what it printed, and the files after
    it. -/
structure Outcome where
  journal : List Event
  output : String
  files : Files

namespace Outcome

/-- The problems that were met. -/
def diagnostics (o : Outcome) : Diagnostics :=
  diagnosticsOf o.journal

/-- The exit status. -/
def exitStatus (o : Outcome) : Nat :=
  o.diagnostics.exitStatus

/-- The count of problems, which is said at the end if there were any. -/
def tally (ds : Diagnostics) : List Event :=
  if ds = [] then []
  else [.note .info s!"{ds.count .warning} warnings, {ds.count .error} errors"]

/-- The journal as it is printed. -/
def lines (o : Outcome) (verbose : Bool) : List String :=
  ((o.journal ++ tally o.diagnostics).filter (Event.isShown verbose)).map
    Event.line

end Outcome

namespace Program

/-! ## Packing -/

/-- What is said about a database before it is written. -/
def remarks (a : Assembly) (header : Header) (output : String) :
    List Event :=
  (if a.isEmpty then [.warning output "no resources to write"] else [])
    ++ if header.name.isTerminated then []
      else [.warning output s!"database name {Quoted.encode header.name.text} leaves no room for a terminating NUL"]

/-- The files after a database has been written to a path. -/
def save (files : Files) (d : Database .resource) (path : String) :
    Except FormatError Files :=
  match d.serialize with
  | .ok image => (files.write path image).mapError .file
  | .error e => .error e

/-- The files after a database has been written if possible, and what is
    said about it. -/
def store (files : Files) (d : Database .resource) (output : String) :
    Files × List Event :=
  match save files d output with
  | .ok files =>
      (files, [.note .info s!"wrote {d.size} resources to {output}"])
  | .error e => (files, [.error output e.message])

/-- Assembles and writes a database under these settings. -/
def build (files : Files) (now : Timestamp) (r : PackRequest)
    (s : Settings) : Files × List Event :=
  let (a, events) := Assembly.empty.addFiles files s.packOptions
    (r.inputFiles files)
  if (diagnosticsOf events).hasErrors then
    (files, events ++
      [.note .error s!"not writing {r.output} because of earlier errors"])
  else
    let header := s.header r.output now
    let d := a.finish header
    let (files, ending) := store files d r.output
    (files, events ++ remarks a header r.output ++ d.serializeEvents
      ++ ending)

/-- Packs a database. -/
def pack (files : Files) (now : Timestamp) (r : PackRequest) : Outcome :=
  let configured := configure files r
  match configured.result with
  | .error e => ⟨configured.journal ++ [.error r.output e.message], "", files⟩
  | .ok s =>
      let (files, events) := build files now r s
      ⟨configured.journal ++ events, "", files⟩

/-! ## Describing -/

/-- Describes a database. -/
def info (files : Files) (r : InfoRequest) : Outcome :=
  match files.read r.file with
  | .error e => ⟨[.error r.file e.message], "", files⟩
  | .ok contents =>
      let events := Image.parseAnyEvents contents
      match Image.parseAny contents with
      | .error e => ⟨events ++ [.error r.file e.message], "", files⟩
      | .ok d => ⟨events, d.report r.json, files⟩

/-- Carries out a command. -/
def run (files : Files) (now : Timestamp) : Command → Outcome
  | .pack r => pack files now r
  | .info r => info files r

end Program

end Handheld
