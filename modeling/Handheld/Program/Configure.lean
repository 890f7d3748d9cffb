import Handheld.Build.Configuration
import Handheld.Build.Project
import Handheld.CommandLine.Basic
import Handheld.Files.Basic

/-! # Configuring — the settings of a packing

    Choices come from the options of the command line, from a name and a
    creator before the input files, and from a project file, and are made
    in this order. -/

namespace Handheld

namespace PackRequest

/-- The name and the creator before the input files, and the input files.
    They are there if neither is an existing file and the second is a
    tag. -/
def positional (r : PackRequest) (files : Files) :
    Option (String × Tag) × List String :=
  match r.inputs with
  | name :: creator :: rest =>
      match Tag.ofText creator with
      | .ok tag =>
          if files.leadsTo name ∨ files.leadsTo creator then (none, r.inputs)
          else (some (name, tag), rest)
      | .error _ => (none, r.inputs)
  | _ => (none, r.inputs)

/-- The input files. -/
def inputFiles (r : PackRequest) (files : Files) : List String :=
  (r.positional files).2

end PackRequest

namespace Settings

/-- Makes the choices of the name and the creator before the input
    files. -/
def choosePositional (s : Settings) :
    Option (String × Tag) → Run ConfigError Settings
  | none => return s
  | some (name, creator) => do
      Run.tell
        [.debug s!"positional database name {Quoted.encode name} and creator {creator.text}"]
      Run.ofExcept (s.tryChoose .positional
        { Choices.nothing with name := some name, creator := some creator })

/-- Makes the choices of a project file for an output. -/
def chooseProject (s : Settings) (files : Files) (output : String) :
    Option String → Run ConfigError Settings
  | none => return s
  | some path => do
      let text ← Run.ofExcept ((files.readText path).mapError .file)
      let project ← Run.ofExcept (Project.ofText text)
      project.tryApply s ((Path.fileName? output).getD "")

end Settings

/-- The settings of a packing. -/
def configure (files : Files) (r : PackRequest) :
    Run ConfigError Settings := do
  let s ← Run.ofExcept
    (Settings.initial.tryChoose .commandLine r.choices)
  let s ← s.choosePositional (r.positional files).1
  s.chooseProject files r.output r.project

end Handheld
