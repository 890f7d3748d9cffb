import Handheld.Build.Setting
import Handheld.Files.Error
import Handheld.Text.Quoted

/-! # Configuration errors — why a build cannot be configured -/

namespace Handheld

/-- Why a build cannot be configured. -/
inductive ConfigError where
  | file (cause : FileError)
  | badProject
  | unknownAttribute (name : String)
  | invalidCompression (level : Nat)
  | conflict (cause : Conflict)
deriving DecidableEq

namespace ConfigError

/-- The wording of the error. -/
def message : ConfigError → String
  | .file cause => s!"I/O error: {cause.message}"
  | .badProject => "invalid project file"
  | .unknownAttribute name =>
      s!"unknown database attribute {Quoted.encode name}"
  | .invalidCompression level =>
      s!"compression level {level} is not between 0 and {Compression.Effort.maxLevel}"
  | .conflict cause => cause.message

/-- The wording of the error behind the error. -/
def source? : ConfigError → Option String
  | .file cause => some cause.message
  | .conflict cause => some cause.message
  | _ => none

end ConfigError

/-- The flags of several names together. -/
def Attributes.ofSettingNames (bits : Attributes) :
    List String → Except ConfigError Attributes
  | [] => .ok bits
  | name :: rest =>
      match Attributes.ofSettingName? name with
      | some flag => ofSettingNames (bits.union flag) rest
      | .none => .error (.unknownAttribute name)

/-- The effort of a level that is not too high. -/
def Compression.Effort.ofLevel (level : Nat) :
    Except ConfigError Compression.Effort :=
  if level ≤ Compression.Effort.maxLevel then .ok ⟨level.toUInt8⟩
  else .error (.invalidCompression level)

namespace Settings

/-- The settings after a source has set several of them in turn.  The first
    value that is wrong or in conflict ends it; what was set before stays
    set. -/
def setAll (p : Priority) (s : Settings) :
    List (Except ConfigError Assignment) → Settings × Option ConfigError
  | [] => (s, none)
  | .error e :: _ => (s, some e)
  | .ok a :: rest =>
      match s.set p a with
      | .ok s => setAll p s rest
      | .error c => (s, some (.conflict c))

end Settings

end Handheld
