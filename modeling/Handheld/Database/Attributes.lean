import Handheld.Text.Flags

/-! # Attributes — the flags of databases and of records -/

namespace Handheld

/-- The sixteen flag bits of a database. -/
structure Attributes where
  bits : UInt16
deriving DecidableEq

namespace Attributes

/-- No flags. -/
def none : Attributes := ⟨0⟩

/-- The names of the flags. -/
def table : Flags.Table := [
  ("RESOURCE", 0x0001), ("READ_ONLY", 0x0002), ("APP_INFO_DIRTY", 0x0004),
  ("BACKUP", 0x0008), ("OK_TO_INSTALL_NEWER", 0x0010),
  ("RESET_AFTER_INSTALL", 0x0020), ("COPY_PREVENTION", 0x0040),
  ("STREAM", 0x0080), ("HIDDEN", 0x0100), ("LAUNCHABLE_DATA", 0x0200),
  ("RECYCLABLE", 0x0400), ("BUNDLE", 0x0800), ("OPEN", 0x8000)]

/-- Whether the flag of databases that hold resources is set. -/
def isResource (a : Attributes) : Bool :=
  a.bits &&& 1 = 1

/-- The flags with the resource flag set or cleared. -/
def withResource (a : Attributes) (resource : Bool) : Attributes :=
  if resource then ⟨a.bits ||| 1⟩ else ⟨a.bits &&& 0xFFFE⟩

/-- The flags of both. -/
def union (a b : Attributes) : Attributes :=
  ⟨a.bits ||| b.bits⟩

/-- The flags as they are written. -/
def text (a : Attributes) : String :=
  Flags.text table a.bits.toNat

/-- The flags that a text writes. -/
def ofText? (text : String) : Option Attributes :=
  (Flags.parse? table 0xFFFF text).map fun bits => ⟨bits.toUInt16⟩

/-- The flags as they are described. -/
def describe (a : Attributes) : String :=
  "DatabaseAttributes(" ++ (if a.bits = 0 then "0x0" else a.text) ++ ")"

/-- The names by which flags are asked for.  The resource flag is not
    among them; it follows the kind of database. -/
def settingNames : List (String × UInt16) := [
  ("readonly", 0x0002), ("read-only", 0x0002), ("appinfo-dirty", 0x0004),
  ("backup", 0x0008), ("ok-to-install-newer", 0x0010),
  ("reset-after-install", 0x0020), ("copy-prevention", 0x0040),
  ("stream", 0x0080), ("hidden", 0x0100), ("launchable-data", 0x0200),
  ("recyclable", 0x0400), ("bundle", 0x0800)]

/-- A name as it is looked up: ASCII letters in lower case, hyphens for
    underscores. -/
def normalize (name : String) : String :=
  String.ofList (name.toList.map fun c => if c = '_' then '-' else c.toLower)

/-- The flag that is asked for by a name. -/
def ofSettingName? (name : String) : Option Attributes :=
  (settingNames.lookup (normalize name)).map Attributes.mk

end Attributes

/-- The flag bits of a record; stored are the upper four. -/
structure RecordAttributes where
  bits : UInt8
deriving DecidableEq

namespace RecordAttributes

/-- The names of the flags. -/
def table : Flags.Table := [
  ("DELETE", 0x80), ("DIRTY", 0x40), ("BUSY", 0x20), ("SECRET", 0x10)]

/-- The flags as they are written. -/
def text (a : RecordAttributes) : String :=
  Flags.text table a.bits.toNat

/-- The flags that a text writes. -/
def ofText? (text : String) : Option RecordAttributes :=
  (Flags.parse? table 0xFF text).map fun bits => ⟨bits.toUInt8⟩

/-- The flags as they are described. -/
def describe (a : RecordAttributes) : String :=
  "RecordAttributes(" ++ (if a.bits = 0 then "0x0" else a.text) ++ ")"

end RecordAttributes

end Handheld
