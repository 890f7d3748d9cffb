import Handheld.Build.Error

/-! # Choices — what one source asks for

    A source leaves most settings alone.  Its choices become assignments in
    the order of the settings; the names of attributes and the level of
    compression are checked only when it is their turn, so what was set
    before them stays set. -/

namespace Handheld

/-- The values that one source chooses.  Attributes are chosen by their
    names, compression by its level. -/
structure Choices where
  name : Option String
  type : Option Tag
  creator : Option Tag
  version : Option UInt16
  modificationNumber : Option UInt32
  attributes : Option (List String)
  product : Option Product
  stackSize : Option UInt32
  heapSize : Option UInt32
  emitData : Option Bool
  mainCode : Option ResourceKey
  extraCode : Option (List String)
  compression : Option Nat
  forceRelocations : Option Bool
deriving DecidableEq

namespace Choices

/-- The choices of a source that leaves everything alone. -/
def nothing : Choices where
  name := none
  type := none
  creator := none
  version := none
  modificationNumber := none
  attributes := none
  product := none
  stackSize := none
  heapSize := none
  emitData := none
  mainCode := none
  extraCode := none
  compression := none
  forceRelocations := none

/-- The value that is chosen for a setting, or why it is not one. -/
def valueFor (c : Choices) : (f : Field) → Option (Except ConfigError f.Value)
  | .name => c.name.map fun text => .ok (some (Name.ofText text))
  | .type => c.type.map fun tag => .ok (some tag)
  | .creator => c.creator.map .ok
  | .version => c.version.map .ok
  | .modificationNumber => c.modificationNumber.map .ok
  | .attributes => c.attributes.map (Attributes.ofSettingNames Attributes.none)
  | .product => c.product.map .ok
  | .stackSize => c.stackSize.map .ok
  | .heapSize => c.heapSize.map .ok
  | .emitData => c.emitData.map fun emit => .ok (some emit)
  | .mainCode => c.mainCode.map fun key => .ok (some key)
  | .extraCode => c.extraCode.map .ok
  | .compression => c.compression.map Compression.Effort.ofLevel
  | .forceRelocations => c.forceRelocations.map .ok

/-- The assignment that is chosen for a setting. -/
def assignment (c : Choices) (f : Field) :
    Option (Except ConfigError Assignment) :=
  (c.valueFor f).map fun value => value.map (Assignment.mk f)

/-- The assignments that are chosen, in the order of the settings. -/
def assignments (c : Choices) : List (Except ConfigError Assignment) :=
  Field.all.filterMap c.assignment

end Choices

namespace Settings

/-- The settings after the choices of a source. -/
def choose (s : Settings) (p : Priority) (c : Choices) :
    Settings × Option ConfigError :=
  setAll p s c.assignments

/-- The settings after the choices of a source, unless one of them is wrong
    or in conflict. -/
def tryChoose (s : Settings) (p : Priority) (c : Choices) :
    Except ConfigError Settings :=
  match s.choose p c with
  | (s, none) => .ok s
  | (_, some e) => .error e

end Settings

end Handheld
