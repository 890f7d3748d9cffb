import Handheld.Build.Choices
import Handheld.Journal
import Handheld.Json.Database
import Std.Data.ExtTreeMap

/-! # Project files — choices for several outputs

    A project file is a JSON object.  Its members are choices for every
    output; the member `targets` holds further choices for the output of a
    name.  A null leaves a setting alone, and members of other names are
    ignored. -/

namespace Handheld

namespace Choices

/-- The members that are choices, in order. -/
def memberNames : List String :=
  ["name", "type", "creator", "version", "modification_number",
    "attributes", "kind", "stack_size", "heap_size", "emit_data",
    "main_code", "extra_code_sections", "compression", "force_relocations"]

/-- The kind of product that a value is: its name, or an object whose only
    member has this name and no value. -/
def product? (isNothing : Json → Bool) : Json → Option Product
  | .text (some name) => Product.ofText? name
  | .object [(some name, value)] =>
      if isNothing value then Product.ofText? name else none
  | _ => none

/-- The choices of the values of all members. -/
def ofValues? (isNothing : Json → Bool) : List Json → Option Choices
  | [name, type, creator, version, modificationNumber, attributes, product,
      stackSize, heapSize, emitData, mainCode, extraCode, compression,
      forceRelocations] => do
      let name ← name.optional? Json.text?
      let type ← type.optional? Tag.ofJson?
      let creator ← creator.optional? Tag.ofJson?
      let version ← version.optional? (Json.natural? 0xFFFF)
      let modificationNumber ←
        modificationNumber.optional? (Json.natural? 0xFFFFFFFF)
      let attributes ← attributes.optional? (Json.list? Json.text?)
      let product ← product.optional? (product? isNothing)
      let stackSize ← stackSize.optional? (Json.natural? 0xFFFFFFFF)
      let heapSize ← heapSize.optional? (Json.natural? 0xFFFFFFFF)
      let emitData ← emitData.optional? Json.boolean?
      let mainCode ← mainCode.optional? ResourceKey.ofJson?
      let extraCode ← extraCode.optional? (Json.list? Json.text?)
      let compression ← compression.optional? (Json.natural? 0xFF)
      let forceRelocations ← forceRelocations.optional? Json.boolean?
      return {
        name := name
        type := type
        creator := creator
        version := version.map Nat.toUInt16
        modificationNumber := modificationNumber.map Nat.toUInt32
        attributes := attributes
        product := product
        stackSize := stackSize.map Nat.toUInt32
        heapSize := heapSize.map Nat.toUInt32
        emitData := emitData
        mainCode := mainCode
        extraCode := extraCode
        compression := compression
        forceRelocations := forceRelocations }
  | _ => none

end Choices

/-- What a project file says. -/
structure Project where
  general : Choices
  /-- The further choices for outputs, by the names of their files. -/
  targets : Std.ExtTreeMap String Choices

namespace Project

/-- Whether a value is null. -/
def isNull : Json → Bool
  | .null => true
  | _ => false

/-- Whether a value is null or an object without members. -/
def isEmpty : Json → Bool
  | .null => true
  | .object [] => true
  | _ => false

/-- The choices for one output: an object, or an array of the leading
    members' values. -/
def target? (j : Json) : Option Choices :=
  (j.fields? Choices.memberNames).bind (Choices.ofValues? isNull)

/-- The choices for several outputs.  Of two for one output the later
    counts. -/
def targets? (targets : Std.ExtTreeMap String Choices) :
    List (Option String × Json) → Option (Std.ExtTreeMap String Choices)
  | [] => some targets
  | (some name, value) :: rest =>
      match target? value with
      | some choices => targets? (targets.insert name choices) rest
      | none => none
  | (none, _) :: _ => none

/-- The targets among the members of a project. -/
def memberTargets? (members : List (Option String × Json)) :
    Option (Std.ExtTreeMap String Choices) :=
  match members.find? fun m => m.1 = some "targets" with
  | none => some ∅
  | some (_, .object members) => targets? ∅ members
  | some _ => none

/-- How deep the members of a project are nested at most. -/
def depthLimit : Nat := 126

/-- Whether the members that are not targets are sound. -/
def membersSound (members : List (Option String × Json)) : Bool :=
  members.all fun (name, value) =>
    name = some "targets" || value.isSound depthLimit

/-- The project that a value is. -/
def ofJson? : Json → Option Project
  | .object members =>
      if Json.keysSound ("targets" :: Choices.memberNames) members
          ∧ membersSound members then do
        let values := Choices.memberNames.map (Json.member members)
        let general ← Choices.ofValues? isEmpty values
        let targets ← memberTargets? members
        return ⟨general, targets⟩
      else none
  | _ => none

/-- The project that a text writes. -/
def ofText (text : String) : Except ConfigError Project :=
  match (Json.read? text).bind ofJson? with
  | some project => .ok project
  | none => .error .badProject

/-- The names of the targets. -/
def targetNames (p : Project) : List String :=
  p.targets.keys

/-- The settings after the choices for every output and those for the
    output of a name. -/
def apply (p : Project) (s : Settings) (output : String) :
    Settings × Option ConfigError :=
  match s.choose .project p.general, p.targets[output]? with
  | (s, none), some choices => s.choose .target choices
  | result, _ => result

/-- What applying a project reports. -/
def applyEvents (p : Project) (s : Settings) (output : String) :
    List Event :=
  match s.choose .project p.general, p.targets[output]? with
  | (_, none), some _ =>
      [.debug s!"applying project settings for {output}"]
  | _, _ => []

/-- Applies a project, unless one of its choices is wrong or in
    conflict. -/
def tryApply (p : Project) (s : Settings) (output : String) :
    Run ConfigError Settings := do
  Run.tell (p.applyEvents s output)
  match p.apply s output with
  | (s, none) => return s
  | (_, some e) => throw e

end Project

end Handheld
