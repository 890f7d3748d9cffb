import Handheld.Database.Attributes
import Handheld.Database.Name
import Handheld.Packing.Options

/-! # Settings — what several sources may set

    There are fourteen settings.  Each remembers the rank of the source
    that set it last.  A source of the same or a higher rank replaces the
    value; one of a lower rank may only repeat it. -/

namespace Handheld

/-! ## The settings there are -/

/-- The name of a setting. -/
inductive Field where
  | name
  | type
  | creator
  | version
  | modificationNumber
  | attributes
  | product
  | stackSize
  | heapSize
  | emitData
  | mainCode
  | extraCode
  | compression
  | forceRelocations
deriving DecidableEq

namespace Field

/-- The settings in the order in which a source sets them. -/
def all : List Field :=
  [.name, .type, .creator, .version, .modificationNumber, .attributes,
    .product, .stackSize, .heapSize, .emitData, .mainCode, .extraCode,
    .compression, .forceRelocations]

theorem mem_all (f : Field) : f ∈ all := by
  cases f <;> decide

/-- What a setting is called in messages. -/
def text : Field → String
  | .name => "name"
  | .type => "type"
  | .creator => "creator"
  | .version => "version"
  | .modificationNumber => "modification number"
  | .attributes => "attributes"
  | .product => "database kind"
  | .stackSize => "stack size"
  | .heapSize => "heap size"
  | .emitData => "data emission"
  | .mainCode => "main code resource"
  | .extraCode => "extra code sections"
  | .compression => "compression"
  | .forceRelocations => "relocation forcing"

/-- The values of a setting.  `none` leaves it to the kind of product or to
    the name of the output. -/
abbrev Value : Field → Type
  | .name => Option Name
  | .type => Option Tag
  | .creator => Tag
  | .version => UInt16
  | .modificationNumber => UInt32
  | .attributes => Attributes
  | .product => Product
  | .stackSize => UInt32
  | .heapSize => UInt32
  | .emitData => Option Bool
  | .mainCode => Option ResourceKey
  | .extraCode => List String
  | .compression => Compression.Effort
  | .forceRelocations => Bool

instance : (f : Field) → DecidableEq f.Value
  | .name => inferInstanceAs (DecidableEq (Option Name))
  | .type => inferInstanceAs (DecidableEq (Option Tag))
  | .creator => inferInstanceAs (DecidableEq Tag)
  | .version => inferInstanceAs (DecidableEq UInt16)
  | .modificationNumber => inferInstanceAs (DecidableEq UInt32)
  | .attributes => inferInstanceAs (DecidableEq Attributes)
  | .product => inferInstanceAs (DecidableEq Product)
  | .stackSize => inferInstanceAs (DecidableEq UInt32)
  | .heapSize => inferInstanceAs (DecidableEq UInt32)
  | .emitData => inferInstanceAs (DecidableEq (Option Bool))
  | .mainCode => inferInstanceAs (DecidableEq (Option ResourceKey))
  | .extraCode => inferInstanceAs (DecidableEq (List String))
  | .compression => inferInstanceAs (DecidableEq Compression.Effort)
  | .forceRelocations => inferInstanceAs (DecidableEq Bool)

/-- The value of a setting that nothing has set. -/
def standard : (f : Field) → f.Value
  | .name => none
  | .type => none
  | .creator => unknownTag
  | .version => 1
  | .modificationNumber => 0
  | .attributes => Attributes.none
  | .product => Product.application
  | .stackSize => PackOptions.standardStackSize
  | .heapSize => PackOptions.standardHeapSize
  | .emitData => none
  | .mainCode => none
  | .extraCode => []
  | .compression => Compression.Effort.standard
  | .forceRelocations => false

end Field

/-! ## Sources -/

/-- A source of values. -/
inductive Priority where
  | builtIn
  | project
  | target
  | positional
  | commandLine
deriving DecidableEq

namespace Priority

/-- What a source is called in messages. -/
def text : Priority → String
  | .builtIn => "built-in default"
  | .project => "project file"
  | .target => "project file target section"
  | .positional => "positional arguments"
  | .commandLine => "command-line option"

/-- How much a source counts. -/
def rank : Priority → Nat
  | .builtIn => 0
  | .project => 1
  | .target => 2
  | .positional => 3
  | .commandLine => 4

end Priority

/-- A source of a lower rank that does not agree. -/
structure Conflict where
  field : Field
  incumbent : Priority
  attempted : Priority
deriving DecidableEq

/-- The wording of a conflict. -/
def Conflict.message (c : Conflict) : String :=
  s!"{c.field.text} set by {c.attempted.text} conflicts with the value already set by {c.incumbent.text}"

/-! ## One setting -/

/-- The value of a setting, and the source that set it last, if any has. -/
structure Setting (α : Type) where
  value : α
  source : Option Priority
deriving DecidableEq

namespace Setting

variable {α : Type} [DecidableEq α]

/-- Whether a source of this rank is below the one that set the value. -/
def outranks (s : Setting α) (p : Priority) : Bool :=
  match s.source with
  | some incumbent => p.rank < incumbent.rank
  | none => false

/-- The setting after a source has set it to a value; `none` if that is a
    conflict. -/
def trySet (s : Setting α) (value : α) (p : Priority) : Option (Setting α) :=
  if s.outranks p then (if value = s.value then some s else none)
  else some ⟨value, some p⟩

theorem trySet_of_outranks {s : Setting α} {p : Priority} (value : α)
    (h : s.outranks p) :
    s.trySet value p = if value = s.value then some s else none := by
  rw [trySet, if_pos h]

theorem trySet_of_not_outranks {s : Setting α} {p : Priority} (value : α)
    (h : ¬ s.outranks p) : s.trySet value p = some ⟨value, some p⟩ := by
  rw [trySet, if_neg h]

end Setting

/-! ## All settings -/

/-- The settings of a build. -/
structure Settings where
  setting : (f : Field) → Setting f.Value

namespace Settings

/-- The settings before anything is set. -/
def initial : Settings := ⟨fun f => ⟨f.standard, none⟩⟩

/-- The value of a setting. -/
def value (s : Settings) (f : Field) : f.Value :=
  (s.setting f).value

/-- The settings with one of them replaced. -/
def replace (s : Settings) (f : Field) (new : Setting f.Value) : Settings :=
  ⟨fun g => if h : f = g then h ▸ new else s.setting g⟩

theorem setting_replace_self (s : Settings) (f : Field)
    (new : Setting f.Value) : (s.replace f new).setting f = new := by
  simp [replace]

theorem setting_replace_ne (s : Settings) {f g : Field} (h : f ≠ g)
    (new : Setting f.Value) : (s.replace f new).setting g = s.setting g := by
  simp [replace, h]

end Settings

/-- A value for one of the settings. -/
structure Assignment where
  field : Field
  value : field.Value

namespace Settings

/-- The settings after a source has set one of them. -/
def set (s : Settings) (p : Priority) (a : Assignment) :
    Except Conflict Settings :=
  match (s.setting a.field).trySet a.value p with
  | some new => .ok (s.replace a.field new)
  | none =>
      .error ⟨a.field, ((s.setting a.field).source).getD .builtIn, p⟩

end Settings

end Handheld
