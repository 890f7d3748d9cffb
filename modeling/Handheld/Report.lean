import Handheld.Database.Basic
import Handheld.Json.Database
import Handheld.Json.Printing

/-! # Reports — databases described

    A database is described by its header, the sizes of its blocks, and a
    list of its entries, either as lines of text or as JSON. -/

namespace Handheld

namespace Kind

/-- What entries are called. -/
def plural : Kind → String
  | .resource => "resources"
  | .record => "records"

/-- The line of an entry. -/
def entryLine : (k : Kind) → k.Key × k.Value → String
  | .resource, (key, data) =>
      let id := Numeral.padRight 5 (toString (ResourceKey.id key).toNat)
      let size := Numeral.padLeft ' ' 8 (toString (List.length data))
      s!"  {Tag.text (ResourceKey.type key)} #{id} {size} bytes"
  | .record, (id, r) =>
      let number := "0x" ++ Numeral.upperHex 6 (BitVec.toNat id)
      let flags := (Record.attributes r).describe
      let category := (Record.category r).toNat
      let size := Numeral.padLeft ' ' 8
        (toString (Record.data r).length)
      s!"  {number} {flags} category {category} {size} bytes"

/-- The members of an entry. -/
def entryJson : (k : Kind) → k.Key × k.Value → Json
  | .resource, (key, data) =>
      .ofMembers (ResourceKey.members key
        ++ [("size", .ofNat (List.length data))])
  | .record, (id, r) =>
      .ofMembers [
        ("id", Narrow.toJson id),
        ("attributes", (Record.attributes r).toJson),
        ("category", Narrow.toJson (Record.category r)),
        ("size", .ofNat (Record.data r).length)]

end Kind

namespace Database

variable {k : Kind}

/-- A line of a header, with what it says in one column. -/
def labelled (label value : String) : String :=
  Numeral.padRight 21 (label ++ ":") ++ value

/-- The line of a block that may be absent. -/
def blockLine (label : String) : Option Bytes → List String
  | some block => [labelled label s!"{block.length} bytes"]
  | none => []

/-- The lines that describe a database. -/
def lines (d : Database k) : List String :=
  let h := d.header
  [ labelled "name" h.name.text,
    labelled "type" h.type.text,
    labelled "creator" h.creator.text,
    labelled "attributes" h.attributes.describe,
    labelled "version" s!"{h.version.toNat}",
    labelled "modification number" s!"{h.modificationNumber.toNat}",
    labelled "created" h.created.text,
    labelled "modified" h.modified.text,
    labelled "backed up" h.backedUp.text,
    labelled "unique id seed" s!"{h.uniqueIdSeed.toNat}"]
  ++ blockLine "AppInfo" d.appInfo
  ++ blockLine "SortInfo" d.sortInfo
  ++ blockLine "gap" (if d.gap = [] then none else some d.gap)
  ++ s!"{d.size} {k.plural}:" :: d.toList.map k.entryLine

/-- The description of a database as text. -/
def report (d : Database k) : String :=
  String.join (d.lines.map (· ++ "\n"))

/-- The size of a block that may be absent. -/
def blockSize (block : Option Bytes) : Json :=
  .ofOption (fun bytes => .ofNat bytes.length) block

/-- The description of a database as JSON.  Entries are left out if there
    are none. -/
def toJson (d : Database k) : Json :=
  let entries := d.toList.map k.entryJson
  .ofMembers
    ([ ("header", d.header.toJson),
       ("app_info_size", blockSize d.appInfo),
       ("sort_info_size", blockSize d.sortInfo),
       ("gap_size", .ofNat d.gap.length)]
      ++ if entries.isEmpty then [] else [(k.plural, .array entries)])

/-- The description of a database as JSON text. -/
def jsonReport (d : Database k) : String :=
  d.toJson.print ++ "\n"

end Database

/-- The description of a database of either kind. -/
def AnyDatabase.report (json : Bool) : AnyDatabase → String
  | .resource d => if json then d.jsonReport else d.report
  | .record d => if json then d.jsonReport else d.report

end Handheld
