import Handheld.Database.Header
import Handheld.Database.Slot

/-! # Databases — a header, side blocks and entries

    A database is its header, two optional blocks beside the entries, the
    bytes of a gap that its image has after the directory, and the entries
    in the order of their keys. -/

namespace Handheld

/-- A database of one kind. -/
structure Database (k : Kind) where
  header : Header
  appInfo : Option Bytes
  sortInfo : Option Bytes
  gap : Bytes
  entries : Entries k
deriving DecidableEq

namespace Database

variable {k : Kind}

/-- The gap that an image traditionally has. -/
def conventionalGap : Bytes := [0x00, 0x00]

/-- A database without entries.  The resource flag follows the kind. -/
def new (k : Kind) (header : Header) : Database k where
  header := header.withResource k.isResource
  appInfo := none
  sortInfo := none
  gap := conventionalGap
  entries := ∅

/-- The database with other entries. -/
def withEntries (d : Database k) (entries : Entries k) : Database k where
  header := d.header
  appInfo := d.appInfo
  sortInfo := d.sortInfo
  gap := d.gap
  entries := entries

/-- The number of entries. -/
def size (d : Database k) : Nat :=
  d.entries.size

/-- Whether there are no entries. -/
def isEmpty (d : Database k) : Bool :=
  d.entries.isEmpty

/-- The entry of a key. -/
def get? (d : Database k) (key : k.Key) : Option k.Value :=
  d.entries[key]?

/-- Whether a key has an entry. -/
def contains (d : Database k) (key : k.Key) : Bool :=
  d.entries.contains key

/-- The database with an entry added or replaced. -/
def insert (d : Database k) (key : k.Key) (value : k.Value) : Database k :=
  d.withEntries (d.entries.insert key value)

/-- The database with an entry added, unless its key has one. -/
def insertNew (d : Database k) (key : k.Key) (value : k.Value) :
    Database k :=
  if d.contains key then d else d.insert key value

/-- The database without the entry of a key. -/
def erase (d : Database k) (key : k.Key) : Database k :=
  d.withEntries (d.entries.erase key)

/-- The entries, in the order of their keys. -/
def toList (d : Database k) : List (k.Key × k.Value) :=
  d.entries.toList

/-- The keys, in order. -/
def keys (d : Database k) : List k.Key :=
  d.toList.map (·.1)

/-- The database with several entries added or replaced. -/
def insertAll (d : Database k) (entries : List (k.Key × k.Value)) :
    Database k :=
  entries.foldl (fun d entry => d.insert entry.1 entry.2) d

end Database

/-- A database of either kind. -/
inductive AnyDatabase where
  | resource (database : Database .resource)
  | record (database : Database .record)

namespace AnyDatabase

/-- The header of the database. -/
def header : AnyDatabase → Header
  | .resource d => d.header
  | .record d => d.header

end AnyDatabase

end Handheld
