import Handheld.Database.Operation
import Handheld.Proofs.Database.Collection
import Handheld.Proofs.Database.Conservation
import Handheld.Proofs.Database.Order
import Handheld.Proofs.Database.Writing
import Mathlib.Data.Finmap

/-! # Operations — a database is a finite map in the order of its keys

    What the entries of a database are does not depend on how it came by
    them.  Without their order they are a finite map, and operations on the
    one are operations on the other:

    • `contents` are the entries as a finite map, and `contents_apply` says
      what each operation does to it and how it is answered;
    • `Operation.run_map` goes from one operation to any sequence of them;
    • `Database.eq_of_contents`: there is nothing to a database but its
      contents and what is beside them (`SameFrame`);
    • `run_refines` puts this together. -/

namespace Handheld

variable {k : Kind}

/-- A finite map from keys to entries, in no order. -/
abbrev Contents (k : Kind) : Type :=
  Finmap fun _ : k.Key => k.Value

/-! ## Operations on finite maps -/

namespace Contents

/-- The answer to one operation, and the finite map that it leaves. -/
def apply (m : Contents k) : Operation k → Answer k × Contents k
  | .get key => (.entry (m.lookup key), m)
  | .contains key => (.flag (key ∈ m), m)
  | .size => (.count m.keys.card, m)
  | .insert key value => (.entry (m.lookup key), m.insert key value)
  | .insertNew key value =>
      if key ∈ m then (.flag false, m) else (.flag true, m.insert key value)
  | .erase key => (.entry (m.lookup key), m.erase key)

/-- The answers to several operations, and the finite map that they
    leave. -/
def run (m : Contents k) : List (Operation k) → List (Answer k) × Contents k :=
  Operation.run apply m

end Contents

/-- States that answer alike, and stay alike, after one operation do so after
    any sequence of them. -/
theorem Operation.run_map {σ τ : Type} {f : σ → τ}
    {applyS : σ → Operation k → Answer k × σ}
    {applyT : τ → Operation k → Answer k × τ}
    (h : ∀ state operation, applyT (f state) operation
      = ((applyS state operation).1, f (applyS state operation).2))
    (operations : List (Operation k)) (state : σ) :
    run applyT (f state) operations
      = ((run applyS state operations).1,
        f (run applyS state operations).2) := by
  induction operations generalizing state with
  | nil => rfl
  | cons operation rest ih =>
      have rest := ih (applyS state operation).2
      rw [run, run, h]
      dsimp only
      rw [rest]

namespace Database

variable {d e : Database k}

/-! ## Contents -/

/-- The entries of a database, in no order. -/
def contents (d : Database k) : Contents k :=
  (d.toList.map fun e => Sigma.mk e.1 e.2).toFinmap

theorem lookup_contents (d : Database k) (key : k.Key) :
    d.contents.lookup key = d.get? key := by
  have nodup : (d.toList.map fun e => Sigma.mk e.1 e.2 :
      List (Sigma fun _ : k.Key => k.Value)).NodupKeys := by
    rw [List.NodupKeys, List.keys, List.map_map]
    exact Entries.nodup_keys_toList d.entries
  rw [contents, Finmap.dlookup_list_toFinmap]
  refine Option.ext fun value => ?_
  rw [← mem_toList_iff, ← Option.mem_def, List.mem_dlookup_iff nodup]
  constructor
  · intro member
    obtain ⟨e, listed, same⟩ := List.mem_map.mp member
    cases same
    exact listed
  · intro listed
    exact List.mem_map_of_mem listed

theorem mem_contents_iff (d : Database k) (key : k.Key) :
    key ∈ d.contents ↔ d.contains key = true := by
  rw [← Finmap.lookup_isSome, lookup_contents, contains_eq]

/-- A finite map is the contents of a database if both give the same
    answers. -/
theorem contents_eq_iff {m : Contents k} :
    d.contents = m ↔ ∀ key, d.get? key = m.lookup key := by
  constructor
  · rintro rfl key
    exact (d.lookup_contents key).symm
  · intro same
    exact Finmap.ext_lookup fun key => (d.lookup_contents key).trans (same key)

theorem card_keys_contents (d : Database k) :
    d.contents.keys.card = d.size := by
  have keys : d.contents.keys = d.keys.toFinset := by
    ext key
    rw [Finmap.mem_keys, mem_contents_iff, List.mem_toFinset, mem_keys_iff]
  have nodup : d.keys.Nodup := Entries.nodup_keys_toList d.entries
  rw [keys, List.toFinset_card_of_nodup nodup, Database.keys,
    List.length_map, length_toList]

/-! ## One operation -/

theorem contents_insert (d : Database k) (key : k.Key) (value : k.Value) :
    (d.insert key value).contents = d.contents.insert key value := by
  refine contents_eq_iff.mpr fun other => ?_
  by_cases same : key = other
  · rw [← same, get?_insert_self, Finmap.lookup_insert]
  · rw [get?_insert_ne d value same, Finmap.lookup_insert_of_ne _ (Ne.symm same),
      lookup_contents]

theorem get?_erase_self (d : Database k) (key : k.Key) :
    (d.erase key).get? key = none :=
  Std.ExtTreeMap.getElem?_erase_self

theorem get?_erase_ne (d : Database k) {key other : k.Key}
    (ne : key ≠ other) : (d.erase key).get? other = d.get? other := by
  have differ : ¬ k.order key other = .eq := fun same =>
    ne (Std.LawfulEqCmp.eq_of_compare same)
  show (d.entries.erase key)[other]? = d.entries[other]?
  rw [Std.ExtTreeMap.getElem?_erase, if_neg differ]

theorem contents_erase (d : Database k) (key : k.Key) :
    (d.erase key).contents = d.contents.erase key := by
  refine contents_eq_iff.mpr fun other => ?_
  by_cases same : key = other
  · rw [← same, get?_erase_self, Finmap.lookup_erase]
  · rw [get?_erase_ne d same, Finmap.lookup_erase_ne (Ne.symm same),
      lookup_contents]

/-- Every operation is answered as by the contents, and changes them only as
    it changes a finite map. -/
theorem contents_apply (d : Database k) (operation : Operation k) :
    d.contents.apply operation
      = ((d.apply operation).1, (d.apply operation).2.contents) := by
  cases operation with
  | get key =>
      show (Answer.entry (d.contents.lookup key), d.contents) = _
      rw [lookup_contents]
      rfl
  | contains key =>
      have same : decide (key ∈ d.contents) = d.contains key := by
        rw [Bool.eq_iff_iff, decide_eq_true_eq, mem_contents_iff]
      show (Answer.flag (decide (key ∈ d.contents)), d.contents) = _
      rw [same]
      rfl
  | size =>
      show (Answer.count d.contents.keys.card, d.contents) = _
      rw [card_keys_contents]
      rfl
  | insert key value =>
      show (Answer.entry (d.contents.lookup key), _) = _
      rw [lookup_contents, ← contents_insert]
      rfl
  | insertNew key value =>
      -- both sides look first whether the key is there
      show (if key ∈ d.contents then _ else _)
        = (Answer.flag (!d.contains key), (d.insertNew key value).contents)
      rw [insertNew]
      by_cases present : d.contains key = true
      · rw [if_pos ((d.mem_contents_iff key).mpr present), if_pos present,
          present]
        rfl
      · rw [if_neg fun listed => present ((d.mem_contents_iff key).mp listed),
          if_neg present, Bool.eq_false_of_not_eq_true present,
          contents_insert]
        rfl
  | erase key =>
      show (Answer.entry (d.contents.lookup key), _) = _
      rw [lookup_contents, ← contents_erase]
      rfl

/-! ## What is beside the entries -/

/-- What is beside the entries is the same. -/
structure SameFrame (d e : Database k) : Prop where
  header : d.header = e.header
  appInfo : d.appInfo = e.appInfo
  sortInfo : d.sortInfo = e.sortInfo
  gap : d.gap = e.gap

theorem SameFrame.refl (d : Database k) : SameFrame d d :=
  ⟨rfl, rfl, rfl, rfl⟩

theorem SameFrame.trans {f : Database k} (h : SameFrame d e)
    (h' : SameFrame e f) : SameFrame d f :=
  ⟨h.header.trans h'.header, h.appInfo.trans h'.appInfo,
    h.sortInfo.trans h'.sortInfo, h.gap.trans h'.gap⟩

theorem sameFrame_withEntries (d : Database k) (entries : Entries k) :
    SameFrame (d.withEntries entries) d :=
  ⟨rfl, rfl, rfl, rfl⟩

/-- No operation changes it. -/
theorem sameFrame_apply (d : Database k) (operation : Operation k) :
    SameFrame (d.apply operation).2 d := by
  cases operation with
  | get key => exact .refl d
  | contains key => exact .refl d
  | size => exact .refl d
  | insert key value => exact d.sameFrame_withEntries _
  | insertNew key value =>
      show SameFrame (d.insertNew key value) d
      rw [insertNew]
      split
      case isTrue => exact .refl d
      case isFalse => exact d.sameFrame_withEntries _
  | erase key => exact d.sameFrame_withEntries _

/-! ## Any sequence of operations -/

theorem contents_run (d : Database k) (operations : List (Operation k)) :
    d.contents.run operations
      = ((d.run operations).1, (d.run operations).2.contents) :=
  Operation.run_map contents_apply operations d

theorem sameFrame_run (d : Database k) (operations : List (Operation k)) :
    SameFrame (d.run operations).2 d := by
  induction operations generalizing d with
  | nil => exact .refl d
  | cons operation rest ih =>
      exact (ih (d.apply operation).2).trans (d.sameFrame_apply operation)

/-- A database is known by its contents and what is beside them. -/
theorem eq_of_contents (frame : SameFrame d e)
    (same : d.contents = e.contents) : d = e := by
  have entries : d.entries = e.entries := entries_ext fun key =>
    (contents_eq_iff.mp same key).trans (e.lookup_contents key)
  obtain ⟨header, appInfo, sortInfo, gap⟩ := frame
  cases d
  cases e
  cases header
  cases appInfo
  cases sortInfo
  cases gap
  cases entries
  rfl

/-! ## What operations start from -/

theorem contents_new (k : Kind) (header : Header) :
    (new k header).contents = ∅ := by
  refine contents_eq_iff.mpr fun key => ?_
  rw [get?_new, Finmap.lookup_empty]

/-- The contents of an image that is read have the keys of its directory. -/
theorem mem_contents_of_parse {image : Bytes}
    (h : Image.parse k image = .ok d) (key : k.Key) :
    key ∈ d.contents ↔ key ∈ (Image.directory k image).map Slot.key := by
  obtain ⟨first, lengths, reads⟩ := Image.parse_eq_ok_iff.mp h
  rw [mem_contents_iff, contains_eq, reads.get?_isSome_iff]

/-! ## Lists of entries -/

/-- The entries of a database are listed once each, in the order of the bytes
    of their keys, and so is the directory that is written. -/
structure IsListed (d : Database k) : Prop where
  ascending : d.keys.Pairwise fun a b => k.keyBytes a < k.keyBytes b
  mem_iff : ∀ key value,
    (key, value) ∈ d.toList ↔ d.contents.lookup key = some value
  directory : ∀ image, d.serialize = .ok image →
    (Image.directory k image).map Slot.key = d.keys

theorem isListed (d : Database k) : IsListed d := by
  refine ⟨d.pairwise_keys, fun key value => ?_, fun image written => ?_⟩
  · rw [lookup_contents, mem_toList_iff]
  · obtain ⟨fits, rfl⟩ := serialize_eq_ok_iff.mp written
    rw [← map_key_slotImages fits, ← map_decode_slotImages fits, List.map_map]
    rfl

/-- **A database is a finite map in the order of its keys.**  It begins
    without entries, or with those of an image that is read.  Any sequence of
    operations is then answered as by a finite map, leaves the entries that
    the finite map is left with, in the order of the bytes of their keys, and
    leaves everything else alone.  For resources this is the order of types
    and then of numbers, for records that of numbers.  Sequences that come to
    the same entries are written alike, if what is beside the entries is the
    same. -/
theorem run_refines :
    (∀ (k : Kind) (header : Header), (new k header).contents = ∅)
      ∧ (∀ (k : Kind) (image : Bytes) (d : Database k),
        Image.parse k image = .ok d →
          ∀ key, key ∈ d.contents
            ↔ key ∈ (Image.directory k image).map Slot.key)
      ∧ (∀ (k : Kind) (d : Database k) (operations : List (Operation k)),
        d.contents.run operations
            = ((d.run operations).1, (d.run operations).2.contents)
          ∧ SameFrame (d.run operations).2 d
          ∧ IsListed (d.run operations).2)
      ∧ (∀ a b : ResourceKey,
        Kind.resource.keyBytes a < Kind.resource.keyBytes b
          ↔ a.type.bytes < b.type.bytes ∨ a.type = b.type ∧ a.id < b.id)
      ∧ (∀ a b : RecordId,
        Kind.record.keyBytes a < Kind.record.keyBytes b ↔ a < b)
      ∧ ∀ (k : Kind) (d e : Database k) (first second : List (Operation k)),
        (d.contents.run first).2 = (e.contents.run second).2 →
        SameFrame (d.run first).2 (e.run second).2 →
          (d.run first).2.serialize = (e.run second).2.serialize := by
  refine ⟨contents_new, fun k image d parsed => mem_contents_of_parse parsed,
    fun k d operations => ?_, fun a b => Kind.keyBytes_resource_lt_iff,
    fun a b => Kind.keyBytes_record_lt_iff,
    fun k d e first second same frame => ?_⟩
  · exact ⟨d.contents_run operations, d.sameFrame_run operations, isListed _⟩
  · rw [contents_run, contents_run] at same
    exact congrArg serialize (eq_of_contents frame same)

/-- Of two resources one is removed and the other replaced, in either order,
    and after an attempt to add what is there. -/
theorem run_refines_unorderedImage :
    let one : ResourceKey := ⟨.ofChars 'c' 'o' 'd' 'e', 1⟩
    let two : ResourceKey := ⟨.ofChars 'c' 'o' 'd' 'e', 2⟩
    let d := Image.unorderedResources
    Image.parse .resource Image.unorderedImage = .ok d
      ∧ (∀ key, key ∈ d.contents ↔ key ∈ [two, one])
      ∧ (d.run [.insertNew one [9], .erase two, .insert one [9]]).2.serialize
        = (d.run [.insert one [9], .erase two]).2.serialize := by
  intro one two d
  have parsed : Image.parse .resource Image.unorderedImage = .ok d := by rfl
  have final : (d.run [.insertNew one [9], .erase two, .insert one [9]]).2
      = (d.run [.insert one [9], .erase two]).2 := by
    decide
  obtain ⟨-, listed, -, -, -, alike⟩ := run_refines
  refine ⟨parsed, fun key => ?_, alike .resource d d _ _ ?_ ?_⟩
  · exact listed .resource Image.unorderedImage d parsed key
  · rw [contents_run, contents_run, final]
  · rw [final]
    exact .refl _

end Database

end Handheld
