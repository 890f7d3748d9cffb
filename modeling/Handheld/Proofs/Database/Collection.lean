import Handheld.Database.Basic

/-! # Collections — what a database holds after entries are added

    The entries of a database are those that were added last under their
    keys:

    • `Entries.perm_toList_iff`: lists of entries with distinct keys are
      compared entry by entry;
    • `get?_insertAll_of_nodup` and `get?_insertAll_of_ne` find an entry
      among those that are added, or beside them;
    • `perm_insertAll`: entries of distinct keys, added to none, are all
      there is;
    • `entries_insertAll_toList`: the entries of a database, added to none,
      are its entries. -/

namespace Handheld

variable {k : Kind}

/-! ## Lists of entries -/

namespace Entries

theorem nodup_keys_toList (entries : Entries k) :
    (entries.toList.map Prod.fst).Nodup := by
  refine List.pairwise_map.mpr ?_
  refine Std.ExtTreeMap.distinct_keys_toList.imp fun differ same => ?_
  exact differ (same ▸ Std.ReflCmp.compare_self)

/-- Entries are those of a list without repeated keys if they have the same
    values under the same keys. -/
theorem perm_toList_iff {entries : Entries k} {list : List (k.Key × k.Value)}
    (nodup : (list.map Prod.fst).Nodup) :
    entries.toList.Perm list
      ↔ ∀ key value, entries[key]? = some value ↔ (key, value) ∈ list := by
  have ofKeys : ∀ {l : List (k.Key × k.Value)}, (l.map Prod.fst).Nodup →
      l.Nodup := fun nodup =>
    List.Pairwise.of_map Prod.fst (fun _ _ differ e => differ (congrArg _ e))
      nodup
  rw [List.perm_ext_iff_of_nodup (ofKeys (nodup_keys_toList entries))
    (ofKeys nodup)]
  simp [Prod.forall]

end Entries

namespace Database

variable {d : Database k}

theorem contains_eq (d : Database k) (key : k.Key) :
    d.contains key = (d.get? key).isSome :=
  Std.ExtTreeMap.contains_eq_isSome_getElem?

theorem mem_toList_iff {d : Database k} {key : k.Key} {value : k.Value} :
    (key, value) ∈ d.toList ↔ d.get? key = some value :=
  Std.ExtTreeMap.mem_toList_iff_getElem?_eq_some

/-- Databases that give the same answers have the same entries. -/
theorem entries_ext {d d' : Database k} (h : ∀ key, d.get? key = d'.get? key) :
    d.entries = d'.entries :=
  Std.ExtTreeMap.ext_getElem? h

/-! ## Entries that are added -/

theorem get?_new (k : Kind) (header : Header) (key : k.Key) :
    (new k header).get? key = none :=
  Std.ExtTreeMap.getElem?_empty

theorem get?_insert_self (d : Database k) (key : k.Key) (value : k.Value) :
    (d.insert key value).get? key = some value :=
  Std.ExtTreeMap.getElem?_insert_self

theorem get?_insert_ne (d : Database k) {key other : k.Key} (value : k.Value)
    (ne : key ≠ other) : (d.insert key value).get? other = d.get? other := by
  have differ : ¬ k.order key other = .eq := fun same =>
    ne (Std.LawfulEqCmp.eq_of_compare same)
  show (d.entries.insert key value)[other]? = d.entries[other]?
  rw [Std.ExtTreeMap.getElem?_insert, if_neg differ]

theorem insertAll_append (d : Database k)
    (entries others : List (k.Key × k.Value)) :
    d.insertAll (entries ++ others) = (d.insertAll entries).insertAll others :=
  List.foldl_append

theorem get?_insertAll_concat (d : Database k)
    (entries : List (k.Key × k.Value)) (key : k.Key) (value : k.Value) :
    (d.insertAll (entries ++ [(key, value)])).get? key = some value := by
  rw [insertAll_append]
  exact get?_insert_self _ key value

/-- Entries of other keys do not change the entry of a key. -/
theorem get?_insertAll_of_ne {entries : List (k.Key × k.Value)} {key : k.Key}
    (h : ∀ e ∈ entries, e.1 ≠ key) : (d.insertAll entries).get? key = d.get? key := by
  induction entries generalizing d with
  | nil => rfl
  | cons e entries ih =>
      obtain ⟨ne, rest⟩ := List.forall_mem_cons.mp h
      show ((d.insert e.1 e.2).insertAll entries).get? key = d.get? key
      rw [ih rest, get?_insert_ne d e.2 ne]

/-- Entries of distinct keys are all found. -/
theorem get?_insertAll_of_nodup (d : Database k)
    {entries : List (k.Key × k.Value)} (h : (entries.map Prod.fst).Nodup)
    {e : k.Key × k.Value} (he : e ∈ entries) :
    (d.insertAll entries).get? e.1 = some e.2 := by
  obtain ⟨before, after, rfl⟩ := List.append_of_mem he
  rw [List.map_append, List.map_cons] at h
  obtain ⟨new, -⟩ := List.nodup_cons.mp (List.nodup_append.mp h).2.1
  rw [insertAll_append]
  show (((d.insertAll before).insert e.1 e.2).insertAll after).get? e.1
    = some e.2
  rw [get?_insertAll_of_ne, get?_insert_self]
  intro other ho same
  exact new (same ▸ List.mem_map_of_mem ho)

/-- Entries of distinct keys, added to none, are all there is. -/
theorem perm_insertAll (header : Header) {entries : List (k.Key × k.Value)}
    (h : (entries.map Prod.fst).Nodup) :
    ((new k header).insertAll entries).toList.Perm entries := by
  refine (Entries.perm_toList_iff h).mpr fun key value => ?_
  show ((new k header).insertAll entries).get? key = some value ↔ _
  constructor
  · intro found
    by_cases listed : key ∈ entries.map Prod.fst
    · obtain ⟨e, he, rfl⟩ := List.mem_map.mp listed
      obtain rfl := Option.some.inj
        ((get?_insertAll_of_nodup (new k header) h he).symm.trans found)
      exact he
    · have others : ∀ e ∈ entries, e.1 ≠ key := fun e he same =>
        listed (List.mem_map.mpr ⟨e, he, same⟩)
      rw [get?_insertAll_of_ne others, get?_new] at found
      cases found
  · exact get?_insertAll_of_nodup (new k header) h

/-- Adding entries changes the entries only. -/
theorem insertAll_eq_withEntries (d : Database k)
    (entries : List (k.Key × k.Value)) :
    d.insertAll entries = d.withEntries (d.insertAll entries).entries := by
  induction entries generalizing d with
  | nil => rfl
  | cons e entries ih =>
      show (d.insert e.1 e.2).insertAll entries = _
      rw [ih]
      rfl

/-- The entries of a database, added to none, are its entries. -/
theorem entries_insertAll_toList (header : Header) (d : Database k) :
    ((new k header).insertAll d.toList).entries = d.entries := by
  refine entries_ext fun key => ?_
  cases found : d.get? key with
  | some value =>
      exact get?_insertAll_of_nodup _ (Entries.nodup_keys_toList d.entries)
        (mem_toList_iff.mpr found)
  | none =>
      rw [get?_insertAll_of_ne, get?_new]
      rintro ⟨_, value⟩ listed rfl
      cases found.symm.trans (mem_toList_iff.mp listed)

end Database

end Handheld
