import Handheld.Database.Image
import Handheld.Database.Layout
import Handheld.Proofs.Database.Collection
import Handheld.Proofs.Database.Slot

/-! # Directories — data that are measured, dealt out and put in order

    A directory gives the start of each entry's data and leaves its end to
    the next one.  What `Image.measure`, `Image.deal` and `Image.index` do
    from the back or with lists of what is done already is said here from
    the front:

    • `measure_eq_ok_iff`: measuring succeeds with a first position and
      lengths exactly if blocks of these lengths start where the slots say
      and end with the image;
    • `deal_eq`: the data are fields of the measured widths;
    • `index_eq_ok_iff`: what is indexed has distinct keys, and is found
      again as it is. -/

namespace Handheld

variable {k : Kind}

/-! ## Blocks one after another -/

namespace Database

theorem length_startsFrom (position : Nat) (lengths : List Nat) :
    (startsFrom position lengths).length = lengths.length := by
  induction lengths generalizing position with
  | nil => rfl
  | cons length lengths ih =>
      rw [startsFrom, List.length_cons, ih, List.length_cons]

theorem startsFrom_append (position : Nat) (a b : List Nat) :
    startsFrom position (a ++ b)
      = startsFrom position a ++ startsFrom (position + a.sum) b := by
  induction a generalizing position with
  | nil => rfl
  | cons length a ih =>
      rw [List.cons_append, startsFrom, ih, startsFrom, List.cons_append,
        List.sum_cons, Nat.add_assoc]

/-- A block does not start after the end of the last one. -/
theorem le_of_mem_startsFrom {position start : Nat} {lengths : List Nat}
    (h : start ∈ startsFrom position lengths) :
    start ≤ position + lengths.sum := by
  induction lengths generalizing position with
  | nil => cases h
  | cons length lengths ih =>
      rw [List.sum_cons]
      rcases List.mem_cons.mp h with rfl | later
      · omega
      · have before := ih later
        omega

end Database

namespace Image

/-! ## Measuring -/

/-- The blocks that slots and lengths speak of: they follow each other from
    `first` on and end at `upper`. -/
structure IsMeasured (lower upper first : Nat) (measured : List (Slot k × Nat)) :
    Prop where
  lower_le : lower ≤ first
  starts : measured.map (fun m => m.1.offset.toNat)
    = Database.startsFrom first (measured.map Prod.snd)
  ends : first + (measured.map Prod.snd).sum = upper

/-- A last block may be added that starts where the others end. -/
theorem isMeasured_concat_iff {lower upper first length : Nat}
    {measured : List (Slot k × Nat)} {slot : Slot k} :
    IsMeasured lower upper first (measured ++ [(slot, length)])
      ↔ IsMeasured lower slot.offset.toNat first measured
        ∧ slot.offset.toNat + length = upper := by
  constructor
  · intro h
    have starts := h.starts
    have ends := h.ends
    rw [List.map_append, List.map_append, Database.startsFrom_append] at starts
    rw [List.map_append, List.sum_append] at ends
    obtain ⟨before, last⟩ := List.append_inj starts (by
      rw [Database.length_startsFrom, List.length_map, List.length_map])
    have start : slot.offset.toNat = first + (measured.map Prod.snd).sum :=
      (List.cons.inj last).1
    have total : first + ((measured.map Prod.snd).sum + length) = upper := by
      simpa using ends
    exact ⟨⟨h.lower_le, before, start.symm⟩, by omega⟩
  · rintro ⟨h, rfl⟩
    refine ⟨h.lower_le, ?_, ?_⟩
    · rw [List.map_append, List.map_append, Database.startsFrom_append,
        h.starts, h.ends]
      rfl
    · rw [List.map_append, List.sum_append, ← Nat.add_assoc, h.ends]
      simp

/-- Measuring finds the blocks of all slots, and fails only if there are no
    such blocks. -/
theorem measure_eq_ok_iff {lower upper first : Nat}
    {measured result : List (Slot k × Nat)} {back : List (Slot k)}
    (h : lower ≤ upper) :
    measure lower upper measured back = .ok (first, result)
      ↔ ∃ new, result = new ++ measured ∧ new.map Prod.fst = back.reverse
        ∧ IsMeasured lower upper first new := by
  induction back generalizing upper measured with
  | nil =>
      rw [measure]
      constructor
      · intro e
        cases e
        exact ⟨[], rfl, rfl, h, rfl, rfl⟩
      · rintro ⟨new, rfl, slots, blocks⟩
        obtain rfl : new = [] := List.map_eq_nil_iff.mp slots
        have ends : first = upper := blocks.ends
        rw [ends]
        rfl
  | cons slot earlier ih =>
      -- the next slot from the back is the last one of those that are left
      rw [measure]
      constructor
      · intro e
        split at e
        case isFalse => cases e
        case isTrue inside =>
          obtain ⟨new, rfl, slots, blocks⟩ := (ih inside.1).mp e
          refine ⟨new ++ [(slot, upper - slot.offset.toNat)], ?_, ?_, ?_⟩
          · rw [List.append_assoc]
            rfl
          · rw [List.map_append, slots, List.reverse_cons]
            rfl
          · exact isMeasured_concat_iff.mpr
              ⟨blocks, Nat.add_sub_cancel' inside.2⟩
      · rintro ⟨new, rfl, slots, blocks⟩
        rw [List.reverse_cons] at slots
        obtain ⟨front, last, rfl, frontSlots, lastSlot⟩ :=
          List.map_eq_append_iff.mp slots
        obtain ⟨⟨s, length⟩, rfl, rfl⟩ := List.map_eq_singleton_iff.mp lastSlot
        obtain ⟨before, rfl⟩ := isMeasured_concat_iff.mp blocks
        -- the block starts where those before it end, and they do not
        -- start before the lower bound
        have start : lower ≤ s.offset.toNat :=
          before.ends ▸ Nat.le_add_right_of_le before.lower_le
        rw [if_pos ⟨start, Nat.le_add_right _ _⟩]
        refine (ih start).mpr ⟨front, ?_, frontSlots, before⟩
        rw [Nat.add_sub_cancel_left, List.append_assoc]
        rfl

/-! ## Dealing out -/

/-- The entries of slots whose data are given. -/
def entriesOf (slots : List (Slot k)) (data : List Bytes) :
    List (k.Key × k.Value) :=
  List.zipWith (fun slot bytes => (slot.key, k.withData slot.stub bytes))
    slots data

/-- The data of the entries are fields of the lengths that were measured. -/
theorem deal_eq (dealt : List (k.Key × k.Value)) (data : Bytes)
    (measured : List (Slot k × Nat)) :
    deal dealt data measured
      = dealt.reverse ++ entriesOf (measured.map Prod.fst)
          (Bytes.fields (measured.map Prod.snd) data) := by
  induction measured generalizing dealt data with
  | nil => simp [deal, entriesOf]
  | cons m measured ih =>
      obtain ⟨slot, length⟩ := m
      rw [deal, ih, List.reverse_cons, List.append_assoc]
      rfl

/-- The keys of the entries are those of the slots. -/
theorem keys_entriesOf {slots : List (Slot k)} {data : List Bytes}
    (h : slots.length = data.length) :
    (entriesOf slots data).map Prod.fst = slots.map Slot.key := by
  rw [entriesOf, List.map_zipWith]
  induction slots generalizing data with
  | nil => rfl
  | cons slot slots ih =>
      obtain _ | ⟨bytes, data⟩ := data
      · cases h
      · exact congrArg (slot.key :: ·) (ih (Nat.succ.inj h))

/-- The data of the entries are those that are given. -/
theorem data_entriesOf {slots : List (Slot k)} {data : List Bytes}
    (h : slots.length = data.length) :
    (entriesOf slots data).map (fun e => k.data e.2) = data := by
  rw [entriesOf, List.map_zipWith]
  induction slots generalizing data with
  | nil =>
      exact (List.length_eq_zero_iff.mp h.symm).symm
  | cons slot slots ih =>
      obtain _ | ⟨bytes, data⟩ := data
      · cases h
      · rw [List.zipWith_cons_cons, Kind.data_withData,
          ih (Nat.succ.inj h)]

/-! ## Putting in order -/

private theorem not_contains_iff {entries : Entries k} {key : k.Key} :
    entries.contains key = false ↔ ∀ value, entries[key]? ≠ some value := by
  rw [Std.ExtTreeMap.contains_eq_isSome_getElem?]
  cases entries[key]? with
  | none => simp
  | some value => simp

private theorem getElem?_insert_eq_some_iff {entries : Entries k}
    {key other : k.Key} {value found : k.Value}
    (new : entries.contains key = false) :
    (entries.insert key value)[other]? = some found
      ↔ entries[other]? = some found ∨ (other, found) = (key, value) := by
  rw [Std.ExtTreeMap.getElem?_insert]
  by_cases same : k.order key other = .eq
  · obtain rfl : key = other := Std.LawfulEqCmp.eq_of_compare same
    have absent := not_contains_iff.mp new found
    simp only [same, if_true, Option.some.injEq, Prod.mk.injEq, true_and,
      absent, false_or]
    exact eq_comm
  · have differ : ¬ other = key := fun e =>
      same (e ▸ Std.ReflCmp.compare_self)
    simp [same, differ]

/-- Keys are new after the insertion of a key if they were new before it and
    are not that one. -/
private theorem all_new_insert_iff {entries : Entries k} {key : k.Key}
    {value : k.Value} {list : List (k.Key × k.Value)} :
    (∀ e ∈ list, (entries.insert key value).contains e.1 = false)
      ↔ key ∉ list.map Prod.fst
        ∧ ∀ e ∈ list, entries.contains e.1 = false := by
  simp only [Std.ExtTreeMap.contains_insert, Bool.or_eq_false_iff,
    List.mem_map, not_exists, not_and]
  constructor
  · intro h
    refine ⟨fun e he same => ?_, fun e he => (h e he).2⟩
    have differ := (h e he).1
    have equal : k.order key key = .eq := Std.ReflCmp.compare_self
    rw [same, equal] at differ
    cases differ
  · rintro ⟨differ, h⟩ e he
    refine ⟨?_, h e he⟩
    have ne : k.order key e.1 ≠ .eq := fun same =>
      differ e he (Std.LawfulEqCmp.eq_of_compare same).symm
    simpa using ne

/-- What is added to entries has keys that are new and distinct, and is
    found afterwards besides what was there. -/
theorem index_eq_ok_iff_of {entries result : Entries k}
    {list : List (k.Key × k.Value)} :
    index entries list = .ok result
      ↔ (list.map Prod.fst).Nodup
        ∧ (∀ e ∈ list, entries.contains e.1 = false)
        ∧ ∀ key value, result[key]? = some value
          ↔ entries[key]? = some value ∨ (key, value) ∈ list := by
  induction list generalizing entries with
  | nil =>
      rw [index]
      constructor
      · intro e
        cases e
        simp
      · rintro ⟨-, -, found⟩
        refine congrArg _ (Std.ExtTreeMap.ext_getElem? fun key => ?_)
        exact Option.ext fun value => by simpa using (found key value).symm
  | cons e list ih =>
      obtain ⟨key, value⟩ := e
      rw [index]
      by_cases present : entries.contains key = true
      · rw [if_pos present]
        constructor
        · intro e
          cases e
        · rintro ⟨-, new, -⟩
          have absent := new (key, value) List.mem_cons_self
          rw [present] at absent
          cases absent
      · have new : entries.contains key = false := Bool.eq_false_iff.mpr present
        rw [if_neg present, ih, List.map_cons, List.nodup_cons]
        simp only [all_new_insert_iff, getElem?_insert_eq_some_iff new,
          List.mem_cons, forall_eq_or_imp, new, true_and, or_assoc]
        constructor
        · rintro ⟨nodup, ⟨differ, absent⟩, found⟩
          exact ⟨⟨differ, nodup⟩, absent, found⟩
        · rintro ⟨⟨differ, nodup⟩, absent, found⟩
          exact ⟨nodup, ⟨differ, absent⟩, found⟩

/-- Entries of distinct keys are indexed, and are found again as they are. -/
theorem index_eq_ok_iff {list : List (k.Key × k.Value)} {entries : Entries k} :
    index ∅ list = .ok entries
      ↔ (list.map Prod.fst).Nodup ∧ entries.toList.Perm list := by
  rw [index_eq_ok_iff_of]
  simp only [Std.ExtTreeMap.getElem?_empty, Std.ExtTreeMap.contains_empty,
    reduceCtorEq, false_or, implies_true, true_and]
  exact and_congr_right fun nodup => (Entries.perm_toList_iff nodup).symm

/-- Entries in order are indexed as they are. -/
theorem index_toList (entries : Entries k) :
    index ∅ entries.toList = .ok entries :=
  index_eq_ok_iff.mpr ⟨Entries.nodup_keys_toList entries, List.Perm.refl _⟩

end Image

end Handheld
