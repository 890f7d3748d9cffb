import Handheld.Packing.DataImage

/-! # Placement — where sections go

    `IsPlaced` says where each section goes by what it is: the main code
    behind its branch, initialized data at the start of the data, zeros at
    their distance from it, and a further section into the last resource
    that is made of it.  `placement?_layoutOf_iff`: the table of a layout
    says the same. -/

namespace Handheld

/-- Where a section goes. -/
inductive IsPlaced (exe : Executable) (code : MainCode)
    (extra : List (Section × Nat)) : Nat → Placement → Prop where
  | text : IsPlaced exe code extra code.index ⟨textChain, code.branch.length⟩
  | data {s : Section} {index : Nat} : exe.data? = some (s, index) →
      IsPlaced exe code extra index ⟨dataChain, 0⟩
  | bss {s : Section} {index base : Nat} : exe.bss? = some (s, index) →
      (∀ d, exe.data? = some d → d.1.address + base = s.address) →
      (exe.data? = none → base = 0) →
      IsPlaced exe code extra index ⟨dataChain, base⟩
  | further {s : Section} {index number : Nat} :
      extra[number]? = some (s, index) →
      (∀ later t, number < later → extra[later]? ≠ some (t, index)) →
      IsPlaced exe code extra index ⟨firstExtraChain + number, 0⟩

theorem Executable.length_dataImage (exe : Executable) :
    exe.dataImage.length = exe.imageSize := by
  rw [dataImage]
  split
  · exact Bytes.length_resize _ _
  · exact Bytes.length_resize _ _

/-- Sections of different names are at different positions. -/
theorem Executable.index_ne {exe : Executable} {name other : String}
    {s t : Section × Nat} (hs : exe.find? name = some s)
    (ht : exe.find? other = some t) (ne : name ≠ other) : s.2 ≠ t.2 := by
  obtain ⟨s, i⟩ := s
  obtain ⟨t, j⟩ := t
  obtain ⟨atS, rfl⟩ := find?_eq_some hs
  obtain ⟨atT, rfl⟩ := find?_eq_some ht
  rintro rfl
  rw [atS] at atT
  cases atT
  exact ne rfl

private theorem lookup_single (index key : Nat) (placement : Placement) :
    [(key, placement)].lookup index
      = if key = index then some placement else none := by
  by_cases same : key = index
  · simp [same]
  · have differ : (index == key) = false := by simpa using Ne.symm same
    simp [List.lookup_cons, differ, same]

/-! ## Further sections -/

/-- The placements of further sections, latest first. -/
def furtherPlacements (first : Nat) (extra : List (Section × Nat)) :
    List (Nat × Placement) :=
  ((extra.zipIdx first).map fun (s, chain) => (s.2, ⟨chain, 0⟩)).reverse

theorem furtherPlacements_cons (first : Nat) (s : Section × Nat)
    (extra : List (Section × Nat)) :
    furtherPlacements first (s :: extra)
      = furtherPlacements (first + 1) extra ++ [(s.2, ⟨first, 0⟩)] := by
  rw [furtherPlacements, List.zipIdx_cons, List.map_cons, List.reverse_cons]
  rfl

theorem lookup_furtherPlacements_eq_none_iff {first : Nat}
    {extra : List (Section × Nat)} {index : Nat} :
    (furtherPlacements first extra).lookup index = none
      ↔ ∀ s ∈ extra, s.2 ≠ index := by
  induction extra generalizing first with
  | nil => simp [furtherPlacements]
  | cons s extra ih =>
      rw [furtherPlacements_cons, List.lookup_append, Option.or_eq_none_iff,
        ih, lookup_single, List.forall_mem_cons, and_comm]
      refine and_congr_left fun _ => ?_
      by_cases same : s.2 = index
      · simp [same]
      · simp [same]

/-- A further section goes into the last resource that is made of it. -/
theorem lookup_furtherPlacements_eq_some_iff {first : Nat}
    {extra : List (Section × Nat)} {index : Nat} {placement : Placement} :
    (furtherPlacements first extra).lookup index = some placement
      ↔ ∃ number s, extra[number]? = some (s, index)
        ∧ (∀ later t, number < later → extra[later]? ≠ some (t, index))
        ∧ placement = ⟨first + number, 0⟩ := by
  induction extra generalizing first with
  | nil => simp [furtherPlacements]
  | cons s extra ih =>
      rw [furtherPlacements_cons, List.lookup_append, Option.or_eq_some_iff,
        ih, lookup_furtherPlacements_eq_none_iff, lookup_single]
      constructor
      · rintro (⟨number, t, here, last, rfl⟩ | ⟨none, found⟩)
        · refine ⟨number + 1, t, here, ?_, ?_⟩
          · intro later u order
            obtain ⟨later, rfl⟩ := Nat.exists_eq_add_of_lt order
            exact last _ u (by omega)
          · rw [Nat.add_assoc, Nat.add_comm 1]
        · by_cases same : s.2 = index
          · subst same
            refine ⟨0, s.1, rfl, ?_, by simpa using found.symm⟩
            intro later t order there
            obtain ⟨later, rfl⟩ := Nat.exists_eq_add_of_lt order
            rw [Nat.zero_add, List.getElem?_cons_succ] at there
            exact none _ (List.mem_of_getElem? there) rfl
          · simp [same] at found
      · -- the first section is placed last, so it only counts without others
        rintro ⟨number, t, here, last, rfl⟩
        cases number with
        | zero =>
            right
            have same : s = (t, index) := Option.some.inj here
            refine ⟨?_, by simp [same]⟩
            rintro ⟨u, i⟩ member rfl
            obtain ⟨m, there⟩ := List.getElem?_of_mem member
            exact last (m + 1) u (Nat.succ_pos m) there
        | succ number =>
            left
            refine ⟨number, t, here, ?_, ?_⟩
            · intro later u order
              exact last (later + 1) u (Nat.succ_lt_succ order)
            · rw [Nat.add_assoc, Nat.add_comm 1]

/-! ## The table -/

section Table

variable {exe : Executable} {code : MainCode} {extra : List (Section × Nat)}

/-- The table: further sections come first, the main code last. -/
theorem placement?_layoutOf (index : Nat) :
    (layoutOf exe code extra).placement? index
      = ((((furtherPlacements firstExtraChain extra).lookup index).or
          (exe.bss?.bind fun s =>
            if s.2 = index then some ⟨dataChain, exe.bssBase⟩ else none)).or
          (exe.data?.bind fun s =>
            if s.2 = index then some ⟨dataChain, 0⟩ else none)).or
          (if code.index = index
            then some ⟨textChain, code.branch.length⟩ else none) := by
  have single : ∀ (s : Option (Section × Nat)) (placement : Placement),
      (s.toList.map fun s => (s.2, placement)).lookup index
        = s.bind fun s => if s.2 = index then some placement else none := by
    intro s placement
    cases s with
    | none => rfl
    | some s => exact lookup_single index s.2 placement
  rw [Layout.placement?, layoutOf, List.lookup_append, List.lookup_append,
    List.lookup_append, single, single, lookup_single]
  rfl

/-- The distance of the zeros from the initialized data. -/
theorem bssBase_spec (order : ∀ d s, exe.data? = some d → exe.bss? = some s →
      d.1.address ≤ s.1.address) {s : Section × Nat}
    (bss : exe.bss? = some s) :
    (∀ d, exe.data? = some d → d.1.address + exe.bssBase = s.1.address)
      ∧ (exe.data? = none → exe.bssBase = 0) := by
  constructor
  · intro d data
    rw [Executable.bssBase, data, bss]
    exact Nat.add_sub_cancel' (order d s data bss)
  · intro data
    rw [Executable.bssBase, data]

/-- A section of another name is not the one at this position. -/
theorem bind_index_eq_none {name other : String}
    {t : Section × Nat} (found : exe.find? other = some t)
    (ne : name ≠ other) (placement : Placement) :
    ((exe.find? name).bind fun s =>
      if s.2 = t.2 then some placement else none) = none := by
  cases hs : exe.find? name with
  | none => rfl
  | some s => exact if_neg (Executable.index_ne hs found ne)

/-- No further section is one of the other three. -/
theorem lookup_furtherPlacements_eq_none (first : Nat)
    (others : ∀ s ∈ extra, ∃ name, exe.find? name = some s
      ∧ name ∉ [".text", ".data", ".bss"])
    {name : String} {t : Section × Nat} (found : exe.find? name = some t)
    (member : name ∈ [".text", ".data", ".bss"]) :
    (furtherPlacements first extra).lookup t.2 = none := by
  refine lookup_furtherPlacements_eq_none_iff.mpr ?_
  intro s hs
  obtain ⟨other, foundOther, notMember⟩ := others s hs
  refine Executable.index_ne foundOther found ?_
  rintro rfl
  exact notMember member

/-- What the table of a layout says of a section is where it goes. -/
theorem isPlaced_of_placement?
    (order : ∀ d s, exe.data? = some d → exe.bss? = some s →
      d.1.address ≤ s.1.address)
    {index : Nat} {placement : Placement}
    (h : (layoutOf exe code extra).placement? index = some placement) :
    IsPlaced exe code extra index placement := by
  rw [placement?_layoutOf] at h
  cases further : (furtherPlacements firstExtraChain extra).lookup index with
  | some p =>
      rw [further] at h
      obtain ⟨number, s, here, last, rfl⟩ :=
        lookup_furtherPlacements_eq_some_iff.mp further
      obtain rfl : _ = placement := by simpa using h
      exact .further here last
  | none =>
      rw [further, Option.none_or, Option.or_eq_some_iff,
        Option.or_eq_some_iff] at h
      rcases h with (bss | ⟨-, data⟩) | ⟨-, main⟩
      · obtain ⟨s, found, here⟩ := Option.bind_eq_some_iff.mp bss
        obtain ⟨rfl, rfl⟩ : s.2 = index ∧ _ = placement := by
          simpa using here
        obtain ⟨distance, alone⟩ := bssBase_spec order found
        exact .bss found distance alone
      · obtain ⟨s, found, here⟩ := Option.bind_eq_some_iff.mp data
        obtain ⟨rfl, rfl⟩ : s.2 = index ∧ _ = placement := by
          simpa using here
        exact .data found
      · obtain ⟨rfl, rfl⟩ : code.index = index ∧ _ = placement := by
          simpa using main
        exact .text

/-- Where a section goes is what the table of a layout says of it. -/
theorem IsPlaced.placement?_eq
    (text : exe.find? ".text" = some (code.text, code.index))
    (order : ∀ d s, exe.data? = some d → exe.bss? = some s →
      d.1.address ≤ s.1.address)
    (others : ∀ s ∈ extra, ∃ name, exe.find? name = some s
      ∧ name ∉ [".text", ".data", ".bss"])
    {index : Nat} {placement : Placement}
    (h : IsPlaced exe code extra index placement) :
    (layoutOf exe code extra).placement? index = some placement := by
  rw [placement?_layoutOf]
  cases h with
  | text =>
      have further := lookup_furtherPlacements_eq_none
        firstExtraChain others text (by decide)
      have bss := bind_index_eq_none text (show ".bss" ≠ ".text" by decide)
        ⟨dataChain, exe.bssBase⟩
      have data := bind_index_eq_none text (show ".data" ≠ ".text" by decide)
        ⟨dataChain, 0⟩
      dsimp only at further bss data
      rw [further, Executable.bss?, bss, Executable.data?, data, if_pos rfl]
      rfl
  | @data s index data =>
      have further := lookup_furtherPlacements_eq_none
        firstExtraChain others data (by decide)
      have bss := bind_index_eq_none data (show ".bss" ≠ ".data" by decide)
        ⟨dataChain, exe.bssBase⟩
      dsimp only at further bss
      rw [further, Executable.bss?, bss, data, Option.bind_some, if_pos rfl]
      rfl
  | @bss s index base bss distance alone =>
      have further := lookup_furtherPlacements_eq_none
        firstExtraChain others bss (by decide)
      obtain ⟨distance', alone'⟩ := bssBase_spec order bss
      -- the distance is that between the two sections
      have base_eq : exe.bssBase = base := by
        cases data : exe.data? with
        | none => rw [alone data, alone' data]
        | some d =>
            have this := distance d data
            have that := distance' d data
            dsimp only at that
            omega
      dsimp only at further
      rw [further, bss, Option.bind_some, if_pos rfl, base_eq]
      rfl
  | @further s _ number here last =>
      have found : (furtherPlacements firstExtraChain extra).lookup index
          = some ⟨firstExtraChain + number, 0⟩ :=
        lookup_furtherPlacements_eq_some_iff.mpr ⟨number, s, here, last, rfl⟩
      rw [found]
      rfl

/-- The table of a layout says where sections go, and nothing else. -/
theorem placement?_layoutOf_iff
    (text : exe.find? ".text" = some (code.text, code.index))
    (order : ∀ d s, exe.data? = some d → exe.bss? = some s →
      d.1.address ≤ s.1.address)
    (others : ∀ s ∈ extra, ∃ name, exe.find? name = some s
      ∧ name ∉ [".text", ".data", ".bss"])
    {index : Nat} {placement : Placement} :
    (layoutOf exe code extra).placement? index = some placement
      ↔ IsPlaced exe code extra index placement := by
  constructor
  · intro h
    exact isPlaced_of_placement? order h
  · intro h
    exact h.placement?_eq text order others

end Table

end Handheld
