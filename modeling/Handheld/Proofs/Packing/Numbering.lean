import Handheld.Proofs.Packing.Accounting
import Handheld.Proofs.Packing.Keys

/-! # Numbering — which numbers further code gets

    Each further section takes the next number after the one before that is
    free, and after 65535 come 0 and 1 again.

    • `IsNextFree` says which key that is.  There is one as long as not all
      numbers are taken (`exists_freeId?`), because a round of numbers has
      more keys than those;
    • `numbered?_isNextFree` and `exists_numbered?`: so it is for each of the
      further sections, and there are numbers for all of them;
    • `chain_of_last`: a relocation into a further section goes into the chain
      of the last resource that is made of it;
    • `pack_numbers` puts them together for a packed executable. -/

namespace Handheld

/-! ## The next free key -/

/-- The first key after a key, within a round, that is not taken. -/
def IsNextFree (taken : List ResourceKey) (key next : ResourceKey) : Prop :=
  ∃ steps < idCount, next = key.after (steps + 1) ∧ next ∉ taken
    ∧ ∀ i < steps, key.after (i + 1) ∈ taken

/-- Which key it is only depends on which ones are taken. -/
theorem IsNextFree.congr {taken others : List ResourceKey}
    {key next : ResourceKey} (h : IsNextFree taken key next)
    (same : ∀ k, k ∈ others ↔ k ∈ taken) : IsNextFree others key next := by
  obtain ⟨steps, round, rfl, free, before⟩ := h
  refine ⟨steps, round, rfl, fun used => free ((same _).mp used), ?_⟩
  intro i hi
  exact (same _).mpr (before i hi)

/-- A search goes from key to key. -/
theorem freeId?_succ (type : Tag) (taken : List ResourceKey) (steps : Nat)
    (id : UInt16) :
    freeId? type taken (steps + 1) id
      = if (⟨type, id⟩ : ResourceKey).after 1 ∈ taken
        then freeId? type taken steps (id + 1)
        else some (id + 1) := by
  rw [freeId?, ResourceKey.after_one]

/-- The keys after the next key are those after the key. -/
theorem after_next (type : Tag) (id : UInt16) (steps : Nat) :
    (⟨type, id + 1⟩ : ResourceKey).after steps
      = (⟨type, id⟩ : ResourceKey).after (steps + 1) := by
  rw [ResourceKey.after_one, ResourceKey.after_after, Nat.add_comm]

/-- What a search finds is the first key that is free. -/
theorem freeId?_eq_some {type : Tag} {taken : List ResourceKey} {steps : Nat}
    {id next : UInt16} (h : freeId? type taken steps id = some next) :
    ∃ i < steps, ⟨type, next⟩ = (⟨type, id⟩ : ResourceKey).after (i + 1)
      ∧ ∀ j < i, (⟨type, id⟩ : ResourceKey).after (j + 1) ∈ taken := by
  induction steps generalizing id with
  | zero => cases h
  | succ steps ih =>
      rw [freeId?_succ] at h
      split at h
      case isTrue used =>
        obtain ⟨i, hi, found, before⟩ := ih h
        refine ⟨i + 1, Nat.succ_lt_succ hi, found.trans (after_next _ _ _), ?_⟩
        intro j hj
        cases j with
        | zero => exact used
        | succ j =>
            rw [← after_next]
            exact before j (Nat.lt_of_succ_lt_succ hj)
      case isFalse =>
        obtain rfl := Option.some.inj h
        refine ⟨0, Nat.succ_pos steps, ResourceKey.after_one _ _, ?_⟩
        intro j hj
        cases hj

/-- A search that finds nothing has seen only keys that are taken. -/
theorem freeId?_eq_none {type : Tag} {taken : List ResourceKey} {steps : Nat}
    {id : UInt16} (h : freeId? type taken steps id = none) :
    ∀ i < steps, (⟨type, id⟩ : ResourceKey).after (i + 1) ∈ taken := by
  induction steps generalizing id with
  | zero =>
      intro i hi
      cases hi
  | succ steps ih =>
      rw [freeId?_succ] at h
      split at h
      case isTrue used =>
        intro i hi
        cases i with
        | zero => exact used
        | succ i =>
            rw [← after_next]
            exact ih h i (Nat.lt_of_succ_lt_succ hi)
      case isFalse => cases h

/-- A round of keys has no key twice. -/
theorem nodup_round (key : ResourceKey) :
    ((List.range idCount).map fun i => key.after (i + 1)).Nodup := by
  refine List.pairwise_map.mpr (List.Pairwise.imp_of_mem ?_
    List.pairwise_lt_range)
  intro a b _ hb lt
  have below := List.mem_range.mp hb
  exact ResourceKey.after_ne (by omega) (by omega)

/-- A search ends, as long as not all numbers are taken. -/
theorem exists_freeId? {type : Tag} {taken : List ResourceKey} (id : UInt16)
    (room : taken.length < idCount) :
    ∃ next, freeId? type taken idCount id = some next := by
  refine Option.ne_none_iff_exists'.mp fun none => ?_
  have used : ((List.range idCount).map fun i =>
      (⟨type, id⟩ : ResourceKey).after (i + 1)) ⊆ taken := by
    intro key hk
    obtain ⟨i, hi, rfl⟩ := List.mem_map.mp hk
    exact freeId?_eq_none none i (List.mem_range.mp hi)
  have fits := (nodup_round _).length_le_of_subset used
  rw [List.length_map, List.length_range] at fits
  exact absurd room (Nat.not_lt.mpr fits)

/-! ## Further sections -/

/-- There are numbers for all further sections, as long as these and what is
    taken are not more than there are numbers. -/
theorem exists_numbered? {type : Tag} {taken : List ResourceKey} (id : UInt16)
    (sections : List Section) (room : taken.length + sections.length ≤ idCount) :
    ∃ made, numbered? type taken id sections = some made := by
  induction sections generalizing taken id with
  | nil => exact ⟨[], rfl⟩
  | cons s sections ih =>
      rw [List.length_cons] at room
      obtain ⟨next, found⟩ := @exists_freeId? type taken id (by omega)
      obtain ⟨later, rest⟩ := @ih (⟨type, next⟩ :: taken) next (by
        rw [List.length_cons]
        omega)
      exact ⟨_, numbered?_cons_eq_some_iff.mpr
        ⟨next, later, found, rest, rfl⟩⟩

/-- Each further section has the first key after the one before it that is
    taken neither at first nor by the sections before. -/
theorem numbered?_isNextFree {type : Tag} {taken : List ResourceKey}
    {id : UInt16} {sections : List Section} {made : List Resource}
    (h : numbered? type taken id sections = some made) {k : Nat}
    {key next : ResourceKey}
    (before : (⟨type, id⟩ :: made.map Prod.fst)[k]? = some key)
    (here : (made.map Prod.fst)[k]? = some next) :
    IsNextFree (taken ++ (made.map Prod.fst).take k) key next := by
  induction sections generalizing taken id made k with
  | nil =>
      cases h
      cases here
  | cons s sections ih =>
      obtain ⟨number, later, found, rest, rfl⟩ :=
        numbered?_cons_eq_some_iff.mp h
      cases k with
      | zero =>
          cases before
          cases here
          obtain ⟨steps, round, eq, used⟩ := freeId?_eq_some found
          rw [List.take_zero, List.append_nil]
          exact ⟨steps, round, eq, freeId?_not_mem found, used⟩
      | succ k =>
          refine (ih rest before here).congr fun _ => ?_
          exact List.perm_middle.mem_iff

/-! ## Chains of further sections -/

section Packed

variable {exe : Executable} {options : PackOptions} {code : MainCode}

/-- A relocation into a further section goes into the chain of the last
    resource that is made of it. -/
theorem chain_of_last {x : Relocation × Site}
    (hx : x ∈ packedRelocations exe options code) {number index : Nat}
    {s : Section} (points : x.1.targetSection? exe.symbols = some index)
    (here : (packedExtra exe options)[number]? = some (s, index))
    (last : ∀ later t, number < later →
      (packedExtra exe options)[later]? ≠ some (t, index)) :
    x.2.chain = firstExtraChain + number := by
  obtain ⟨before, after, -, site⟩ := Layout.exists_of_mem_threadedFrom hx
  obtain ⟨_, other, target, facts⟩ := Layout.site_eq_ok_iff.mp site
  obtain ⟨points', placed⟩ := Layout.target?_eq_some_iff.mp facts.destination
  obtain rfl : index = other := Option.some.inj (points.symm.trans points')
  have found : (furtherPlacements firstExtraChain
      (packedExtra exe options)).lookup index
        = some ⟨firstExtraChain + number, 0⟩ :=
    lookup_furtherPlacements_eq_some_iff.mpr ⟨number, s, here, last, rfl⟩
  rw [placement?_layoutOf, found] at placed
  rw [facts.chain, ← Option.some.inj placed]

/-! ## Packed executables -/

/-- There are at most three resources before the further ones. -/
theorem length_firstResources_le (exe : Executable) (options : PackOptions)
    {role : CodeRole} (alone : role.standalone = false) (code : MainCode) :
    (firstResources exe options role code).length ≤ 3 := by
  rw [firstResources, companions, if_neg (Bool.eq_false_iff.mp alone)]
  split
  · exact Nat.le_refl 3
  · exact Nat.le_add_left 1 2

section Made

variable {further data : List Resource}
  (parts : IsMade exe options ⟨options.mainCode, false⟩ code further data)
  (notData : options.mainCode.type ≠ dataType)
  (notHeads : options.mainCode.type ≠ rlocType)

include parts notData notHeads

/-- The data have other keys than the code. -/
theorem IsMade.data_ne_code {key other : ResourceKey}
    (hk : key ∈ data.map Prod.fst)
    (ho : other ∈ (firstResources exe options ⟨options.mainCode, false⟩ code
      ++ further).map Prod.fst) : other ≠ key := by
  obtain ⟨-, -, types⟩ := parts.data_keys.2 key hk
  have main : key.type ≠ options.mainCode.type := by
    rcases types with heads | image
    · rw [heads]
      exact Ne.symm notHeads
    · rw [image]
      exact Ne.symm notData
  rintro rfl
  rw [List.map_append] at ho
  rcases List.mem_append.mp ho with first | made
  · rcases List.mem_cons.mp first with rfl | companion
    · exact main rfl
    · exact parts.companions_ne_data companion hk rfl
  · obtain ⟨r, hr, rfl⟩ := List.mem_map.mp made
    exact main (numbered?_type parts.numbers hr)

/-- Further code is in the database, and replaces nothing that was made
    before it. -/
theorem IsMade.get?_further :
    let db := (Database.new .resource Header.blank).insertAll
      (firstResources exe options ⟨options.mainCode, false⟩ code
        ++ further ++ data)
    (∀ r ∈ further, db.get? r.1 = some r.2)
      ∧ ∀ r ∈ firstResources exe options ⟨options.mainCode, false⟩ code,
        db.get? r.1 = ((Database.new .resource Header.blank).insertAll
          (firstResources exe options ⟨options.mainCode, false⟩ code)).get?
            r.1 := by
  obtain ⟨-, nodup, free⟩ := numbered?_spec parts.numbers
  have differ := @IsMade.data_ne_code exe options code further data parts
    notData notHeads
  intro db
  have split : db = ((Database.new .resource Header.blank).insertAll
      (firstResources exe options ⟨options.mainCode, false⟩ code)).insertAll
        (further ++ data) := by
    rw [← Database.insertAll_append, ← List.append_assoc]
  rw [split]
  constructor
  · intro r hr
    refine Database.get?_insertAll_of_nodup _ ?_ (List.mem_append_left _ hr)
    rw [List.map_append]
    refine List.nodup_append.mpr ⟨nodup, parts.data_keys.1, ?_⟩
    intro key made other used
    refine differ used ?_
    rw [List.map_append]
    exact List.mem_append_right _ made
  · intro r hr
    refine Database.get?_insertAll_of_ne ?_
    intro e he same
    have first := List.mem_map_of_mem (f := Prod.fst) hr
    rcases List.mem_append.mp he with made | used
    · exact free e.1 (List.mem_map_of_mem made) (same ▸ first)
    · refine differ (List.mem_map_of_mem used) ?_ same.symm
      rw [List.map_append]
      exact List.mem_append_left _ first

end Made

/-- If heads are stored, there is one for each chain: that of the data, that
    of the main code, and one for each further section. -/
theorem length_storedHeads {origin : String} {db : Database .resource}
    (alone : exe.find? ".disposn" = none)
    (notHeads : options.mainCode.type ≠ rlocType)
    (packed : (pack exe options origin).result = .ok db) {bytes : Bytes}
    (stored : db.get? ⟨rlocType, 0⟩ = some bytes) :
    bytes.length = 2 * (2 + (packedExtra exe options).length)
      ∧ (Loader.storedHeads exe.architecture (some bytes)).length
        = 2 + (packedExtra exe options).length := by
  cases emits : options.emitData with
  | true =>
      obtain ⟨code, _, -, -, -, hasHeads, hasNone⟩ :=
        pack_data_eq_ok alone emits packed
      have accounted := isAccounted_packed exe options code
      by_cases stores : StoresHeads options (packedThreads exe options code)
      · rw [hasHeads stores] at stored
        obtain rfl := Option.some.inj stored
        rw [Threads.length_headBytes, accounted.heads,
          Loader.storedHeads_headBytes accounted.headsFit, accounted.heads]
        exact ⟨rfl, rfl⟩
      · rw [hasNone notHeads stores] at stored
        cases stored
  | false =>
      obtain ⟨code, further, data, parts, rfl⟩ :=
        pack_alone_eq_insertAll alone packed
      obtain rfl := parts.discarded (by simp [discardsData, emits])
      rw [List.append_nil, Database.get?_insertAll_of_ne] at stored
      · rw [Database.get?_new .resource] at stored
        cases stored
      · rintro r hr same
        exact parts.code_type_ne notHeads hr (congrArg ResourceKey.type same)

/-- **Which numbers further code gets.**  Let an executable with main code of
    another type than data and heads be packed with fewer than 65000 further
    sections.  There are numbers for all of those that are found: each gets
    the next one whose key is taken neither by the main code and its
    companions nor by a section before it.  In the database these keys are
    distinct and hold the data of their sections, and all that was made before
    is still there.  A name that is not found is reported each time that it
    is asked for.  There is a chain for each section that is found, and
    relocations into one go into the chain of its last resource. -/
theorem pack_numbers (alone : exe.find? ".disposn" = none)
    (few : options.extraCode.length < 65000)
    (notData : options.mainCode.type ≠ dataType)
    (notHeads : options.mainCode.type ≠ rlocType)
    (main : HasMainCode exe code) :
    ∃ further, numbered? options.mainCode.type
        ((firstResources exe options ⟨options.mainCode, false⟩ code).map
          Prod.fst)
        options.mainCode.id ((packedExtra exe options).map Prod.fst)
      = some further
      ∧ further.map Prod.snd
        = (packedExtra exe options).map (fun s => s.1.data)
      ∧ (∀ k key next,
        (options.mainCode :: further.map Prod.fst)[k]? = some key →
        (further.map Prod.fst)[k]? = some next →
        next.type = options.mainCode.type
          ∧ IsNextFree
            ((firstResources exe options ⟨options.mainCode, false⟩ code).map
                Prod.fst
              ++ (further.map Prod.fst).take k) key next)
      ∧ ∀ origin db, (pack exe options origin).result = .ok db →
        (further.map Prod.fst).Nodup
          ∧ (∀ r ∈ further, db.get? r.1 = some r.2)
          ∧ (∀ r ∈ firstResources exe options ⟨options.mainCode, false⟩ code,
            db.get? r.1 = ((Database.new .resource Header.blank).insertAll
              (firstResources exe options ⟨options.mainCode, false⟩
                code)).get? r.1)
          ∧ (∀ name, List.count (missingWarning origin name)
              (pack exe options origin).diagnostics
            = if (exe.find? name).isNone then options.extraCode.count name
              else 0)
          ∧ (∀ bytes, db.get? ⟨rlocType, 0⟩ = some bytes →
            bytes.length = 2 * (2 + (packedExtra exe options).length)
              ∧ (Loader.storedHeads exe.architecture (some bytes)).length
                = 2 + (packedExtra exe options).length)
          ∧ ∀ x ∈ packedRelocations exe options code, ∀ number index s,
            x.1.targetSection? exe.symbols = some index →
            (packedExtra exe options)[number]? = some (s, index) →
            (∀ later t, number < later →
              (packedExtra exe options)[later]? ≠ some (t, index)) →
            x.2.chain = firstExtraChain + number := by
  have found_le : (packedExtra exe options).length
      ≤ options.extraCode.length := List.length_filterMap_le _ _
  have first_le := @length_firstResources_le exe options
    ⟨options.mainCode, false⟩ rfl code
  have ids : idCount = 65536 := rfl
  obtain ⟨further, numbers⟩ := exists_numbered? options.mainCode.id
    ((packedExtra exe options).map Prod.fst)
    (show ((firstResources exe options ⟨options.mainCode, false⟩ code).map
      Prod.fst).length + _ ≤ idCount by
        rw [List.length_map, List.length_map]
        omega)
  obtain ⟨contents, nodup, -⟩ := numbered?_spec numbers
  refine ⟨further, numbers, ?_, ?_, ?_⟩
  · rw [contents, List.map_map]
    rfl
  · intro k key next before here
    have free := numbered?_isNextFree numbers before here
    obtain ⟨r, hr, rfl⟩ := List.mem_map.mp (List.mem_of_getElem? here)
    exact ⟨numbered?_type numbers hr, free⟩
  · intro origin db packed
    obtain ⟨other, made, data, parts, rfl⟩ :=
      pack_alone_eq_insertAll alone packed
    obtain rfl := parts.main.unique main
    obtain rfl : made = further :=
      Option.some.inj (parts.numbers.symm.trans numbers)
    obtain ⟨held, kept⟩ := parts.get?_further notData notHeads
    refine ⟨nodup, held, kept, parts.count_missingWarning origin, ?_, ?_⟩
    · intro bytes stored
      exact length_storedHeads alone notHeads packed stored
    · intro x hx number index s points here last
      exact chain_of_last hx points here last

end Packed

/-- Code, further code, and the address of the latter in the data. -/
def calledSection : Executable where
  architecture := .m68k
  entry := 0x1000
  sections := [
    ⟨".text", 0x1000, 2, [0x4E, 0x75], true⟩,
    ⟨".text.ui", 0x2000, 2, [0x4E, 0x71], true⟩,
    ⟨".data", 0x8000, 4, [0, 0, 0x20, 0], false⟩]
  symbols := []
  relocations := [⟨.absolute32, 2, 0, .container 1⟩]

/-- An application whose main code has one of the last numbers, and for which
    the further code is asked for twice, with a section in between that does
    not exist. -/
def lastNumbers : PackOptions :=
  { PackOptions.standard .application with
    mainCode := ⟨codeType, 65534⟩
    extraCode := [".text.ui", ".text.net", ".text.ui"] }

/-- The numbers come round to zero, which is taken by the jump table. -/
theorem pack_numbers_lastNumbers :
    ∃ db, (pack calledSection lastNumbers "sample").result = .ok db
      ∧ db.get? ⟨codeType, 65535⟩ = some [0x4E, 0x71]
      ∧ db.get? ⟨codeType, 0⟩ = some jumpTableStub
      ∧ db.get? ⟨codeType, 1⟩ = some [0x4E, 0x71]
      ∧ List.count (missingWarning "sample" ".text.net")
        (pack calledSection lastNumbers "sample").diagnostics = 1
      ∧ ∃ bytes, db.get? ⟨rlocType, 0⟩ = some bytes ∧ bytes.length = 8 := by
  have main : HasMainCode calledSection
      ⟨⟨".text", 0x1000, 2, [0x4E, 0x75], true⟩, 0, 0, []⟩ := ⟨rfl, by cbv⟩
  obtain ⟨further, numbers, -, -, packs⟩ := @pack_numbers calledSection
    lastNumbers _ (by decide) (by decide) (by decide) (by decide) main
  obtain ⟨db, packed⟩ := exists_pack_eq_ok (by decide) main (by decide)
    numbers (by decide) "sample"
  obtain ⟨-, held, kept, missing, heads, -⟩ := packs "sample" db packed
  have made : some [(⟨codeType, 65535⟩, [0x4E, 0x71]),
      (⟨codeType, 1⟩, [0x4E, 0x71])] = some further := numbers
  obtain rfl := Option.some.inj made
  obtain ⟨code, _, hcode, -, -, stored, -⟩ :=
    pack_data_eq_ok (by decide) rfl packed
  obtain rfl := hcode.unique main
  have bytes := stored (by decide)
  refine ⟨db, packed, held _ List.mem_cons_self, ?_,
    held _ (List.mem_cons_of_mem _ List.mem_cons_self),
    (missing _).trans (by decide), _, bytes, (heads _ bytes).1⟩
  refine (kept (⟨codeType, 0⟩, jumpTableStub) (by decide)).trans ?_
  exact @Database.get?_insertAll_of_nodup .resource _ _ (by decide)
    (⟨codeType, 0⟩, jumpTableStub) (by decide)

end Handheld
