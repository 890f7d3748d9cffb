import Handheld.Proofs.Compression.DataResource
import Handheld.Proofs.Packing.Resources

/-! # Keys of packed resources — when none replaces another one

    What is packed is put into a database one resource after the other, and
    a resource whose key was used before replaces the one that had it.

    • `numbered?_spec`: further code has keys of its own, since it takes
      numbers that are free;
    • `numbered?_getElem?`: these are the next numbers, one after the other,
      as far as they are free;
    • `KeysApart`: what the key of the main code has to keep clear of, for
      itself and for the further code;
    • `pack_keys_nodup_iff`: all keys are distinct exactly then, and then
      each resource is found as it was made.  `replacedSection_lost` is a
      section that is not. -/

namespace Handheld

/-! ## Numbers after a number -/

/-- The key that comes some steps after a key. -/
def ResourceKey.after (key : ResourceKey) (steps : Nat) : ResourceKey :=
  ⟨key.type, UInt16.ofNat (key.id.toNat + steps)⟩

namespace ResourceKey

theorem eq_of_type_of_toNat {a b : ResourceKey} (type : a.type = b.type)
    (id : a.id.toNat = b.id.toNat) : a = b := by
  obtain ⟨t, i⟩ := a
  obtain ⟨u, j⟩ := b
  obtain rfl : t = u := type
  obtain rfl : i = j := UInt16.toNat_inj.mp id
  rfl

theorem toNat_id_after (key : ResourceKey) (steps : Nat) :
    (key.after steps).id.toNat = (key.id.toNat + steps) % 2 ^ 16 :=
  UInt16.toNat_ofNat'

theorem after_zero (key : ResourceKey) : key.after 0 = key := by
  refine eq_of_type_of_toNat rfl ?_
  rw [toNat_id_after, Nat.add_zero]
  exact Nat.mod_eq_of_lt key.id.toNat_lt

theorem after_after (key : ResourceKey) (a b : Nat) :
    (key.after a).after b = key.after (a + b) := by
  refine eq_of_type_of_toNat rfl ?_
  rw [toNat_id_after, toNat_id_after, toNat_id_after]
  omega

/-- The next key. -/
theorem after_one (type : Tag) (id : UInt16) :
    (⟨type, id + 1⟩ : ResourceKey) = (⟨type, id⟩ : ResourceKey).after 1 := by
  refine eq_of_type_of_toNat rfl ?_
  rw [toNat_id_after, UInt16.toNat_add]
  rfl

/-- Within one round no key comes twice. -/
theorem after_ne {key : ResourceKey} {a b : Nat} (lt : a < b)
    (round : b < a + idCount) : key.after a ≠ key.after b := by
  intro same
  have ids := congrArg (fun key => key.id.toNat) same
  rw [toNat_id_after, toNat_id_after] at ids
  have size : idCount = 2 ^ 16 := rfl
  omega

end ResourceKey

/-! ## Further code -/

/-- A number that is found is free. -/
theorem freeId?_not_mem {type : Tag} {taken : List ResourceKey} {steps : Nat}
    {id next : UInt16} (h : freeId? type taken steps id = some next) :
    ⟨type, next⟩ ∉ taken := by
  induction steps generalizing id with
  | zero => cases h
  | succ steps ih =>
      rw [freeId?] at h
      split at h
      case isTrue => exact ih h
      case isFalse free =>
        cases h
        exact free

/-- Sections become resources with their data, and with keys that are
    distinct and were free. -/
theorem numbered?_spec {type : Tag} {taken : List ResourceKey} {id : UInt16}
    {sections : List Section} {made : List Resource}
    (h : numbered? type taken id sections = some made) :
    made.map Prod.snd = sections.map Section.data
      ∧ (made.map Prod.fst).Nodup
      ∧ ∀ key ∈ made.map Prod.fst, key ∉ taken := by
  induction sections generalizing taken id made with
  | nil =>
      cases h
      refine ⟨rfl, List.nodup_nil, ?_⟩
      intro key hk
      cases hk
  | cons s sections ih =>
      obtain ⟨next, later, found, rest, rfl⟩ := numbered?_cons_eq_some_iff.mp h
      obtain ⟨data, nodup, free⟩ := ih rest
      refine ⟨?_, ?_, ?_⟩
      · rw [List.map_cons, List.map_cons, data]
      · refine List.nodup_cons.mpr ⟨fun again => ?_, nodup⟩
        exact free _ again List.mem_cons_self
      · intro key hk
        rcases List.mem_cons.mp hk with rfl | other
        · exact freeId?_not_mem found
        · exact fun used => free key other (List.mem_cons_of_mem _ used)

/-- As far as the next keys are free, they are taken one after the other. -/
theorem numbered?_getElem? {type : Tag} {taken : List ResourceKey}
    {id : UInt16} {sections : List Section} {made : List Resource}
    (h : numbered? type taken id sections = some made) {count : Nat}
    (round : count ≤ idCount)
    (free : ∀ j < count, (⟨type, id⟩ : ResourceKey).after (j + 1) ∉ taken)
    {j : Nat} (hj : j < count) (section_lt : j < sections.length) :
    (made.map Prod.fst)[j]?
      = some ((⟨type, id⟩ : ResourceKey).after (j + 1)) := by
  induction sections generalizing taken id made count j with
  | nil => cases section_lt
  | cons s sections ih =>
      obtain ⟨next, later, found, rest, rfl⟩ := numbered?_cons_eq_some_iff.mp h
      -- the first number that is tried is free
      have first : (⟨type, id + 1⟩ : ResourceKey) ∉ taken := by
        rw [ResourceKey.after_one]
        exact free 0 (Nat.zero_lt_of_lt hj)
      obtain rfl : id + 1 = next := Option.some.inj
        ((if_neg first).symm.trans found)
      cases j with
      | zero => exact congrArg some (ResourceKey.after_one type id)
      | succ j =>
          have shift : ∀ i, (⟨type, id + 1⟩ : ResourceKey).after (i + 1)
              = (⟨type, id⟩ : ResourceKey).after (i + 1 + 1) := by
            intro i
            rw [ResourceKey.after_one, ResourceKey.after_after,
              Nat.add_comm 1]
          have free' : ∀ i < count - 1,
              (⟨type, id + 1⟩ : ResourceKey).after (i + 1)
                ∉ ⟨type, id + 1⟩ :: taken := by
            intro i hi used
            rw [shift] at used
            rcases List.mem_cons.mp used with same | before
            · rw [ResourceKey.after_one] at same
              exact ResourceKey.after_ne (by omega) (by omega) same.symm
            · exact free (i + 1) (by omega) before
          rw [← shift]
          exact ih rest (by omega) free' (by omega)
            (Nat.lt_of_succ_lt_succ section_lt)

/-! ## Companions and data -/

/-- Traps have distinct numbers. -/
theorem nodup_trapResources (exe : Executable) :
    ((trapResources exe).map Prod.fst).Nodup := by
  have count : ((trapList exe).take maxTraps).length ≤ maxTraps :=
    List.length_take_le _ _
  have keys : (trapResources exe).map Prod.fst
      = (List.range' firstTrapId ((trapList exe).take maxTraps).length).map
          fun id => ⟨trapType, id.toUInt16⟩ := by
    rw [← List.zipIdx_map_snd, trapResources, List.map_map, List.map_map]
    rfl
  rw [keys]
  refine List.pairwise_map.mpr (List.Pairwise.imp_of_mem ?_
    (List.pairwise_lt_range' 1))
  intro a b ha hb lt same
  obtain ⟨-, below⟩ := List.mem_range'_1.mp hb
  have total : firstTrapId + maxTraps = 2 ^ 16 := rfl
  have ids : a % 2 ^ 16 = b % 2 ^ 16 := by
    have numbers := congrArg (fun key => key.id.toNat) same
    simpa using numbers
  omega

theorem nodup_companions (exe : Executable) (options : PackOptions)
    (role : CodeRole) :
    ((companions exe options role).map Prod.fst).Nodup := by
  rw [companions]
  split
  · exact nodup_trapResources exe
  · split
    · show [(⟨codeType, 0⟩ : ResourceKey), ⟨prefType, 0⟩].Nodup
      decide
    · exact List.nodup_nil

section Made

variable {exe : Executable} {options : PackOptions} {role : CodeRole}
  {code : MainCode} {further data : List Resource}

/-- The keys of the data: `data #0`, perhaps after `rloc #0`.  Only code
    that is not standalone comes with data. -/
theorem IsMade.data_keys (h : IsMade exe options role code further data) :
    (data.map Prod.fst).Nodup ∧ ∀ key ∈ data.map Prod.fst,
      role.standalone = false ∧ key.id = 0
        ∧ (key.type = rlocType ∨ key.type = dataType) := by
  cases keeps : discardsData options role with
  | true =>
      rw [h.discarded keeps]
      exact ⟨List.nodup_nil, fun key hk => absurd hk List.not_mem_nil⟩
  | false =>
      have alone := standalone_eq_false keeps
      obtain ⟨encoded, -, rfl⟩ := h.packed keeps
      rw [headResources]
      split
      · refine ⟨by
          show [(⟨rlocType, 0⟩ : ResourceKey), ⟨dataType, 0⟩].Nodup
          decide, ?_⟩
        intro key hk
        rcases List.mem_cons.mp hk with rfl | last
        · exact ⟨alone, rfl, .inl rfl⟩
        · rw [List.mem_singleton.mp last]
          exact ⟨alone, rfl, .inr rfl⟩
      · refine ⟨List.pairwise_singleton _ _, ?_⟩
        intro key hk
        rw [List.mem_singleton.mp hk]
        exact ⟨alone, rfl, .inr rfl⟩

/-- No companion has a key of the data. -/
theorem IsMade.companions_ne_data
    (h : IsMade exe options role code further data) {key other : ResourceKey}
    (hk : key ∈ (companions exe options role).map Prod.fst)
    (ho : other ∈ data.map Prod.fst) : key.type ≠ other.type := by
  obtain ⟨alone, -, types⟩ := h.data_keys.2 other ho
  obtain ⟨r, hr, rfl⟩ := List.mem_map.mp hk
  have code := companions_type alone hr
  have differ : codeType ≠ rlocType ∧ codeType ≠ dataType
      ∧ prefType ≠ rlocType ∧ prefType ≠ dataType := by decide
  rintro same
  rw [same] at code
  rcases types with rloc | data
  · rw [rloc] at code
    rcases code with c | p
    · exact differ.1 c.symm
    · exact differ.2.2.1 p.symm
  · rw [data] at code
    rcases code with c | p
    · exact differ.2.1 c.symm
    · exact differ.2.2.2 p.symm

/-- The keys of the further code are distinct, and no others before it have
    them. -/
theorem IsMade.nodup_code (h : IsMade exe options role code further data) :
    ((firstResources exe options role code ++ further).map Prod.fst).Nodup
      ↔ role.key ∉ (companions exe options role).map Prod.fst := by
  obtain ⟨-, nodup, free⟩ := numbered?_spec h.numbers
  rw [List.map_append, List.nodup_append, firstResources, List.map_cons,
    List.nodup_cons]
  constructor
  · rintro ⟨⟨new, -⟩, -, -⟩
    exact new
  · intro new
    refine ⟨⟨new, nodup_companions exe options role⟩, nodup, ?_⟩
    rintro key used _ made rfl
    exact free key made used

/-- Each further section becomes a resource with its data. -/
theorem IsMade.further_data (h : IsMade exe options role code further data) :
    further.map Prod.snd
      = (extraSections exe (extraNames options role)).map
          fun s => s.1.data := by
  rw [(numbered?_spec h.numbers).1, List.map_map]
  rfl

/-- Further code of the type of data has the keys after the main code, until
    these come round to it. -/
theorem IsMade.further_getElem?
    (h : IsMade exe options role code further data) {key : ResourceKey}
    (hk : key ∈ data.map Prod.fst) (type : key.type = role.key.type) {j : Nat}
    (round : j < idCount - 1)
    (section_lt : j < (extraSections exe (extraNames options role)).length) :
    (further.map Prod.fst)[j]? = some (role.key.after (j + 1)) := by
  refine numbered?_getElem? h.numbers (Nat.sub_le _ _) ?_ round ?_
  · intro i hi used
    rcases List.mem_cons.mp used with main | companion
    · have zeroth : role.key.after (i + 1) = role.key.after 0 :=
        main.trans role.key.after_zero.symm
      exact ResourceKey.after_ne (Nat.succ_pos i) (by omega) zeroth.symm
    · exact h.companions_ne_data companion hk type.symm
  · rwa [List.length_map]

/-- A key of the data that is not that of the main code is one of the
    further code exactly if the numbers after the main code come round to
    zero. -/
theorem IsMade.mem_further_iff (h : IsMade exe options role code further data)
    {key : ResourceKey} (hk : key ∈ data.map Prod.fst)
    (differs : role.key ≠ key) :
    key ∈ further.map Prod.fst
      ↔ key.type = role.key.type ∧ idCount ≤ role.key.id.toNat
        + (extraSections exe (extraNames options role)).length := by
  have size : idCount = 2 ^ 16 := rfl
  have small := role.key.id.toNat_lt
  obtain ⟨-, zero, -⟩ := h.data_keys.2 key hk
  have length : (further.map Prod.fst).length
      = (extraSections exe (extraNames options role)).length := by
    have lengths := congrArg List.length h.further_data
    rw [List.length_map, List.length_map] at lengths
    rw [List.length_map, lengths]
  constructor
  · intro made
    obtain ⟨r, hr, rfl⟩ := List.mem_map.mp made
    have type := numbered?_type h.numbers hr
    refine ⟨type, Nat.le_of_not_lt fun room => ?_⟩
    -- before that, the numbers are too small to be zero
    obtain ⟨j, found⟩ := List.getElem?_of_mem made
    have section_lt := (List.getElem?_eq_some_iff.mp found).1
    rw [length] at section_lt
    have same := Option.some.inj
      (found.symm.trans (h.further_getElem? hk type (by omega) section_lt))
    have ids := congrArg (fun key => key.id.toNat) same
    rw [zero, ResourceKey.toNat_id_after, Nat.mod_eq_of_lt (by omega)] at ids
    exact absurd ids.symm (Nat.succ_ne_zero _)
  · rintro ⟨type, round⟩
    have zeroId : key.id.toNat = 0 := congrArg UInt16.toNat zero
    have positive : 0 < role.key.id.toNat := by
      refine Nat.pos_of_ne_zero fun none => differs ?_
      exact ResourceKey.eq_of_type_of_toNat type.symm (none.trans zeroId.symm)
    obtain ⟨j, last⟩ := Nat.exists_eq_add_of_lt
      (show role.key.id.toNat < idCount from small)
    have back : role.key.after (j + 1) = key := by
      refine ResourceKey.eq_of_type_of_toNat type.symm ?_
      rw [ResourceKey.toNat_id_after, zeroId]
      omega
    have found := h.further_getElem? hk type (show j < _ by omega)
      (by omega)
    rw [back] at found
    exact List.mem_of_getElem? found

/-- The key of the main code keeps clear of the keys that are fixed: of its
    companions' and of those of the data.  If it is of the type of one of
    the latter, there are numbers for the further code before they come
    round to zero. -/
structure KeysApart (exe : Executable) (options : PackOptions)
    (role : CodeRole) (data : List Resource) : Prop where
  notCompanion : role.key ∉ (companions exe options role).map Prod.fst
  notData : role.key ∉ data.map Prod.fst
  room : ∀ key ∈ data.map Prod.fst, key.type = role.key.type →
    role.key.id.toNat + (extraSections exe (extraNames options role)).length
      < idCount

/-- The keys of what is made are distinct exactly if that of the main code
    keeps clear of the others. -/
theorem IsMade.nodup_iff (h : IsMade exe options role code further data) :
    ((firstResources exe options role code ++ further ++ data).map
        Prod.fst).Nodup
      ↔ KeysApart exe options role data := by
  rw [List.map_append, List.nodup_append, h.nodup_code]
  constructor
  · rintro ⟨companions, -, apart⟩
    have main : role.key
        ∈ (firstResources exe options role code ++ further).map Prod.fst :=
      List.mem_cons_self
    refine ⟨companions, fun used => apart _ main _ used rfl, ?_⟩
    intro key hk type
    refine Nat.lt_of_not_le fun round => ?_
    have made := (h.mem_further_iff hk (apart _ main _ hk)).mpr ⟨type, round⟩
    rw [List.map_append] at apart
    exact apart _ (List.mem_append_right _ made) _ hk rfl
  · intro keys
    refine ⟨keys.notCompanion, h.data_keys.1, ?_⟩
    rintro key hk _ used rfl
    have differs : role.key ≠ key := fun same => keys.notData (same ▸ used)
    rw [List.map_append] at hk
    rcases List.mem_append.mp hk with first | made
    · rcases List.mem_cons.mp first with main | companion
      · exact differs main.symm
      · exact h.companions_ne_data companion used rfl
    · obtain ⟨type, round⟩ := (h.mem_further_iff used differs).mp made
      exact absurd (keys.room key used type) (Nat.not_lt.mpr round)

/-! ## Packed executables -/

/-- **When no resource replaces another one.**  The resources of a packed
    executable have distinct keys exactly if the key of the main code keeps
    clear of the others.  Then each of them is in the database with its own
    bytes, those of the further code being the data of the sections that
    were asked for and found. -/
theorem pack_keys_nodup_iff {origin : String} {db : Database .resource}
    (packed : (pack exe options origin).result = .ok db) :
    ∃ role code further data, IsMade exe options role code further data
      ∧ further.map Prod.snd
        = (extraSections exe (extraNames options role)).map
            (fun s => s.1.data)
      ∧ (((firstResources exe options role code ++ further ++ data).map
            Prod.fst).Nodup
          ↔ KeysApart exe options role data)
      ∧ (KeysApart exe options role data →
          ∀ r ∈ firstResources exe options role code ++ further ++ data,
            db.get? r.1 = some r.2) := by
  obtain ⟨role, code, further, data, parts, rfl⟩ := pack_eq_insertAll packed
  refine ⟨role, code, further, data, parts, parts.further_data,
    parts.nodup_iff, ?_⟩
  intro keys r hr
  exact Database.get?_insertAll_of_nodup (Database.new .resource Header.blank)
    (parts.nodup_iff.mpr keys) hr

end Made

/-- Code, further code and a byte of data. -/
def furtherSection : Executable where
  architecture := .m68k
  entry := 0x1000
  sections := [
    ⟨".text", 0x1000, 2, [0x4E, 0x75], true⟩,
    ⟨".text.ui", 0x2000, 2, [0x4E, 0x71], true⟩,
    ⟨".data", 0x8000, 1, [7], false⟩]
  symbols := []
  relocations := []

/-- The options of a product with this main code and the section `.text.ui`
    as further code. -/
def furtherOptions (product : Product) (mainCode : ResourceKey) :
    PackOptions :=
  { PackOptions.standard product with
    mainCode := mainCode
    extraCode := [".text.ui"] }

/-- The role and the keys of the data of that executable. -/
private theorem furtherSection_parts {options : PackOptions} {role : CodeRole}
    {code : MainCode} {further data : List Resource}
    (emits : options.emitData = true)
    (unforced : options.forceRelocations = false)
    (h : IsMade furtherSection options role code further data) :
    role = ⟨options.mainCode, false⟩
      ∧ data.map Prod.fst = [⟨dataType, 0⟩] := by
  have hasRole : .ok ⟨options.mainCode, false⟩ = Except.ok (ε := PackError) role :=
    h.hasRole
  obtain rfl := Except.ok.inj hasRole
  refine ⟨rfl, ?_⟩
  obtain ⟨encoded, -, rfl⟩ := h.packed (by simp [discardsData, emits])
  have nothing : headResources options .m68k
      (packedThreads furtherSection options code) = [] :=
    if_neg (not_or.mpr ⟨fun some => some rfl, by simp [unforced]⟩)
  have heads : headResources options furtherSection.architecture
      (packedThreads furtherSection options code) = [] := nothing
  rw [heads]
  rfl

theorem pack_keys_furtherSection :
    ∃ db, (pack furtherSection (furtherOptions .application ⟨codeType, 1⟩)
        "sample").result = .ok db
      ∧ db.get? ⟨codeType, 0⟩ = some jumpTableStub
      ∧ db.get? ⟨codeType, 1⟩ = some [0x4E, 0x75]
      ∧ db.get? ⟨codeType, 2⟩ = some [0x4E, 0x71] := by
  obtain ⟨db, packed⟩ := exists_eq_ok_of_isOk
    (show (pack furtherSection (furtherOptions .application ⟨codeType, 1⟩)
      "sample").result.isOk = true by cbv)
  obtain ⟨role, code, further, data, parts, -, -, found⟩ :=
    pack_keys_nodup_iff packed
  obtain ⟨rfl, keys⟩ := furtherSection_parts rfl rfl parts
  have main : HasMainCode furtherSection
      ⟨⟨".text", 0x1000, 2, [0x4E, 0x75], true⟩, 0, 0, []⟩ :=
    ⟨rfl, by cbv⟩
  obtain rfl := parts.main.unique main
  have numbered : some [(⟨codeType, 2⟩, [0x4E, 0x71])] = some further :=
    parts.numbers
  obtain rfl := Option.some.inj numbered
  have apart : KeysApart furtherSection
      (furtherOptions .application ⟨codeType, 1⟩) ⟨⟨codeType, 1⟩, false⟩
      data := by
    refine ⟨by decide, ?_, ?_⟩
    · rw [keys]
      decide
    · rw [keys]
      decide
  refine ⟨db, packed, found apart (⟨codeType, 0⟩, _) ?_,
    found apart (⟨codeType, 1⟩, _) ?_, found apart (⟨codeType, 2⟩, _) ?_⟩
  · exact List.mem_append_left _ (by decide)
  · exact List.mem_append_left _ (by decide)
  · exact List.mem_append_left _ (by decide)

/-- The further section is made into `data #0`, and the data replace it. -/
theorem replacedSection_lost :
    ∃ made db, (resources furtherSection
          (furtherOptions .generic ⟨dataType, 65535⟩) "sample").result
        = .ok made
      ∧ (pack furtherSection (furtherOptions .generic ⟨dataType, 65535⟩)
          "sample").result = .ok db
      ∧ (⟨dataType, 0⟩, [0x4E, 0x71]) ∈ made
      ∧ db.get? ⟨dataType, 0⟩ ≠ some [0x4E, 0x71] := by
  obtain ⟨db, packed⟩ := exists_eq_ok_of_isOk
    (show (pack furtherSection (furtherOptions .generic ⟨dataType, 65535⟩)
      "sample").result.isOk = true by cbv)
  obtain ⟨made, hmade, returned⟩ := Run.result_bind_eq_ok_iff.mp packed
  obtain ⟨role, code, further, data, parts, rfl⟩ := resources_eq_ok hmade
  obtain ⟨rfl, -⟩ := furtherSection_parts rfl rfl parts
  have numbered : some [(⟨dataType, 0⟩, [0x4E, 0x71])] = some further :=
    parts.numbers
  obtain rfl := Option.some.inj numbered
  obtain ⟨encoded, encodes, rfl⟩ := parts.packed rfl
  obtain rfl := Except.ok.inj returned
  refine ⟨_, _, hmade, packed, ?_, ?_⟩
  · exact List.mem_append_left _ (List.mem_append_right _
      (List.mem_singleton.mpr rfl))
  · rw [← List.append_assoc, Database.get?_insertAll_concat]
    -- the section's two bytes are too few for encoded data
    intro same
    have decoded := Compression.decodeData_encodeData encodes (Nat.le_refl _)
    rw [Option.some.inj same] at decoded
    cases decoded

end Handheld
