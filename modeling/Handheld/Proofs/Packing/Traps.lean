import Handheld.Proofs.Bytes
import Handheld.Proofs.Packing.Keys
import Handheld.Proofs.Packing.Reports

/-! # Traps — what standalone code lists, and where the numbers end

    A section `.disposn` names the code as a standalone resource, and the
    section `.trap` lists traps of two bytes each.  They become resources
    with the numbers from 1000 on, of which there are as many as sixteen
    bits have room for.

    • `trapId?` is the number of a trap, converted and added with a check of
      both, and `listTraps` goes through the list until it fails;
    • `listTraps_eq`: that is a beginning of the list, and one warning if
      there is more of it;
    • `trapResources_eq`: the traps by the bytes of the section;
    • `pack_traps`: the resources of standalone code are its main code and
      these traps, and all of them are kept. -/

namespace Handheld

/-! ## Numbers of traps -/

/-- What is reported of a list that is too long. -/
def tooManyTraps (origin : String) : Diagnostic :=
  ⟨.warning, origin, "too many trap numbers in .trap; ignoring the rest"⟩

/-- The number of the trap at a position of the list.  The position has to be
    a number of sixteen bits, and so has its sum with the first number. -/
def trapId? (i : Nat) : Option UInt16 := do
  let position ← if i < UInt16.size then some i.toUInt16 else none
  if firstTrapId + position.toNat < UInt16.size then
    some (firstTrapId.toUInt16 + position)
  else none

/-- The resources of the traps from a position of the list on, and what is
    reported.  The first trap without a number ends the list. -/
def listTraps (origin : String) : Nat → List Bytes → List Resource × Diagnostics
  | _, [] => ([], [])
  | i, trap :: traps =>
      match trapId? i with
      | none => ([], [tooManyTraps origin])
      | some id =>
          let (later, problems) := listTraps origin (i + 1) traps
          ((⟨trapType, id⟩, trap) :: later, problems)

theorem firstTrapId_add_maxTraps : firstTrapId + maxTraps = UInt16.size := rfl

/-- The first `maxTraps` positions have numbers. -/
theorem trapId?_of_lt {i : Nat} (h : i < maxTraps) :
    trapId? i = some (firstTrapId + i).toUInt16 := by
  have room := firstTrapId_add_maxTraps
  have small : i < UInt16.size := by omega
  have same : i.toUInt16.toNat = i := UInt16.toNat_ofNat_of_lt' small
  rw [trapId?, if_pos small]
  show (if firstTrapId + i.toUInt16.toNat < UInt16.size then _ else _) = _
  rw [same, if_pos (by omega)]
  exact congrArg some (UInt16.ofNat_add firstTrapId i).symm

/-- No other position has. -/
theorem trapId?_of_le {i : Nat} (h : maxTraps ≤ i) : trapId? i = none := by
  have room := firstTrapId_add_maxTraps
  rw [trapId?]
  by_cases small : i < UInt16.size
  · have same : i.toUInt16.toNat = i := UInt16.toNat_ofNat_of_lt' small
    rw [if_pos small]
    show (if firstTrapId + i.toUInt16.toNat < UInt16.size then _ else _) = _
    rw [same, if_neg (by omega)]
  · rw [if_neg small]
    rfl

/-- Numbers do not wrap around. -/
theorem toNat_trapId {i : Nat} (h : i < maxTraps) :
    (firstTrapId + i).toUInt16.toNat = firstTrapId + i := by
  have room := firstTrapId_add_maxTraps
  exact UInt16.toNat_ofNat_of_lt' (by omega)

/-! ## The list of traps -/

/-- What is listed is a beginning of the list, and there is a warning exactly
    if there is more of it. -/
theorem listTraps_eq (origin : String) (i : Nat) (traps : List Bytes) :
    listTraps origin i traps
      = (((traps.take (maxTraps - i)).zipIdx (firstTrapId + i)).map
            fun (trap, id) => (⟨trapType, id.toUInt16⟩, trap),
          if maxTraps - i < traps.length then [tooManyTraps origin] else []) := by
  -- from position `i` on there are `maxTraps - i` numbers left
  induction traps generalizing i with
  | nil =>
      have nothing : ¬ maxTraps - i < ([] : List Bytes).length :=
        Nat.not_lt_zero _
      rw [listTraps, List.take_nil, if_neg nothing]
      rfl
  | cons trap traps ih =>
      rw [listTraps]
      by_cases room : i < maxTraps
      · obtain ⟨left, more⟩ := Nat.exists_eq_add_of_lt room
        have next : maxTraps - i = maxTraps - (i + 1) + 1 := by omega
        rw [trapId?_of_lt room, next, List.take_succ_cons, List.zipIdx_cons,
          List.map_cons, List.length_cons, Nat.add_assoc firstTrapId]
        simp only [ih, Nat.add_lt_add_iff_right]
      · have beyond := Nat.le_of_not_lt room
        have more : 0 < (trap :: traps).length := Nat.succ_pos _
        rw [trapId?_of_le beyond, Nat.sub_eq_zero_of_le beyond,
          List.take_zero, if_pos more]
        rfl

/-- The traps that are packed are those that are listed. -/
theorem listTraps_trapList (exe : Executable) (origin : String) :
    listTraps origin 0 (trapList exe)
      = (trapResources exe,
          if maxTraps < (trapList exe).length then [tooManyTraps origin]
          else []) :=
  listTraps_eq origin 0 (trapList exe)

/-! ## The traps of a section -/

/-- How many traps of a section with these bytes are packed. -/
def trapCount (listed : Bytes) : Nat :=
  min (listed.length / 2) maxTraps

/-- The resource of a trap of a section with these bytes. -/
def trapAt (listed : Bytes) (i : Nat) : Resource :=
  (⟨trapType, (firstTrapId + i).toUInt16⟩,
    [Bytes.byteAt listed (2 * i), Bytes.byteAt listed (2 * i + 1)])

theorem trapList_eq {exe : Executable} {listed : Section} {index : Nat}
    (h : exe.find? ".trap" = some (listed, index)) :
    trapList exe = (List.range (listed.data.length / 2)).map fun i =>
      [Bytes.byteAt listed.data (2 * i), Bytes.byteAt listed.data (2 * i + 1)] := by
  rw [trapList, h]
  show Bytes.chunks 2 listed.data = _
  rw [Bytes.chunks_eq]
  refine List.map_congr_left fun i hi => ?_
  have within := List.mem_range.mp hi
  rw [Nat.mul_comm i, Bytes.slice_two (by omega)]

theorem length_trapList {exe : Executable} {listed : Section} {index : Nat}
    (h : exe.find? ".trap" = some (listed, index)) :
    (trapList exe).length = listed.data.length / 2 := by
  rw [trapList_eq h, List.length_map, List.length_range]

/-- The traps by the bytes of the section. -/
theorem trapResources_eq {exe : Executable} {listed : Section} {index : Nat}
    (h : exe.find? ".trap" = some (listed, index)) :
    trapResources exe
      = (List.range (trapCount listed.data)).map (trapAt listed.data) := by
  have taken : (List.range (listed.data.length / 2)).take maxTraps
      = List.range (trapCount listed.data) := by
    rw [List.take_range, trapCount, Nat.min_comm]
  rw [trapResources, trapList_eq h, ← List.map_take, taken]
  refine List.ext_getElem ?_ fun i _ _ => ?_
  · simp only [List.length_map, List.length_zipIdx]
  · simp only [List.getElem_map, List.getElem_zipIdx, List.getElem_range,
      trapAt]

/-! ## Standalone code -/

/-- The key that a section `.disposn` with these bytes gives the code. -/
def standaloneKey (named : Bytes) : ResourceKey :=
  ⟨Tag.readAt named 0, (Bytes.word named 4 2).toUInt16⟩

/-- The resources of standalone code are its main code and its traps. -/
def standaloneResources (named listed : Bytes) (code : MainCode) :
    List Resource :=
  (standaloneKey named, code.bytes)
    :: (List.range (trapCount listed)).map (trapAt listed)

section Standalone

variable {exe : Executable} {options : PackOptions} {origin : String}
  {named listed : Section} {i j : Nat}

theorem codeRole_eq_ok_iff (disposition : exe.find? ".disposn" = some (named, i))
    {role : CodeRole} :
    codeRole exe options = .ok role
      ↔ dispositionSize ≤ named.data.length
        ∧ role = ⟨standaloneKey named.data, true⟩ := by
  rw [codeRole, disposition]
  show (if named.data.length < dispositionSize then Except.error _ else _)
    = Except.ok role ↔ _
  by_cases short : named.data.length < dispositionSize
  · rw [if_pos short]
    constructor
    · intro h
      cases h
    · rintro ⟨long, -⟩
      exact absurd short (Nat.not_lt.mpr long)
  · rw [if_neg short]
    constructor
    · intro h
      exact ⟨Nat.le_of_not_lt short, (Except.ok.inj h).symm⟩
    · rintro ⟨-, rfl⟩
      rfl

/-- Code that is entered at its beginning needs no branch. -/
theorem MainCode.ofText_of_entry {text : Section} {index : Nat}
    (h : exe.entry = text.address) :
    ofText exe text index = .ok ⟨text, index, 0, []⟩ := by
  have offset : entryOffsetIn exe text = .ok 0 := by
    rw [entryOffsetIn, h, Nat.sub_self,
      if_pos ⟨Nat.le_refl _, Nat.zero_le _⟩]
  rw [ofText, offset]
  rfl

/-- Standalone code comes with nothing besides its traps. -/
theorem IsMade.standalone (disposition : exe.find? ".disposn" = some (named, i))
    {role : CodeRole} {code : MainCode} {further data : List Resource}
    (h : IsMade exe options role code further data) :
    role = ⟨standaloneKey named.data, true⟩ ∧ further = [] ∧ data = [] := by
  obtain ⟨-, rfl⟩ := (codeRole_eq_ok_iff disposition).mp h.hasRole
  have numbers : some [] = some further := h.numbers
  exact ⟨rfl, (Option.some.inj numbers).symm, h.discarded rfl⟩

/-- It is made if there is main code. -/
theorem isMade_standalone
    (disposition : exe.find? ".disposn" = some (named, i))
    (long : dispositionSize ≤ named.data.length) {code : MainCode}
    (main : HasMainCode exe code) :
    IsMade exe options ⟨standaloneKey named.data, true⟩ code [] [] where
  hasRole := (codeRole_eq_ok_iff disposition).mpr ⟨long, rfl⟩
  main := main
  counted := Nat.zero_le _
  numbers := rfl
  discarded _ := rfl
  sized keeps := by cases keeps
  packed keeps := by cases keeps

theorem firstResources_standalone
    (list : exe.find? ".trap" = some (listed, j)) (code : MainCode) :
    firstResources exe options ⟨standaloneKey named.data, true⟩ code
      = standaloneResources named.data listed.data code := by
  rw [firstResources, companions, if_pos rfl, trapResources_eq list]
  rfl

/-- The main code and the traps have distinct keys, unless the code is named
    as a trap. -/
theorem nodup_standaloneResources
    (list : exe.find? ".trap" = some (listed, j))
    (type : (standaloneKey named.data).type ≠ trapType) (code : MainCode) :
    ((standaloneResources named.data listed.data code).map Prod.fst).Nodup := by
  have traps := nodup_trapResources exe
  rw [trapResources_eq list] at traps
  refine List.nodup_cons.mpr ⟨fun used => ?_, traps⟩
  obtain ⟨r, hr, same⟩ := List.mem_map.mp used
  obtain ⟨i, -, rfl⟩ := List.mem_map.mp hr
  exact type (congrArg ResourceKey.type same).symm

/-- Too many traps are reported once, and others never are. -/
theorem IsMade.count_tooManyTraps
    (list : exe.find? ".trap" = some (listed, j)) {code : MainCode}
    (h : IsMade exe options ⟨standaloneKey named.data, true⟩ code [] [])
    (origin : String) :
    List.count (tooManyTraps origin) (pack exe options origin).diagnostics
      = if maxTraps < listed.data.length / 2 then 1 else 0 := by
  have initial : (tooManyTraps origin).message.toList.head? = some 't' := by
    show ("too many trap numbers in .trap; ignoring the rest").toList.head?
      = some 't'
    decide
  rw [(h.pack_yields origin).2, List.count_append, List.count_append,
    count_dataWarnings_spuriousWarnings initial (by decide), Nat.add_zero]
  show List.count _ (diagnosticsOf (companionEvents exe origin _)) + 0 = _
  rw [companionEvents, length_trapList list]
  by_cases many : maxTraps < listed.data.length / 2
  · rw [if_pos many, if_pos ⟨rfl, many⟩]
    exact List.count_singleton_self (α := Diagnostic)
  · rw [if_neg many, if_neg fun both => many both.2]
    rfl

/-- How many of the resources are traps. -/
theorem countP_standaloneResources
    (type : (standaloneKey named.data).type ≠ trapType) (code : MainCode) :
    List.countP (fun r => r.1.type = trapType)
        (standaloneResources named.data listed.data code)
      = trapCount listed.data := by
  rw [standaloneResources, List.countP_cons_of_neg (by simpa using type),
    List.countP_map]
  refine (List.countP_eq_length.mpr ?_).trans List.length_range
  intro i _
  show decide (trapType = trapType) = true
  exact decide_eq_true rfl

/-- **The traps of standalone code.**  An executable that is named by
    `.disposn`, and not as a trap, is packed into its main code and the traps
    of `.trap`, and nothing else.  The traps are pairs of bytes in their
    order with the numbers from 1000 on, as many as there are numbers; there
    is one warning if some are left over, and none otherwise.  No resource
    replaces another one. -/
theorem pack_traps (disposition : exe.find? ".disposn" = some (named, i))
    (type : Tag.readAt named.data 0 ≠ trapType)
    (list : exe.find? ".trap" = some (listed, j)) {db : Database .resource}
    (packed : (pack exe options origin).result = .ok db) :
    ∃ code, HasMainCode exe code
      ∧ (resources exe options origin).result
        = .ok (standaloneResources named.data listed.data code)
      ∧ db.toList.Perm (standaloneResources named.data listed.data code)
      ∧ db.get? (standaloneKey named.data) = some code.bytes
      ∧ db.toList.countP (fun r => r.1.type = trapType)
        = min (listed.data.length / 2) 64536
      ∧ (∀ i < min (listed.data.length / 2) 64536,
          ∃ id : UInt16, id.toNat = 1000 + i
            ∧ db.get? ⟨trapType, id⟩
              = some [Bytes.byteAt listed.data (2 * i),
                  Bytes.byteAt listed.data (2 * i + 1)])
      ∧ listTraps origin 0 (trapList exe)
        = ((List.range (min (listed.data.length / 2) 64536)).map
              (trapAt listed.data),
            if 64536 < listed.data.length / 2 then [tooManyTraps origin]
            else [])
      ∧ List.count (tooManyTraps origin) (pack exe options origin).diagnostics
        = if 64536 < listed.data.length / 2 then 1 else 0 := by
  obtain ⟨role, code, further, data, parts, built⟩ := pack_eq_insertAll packed
  obtain ⟨rfl, rfl, rfl⟩ := parts.standalone disposition
  have made := (parts.resources_yields origin).1
  rw [List.append_nil, List.append_nil, firstResources_standalone list]
    at made built
  have nodup := nodup_standaloneResources list type code
  have all : db.toList.Perm (standaloneResources named.data listed.data code) :=
    built ▸ Database.perm_insertAll Header.blank nodup
  have found : ∀ r ∈ standaloneResources named.data listed.data code,
      db.get? r.1 = some r.2 := fun r hr =>
    built ▸ Database.get?_insertAll_of_nodup
      (Database.new .resource Header.blank) nodup hr
  refine ⟨code, parts.main, made, all, found _ List.mem_cons_self, ?_, ?_, ?_,
    parts.count_tooManyTraps list origin⟩
  · rw [all.countP_eq]
    exact countP_standaloneResources type code
  · intro i hi
    have member : trapAt listed.data i
        ∈ standaloneResources named.data listed.data code :=
      List.mem_cons_of_mem _ (List.mem_map_of_mem (List.mem_range.mpr hi))
    exact ⟨_, toNat_trapId (Nat.lt_of_lt_of_le hi (Nat.min_le_right _ _)),
      found _ member⟩
  · rw [listTraps_trapList, trapResources_eq list, length_trapList list]
    rfl

end Standalone

/-- One trap more than there are numbers, and half of another one. -/
def crowdedList : Bytes :=
  List.replicate 129070 0xA0 ++ [0xA9, 0xF0, 0xA9, 0xF1, 0xA9]

theorem length_crowdedList : crowdedList.length = 129075 := by
  rw [crowdedList, List.length_append, List.length_replicate]
  rfl

/-- Standalone code that lists them. -/
def crowdedTraps : Executable where
  architecture := .m68k
  entry := 0x1000
  sections := [
    ⟨".text", 0x1000, 2, [0x4E, 0x75], true⟩,
    ⟨".disposn", 0, 6, [0x48, 0x41, 0x43, 0x4B, 0x03, 0xE8], false⟩,
    ⟨".trap", 0, 129075, crowdedList, false⟩]
  symbols := []
  relocations := []

/-- The last number goes to the last trap that has one. -/
theorem pack_traps_crowdedTraps :
    ∃ db, (pack crowdedTraps (PackOptions.standard .generic) "sample").result
        = .ok db
      ∧ db.get? ⟨.ofChars 'H' 'A' 'C' 'K', 1000⟩ = some [0x4E, 0x75]
      ∧ db.toList.countP (fun r => r.1.type = trapType) = 64536
      ∧ db.get? ⟨trapType, 65535⟩ = some [0xA9, 0xF0]
      ∧ List.count (tooManyTraps "sample")
          (pack crowdedTraps (PackOptions.standard .generic) "sample").diagnostics
        = 1 := by
  have main : HasMainCode crowdedTraps
      ⟨⟨".text", 0x1000, 2, [0x4E, 0x75], true⟩, 0, 0, []⟩ :=
    ⟨rfl, MainCode.ofText_of_entry rfl⟩
  have disposition : crowdedTraps.find? ".disposn" = some
      (⟨".disposn", 0, 6, [0x48, 0x41, 0x43, 0x4B, 0x03, 0xE8], false⟩, 1) := rfl
  obtain ⟨listed, list, bytes⟩ : ∃ listed,
      crowdedTraps.find? ".trap" = some (listed, 2)
        ∧ listed.data = crowdedList := ⟨_, rfl, rfl⟩
  have long : dispositionSize ≤ 6 := by decide
  have parts : IsMade crowdedTraps (PackOptions.standard .generic) _ _ [] [] :=
    isMade_standalone disposition long main
  have packed := (parts.pack_yields "sample").1
  have type : Tag.readAt [0x48, 0x41, 0x43, 0x4B, 0x03, 0xE8] 0 ≠ trapType := by
    decide
  obtain ⟨code, main', -, -, mainFound, count, traps, -, reported⟩ :=
    pack_traps disposition type list packed
  obtain rfl := main.unique main'
  rw [bytes, length_crowdedList] at count traps reported
  obtain ⟨id, number, last⟩ := traps 64535 (by decide)
  obtain rfl : id = 65535 := UInt16.toNat_inj.mp number
  have tail : ∀ k, Bytes.byteAt crowdedList (129070 + k)
      = Bytes.byteAt [0xA9, 0xF0, 0xA9, 0xF1, 0xA9] k := by
    intro k
    have length : (List.replicate 129070 (0xA0 : UInt8)).length = 129070 :=
      List.length_replicate
    rw [Bytes.byteAt, crowdedList, List.getD_append_right _ _ _ _ (by omega),
      length, Nat.add_sub_cancel_left]
    rfl
  rw [show 2 * 64535 = 129070 + 0 from rfl, Nat.add_assoc, tail, tail] at last
  exact ⟨_, packed, mainFound, count, last, reported⟩

end Handheld
