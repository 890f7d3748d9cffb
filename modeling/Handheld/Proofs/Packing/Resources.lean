import Handheld.Packing.Basic
import Handheld.Proofs.Database.Collection
import Handheld.Proofs.Packing.Chains

/-! # Packed resources — what packing makes of an executable

    A sequence of steps that succeeds is taken apart step by step:

    • `IsMade` says what the resources of an executable are made of: its
      role, its main code, the further code and the data;
    • `resources_eq_ok`: resources that are made are the main code, its
      companions, the further code and the data, in this order;
    • `pack_eq_ok`: if an executable that is not standalone is packed with
      its data, then `data #0` is the encoded image into which its
      relocations were threaded, and `rloc #0` holds the heads of the chains,
      unless it is not needed. -/

namespace Handheld

/-! ## Runs that succeed -/

/-- A sequence succeeds if its parts do. -/
theorem bind_eq_ok_iff {ε α β : Type} {x : Except ε α} {f : α → Except ε β}
    {b : β} : (x >>= f) = .ok b ↔ ∃ a, x = .ok a ∧ f a = .ok b := by
  cases x with
  | ok a => simp [bind, Except.bind]
  | error e => simp [bind, Except.bind]

/-- Seeing an error as another one does not make it a success. -/
theorem mapError_eq_ok_iff {ε δ α : Type} {x : Except ε α} {f : ε → δ} {a : α} :
    x.mapError f = .ok a ↔ x = .ok a := by
  cases x with
  | ok b => simp [Except.mapError]
  | error e => simp [Except.mapError]

/-- A sequence that says something succeeds if its parts do. -/
theorem Run.result_bind_eq_ok_iff {ε α β : Type} {x : Run ε α}
    {f : α → Run ε β} {b : β} :
    (x >>= f).result = .ok b ↔ ∃ a, x.result = .ok a ∧ (f a).result = .ok b := by
  rw [Run.result_bind, bind_eq_ok_iff]

/-- A run that is known to succeed has a result. -/
theorem exists_eq_ok_of_isOk {ε α : Type} {x : Except ε α}
    (h : x.isOk = true) : ∃ a, x = .ok a := by
  cases x with
  | ok a => exact ⟨a, rfl⟩
  | error e => cases h

/-- A remark does not change the result. -/
theorem Run.result_tell_bind {ε β : Type} (events : List Event)
    (f : Unit → Run ε β) : (Run.tell events >>= f).result = (f ()).result := by
  rw [Run.result_bind]
  rfl

/-! ## Keys of code -/

theorem numbered?_cons_eq_some_iff {type : Tag} {taken : List ResourceKey}
    {id : UInt16} {s : Section} {sections : List Section}
    {made : List Resource} :
    numbered? type taken id (s :: sections) = some made
      ↔ ∃ next later, freeId? type taken idCount id = some next
        ∧ numbered? type (⟨type, next⟩ :: taken) next sections = some later
        ∧ made = (⟨type, next⟩, s.data) :: later := by
  rw [numbered?]
  cases freeId? type taken idCount id with
  | none => simp
  | some next =>
      constructor
      · intro h
        obtain ⟨later, rest, rfl⟩ := Option.map_eq_some_iff.mp h
        exact ⟨next, later, rfl, rest, rfl⟩
      · rintro ⟨_, later, same, rest, rfl⟩
        cases same
        exact Option.map_eq_some_iff.mpr ⟨later, rest, rfl⟩

theorem numbered?_type {type : Tag} {taken : List ResourceKey} {id : UInt16}
    {sections : List Section} {made : List Resource}
    (h : numbered? type taken id sections = some made) {r : Resource}
    (hr : r ∈ made) : r.1.type = type := by
  induction sections generalizing taken id made with
  | nil =>
      cases h
      cases hr
  | cons s sections ih =>
      obtain ⟨next, later, -, rest, rfl⟩ := numbered?_cons_eq_some_iff.mp h
      rcases List.mem_cons.mp hr with rfl | member
      · rfl
      · exact ih rest member

/-- The companions of an application are code or preferences. -/
theorem companions_type {exe : Executable} {options : PackOptions}
    {role : CodeRole} (alone : role.standalone = false) {r : Resource}
    (h : r ∈ companions exe options role) :
    r.1.type = codeType ∨ r.1.type = prefType := by
  rw [companions, if_neg (by simp [alone])] at h
  split at h
  case isTrue =>
    simp only [List.mem_cons, List.not_mem_nil, or_false] at h
    rcases h with rfl | rfl
    · exact .inl rfl
    · exact .inr rfl
  case isFalse => cases h

/-- They are no chain heads. -/
theorem companions_type_ne {exe : Executable} {options : PackOptions}
    {role : CodeRole} (alone : role.standalone = false) {r : Resource}
    (h : r ∈ companions exe options role) : r.1.type ≠ rlocType := by
  rcases companions_type alone h with code | pref
  · rw [code]
    decide
  · rw [pref]
    decide

/-! ## What is packed -/

/-- The main code of an executable. -/
structure HasMainCode (exe : Executable) (code : MainCode) : Prop where
  found : exe.find? ".text" = some (code.text, code.index)
  made : MainCode.ofText exe code.text code.index = .ok code

/-- There is only one main code. -/
theorem HasMainCode.unique {exe : Executable} {code other : MainCode}
    (h : HasMainCode exe code) (h' : HasMainCode exe other) : code = other := by
  obtain ⟨text, index⟩ := Prod.mk.inj
    (Option.some.inj (h.found.symm.trans h'.found))
  have made := h.made
  rw [text, index] at made
  exact Except.ok.inj (made.symm.trans h'.made)

theorem MainCode.ofText_eq_ok {exe : Executable} {text : Section} {index : Nat}
    {code : MainCode} (h : ofText exe text index = .ok code) :
    code.text = text ∧ code.index = index := by
  rw [ofText] at h
  split at h
  case h_1 => cases h
  case h_2 offset _ =>
    split at h
    case isTrue =>
      cases h
      exact ⟨rfl, rfl⟩
    case isFalse =>
      split at h
      case h_1 => cases h
      case h_2 =>
        cases h
        exact ⟨rfl, rfl⟩

/-- The end of `.bss` is checked to be a number of 64 bits. -/
theorem Executable.checkSize_eq_error_iff {exe : Executable} {e : PackError} :
    exe.checkSize = .error e
      ↔ 2 ^ 64 ≤ exe.bssEnd ∧ e = .standstill .sizeOverflow := by
  rw [checkSize]
  split
  case isTrue short => simpa using fun long => absurd short (Nat.not_lt.mpr long)
  case isFalse long => simpa [eq_comm] using fun _ => Nat.le_of_not_lt long

theorem Executable.checkSize_eq_ok_iff {exe : Executable} :
    exe.checkSize = .ok () ↔ exe.bssEnd < 2 ^ 64 := by
  rw [checkSize]
  split
  case isTrue short => exact iff_of_true rfl short
  case isFalse long => exact iff_of_false nofun long

/-- The steps of packing data, without what they say. -/
theorem result_packData (l : Layout) (options : PackOptions) (origin : String)
    (chains : Nat) :
    (packData l options origin chains).result = (do
      l.executable.checkSize
      let data ← (Compression.encodeData
        (threadAll l l.executable.dataImage chains).image
          options.effort).mapError .compression
      return headResources options l.executable.architecture
          (threadAll l l.executable.dataImage chains)
        ++ [(⟨dataType, 0⟩, data)]) := by
  simp only [packData, Run.result_bind]
  rfl

theorem packData_eq_ok {l : Layout} {options : PackOptions} {origin : String}
    {chains : Nat} {made : List Resource}
    (h : (packData l options origin chains).result = .ok made) :
    l.executable.bssEnd < 2 ^ 64 ∧ ∃ data,
      Compression.encodeData
          (threadAll l l.executable.dataImage chains).image options.effort
        = .ok data
      ∧ made = headResources options l.executable.architecture
          (threadAll l l.executable.dataImage chains)
        ++ [(⟨dataType, 0⟩, data)] := by
  rw [result_packData] at h
  obtain ⟨_, sized, afterSize⟩ := bind_eq_ok_iff.mp h
  obtain ⟨data, encoded, rest⟩ := bind_eq_ok_iff.mp afterSize
  exact ⟨Executable.checkSize_eq_ok_iff.mp sized, data,
    mapError_eq_ok_iff.mp encoded, (Except.ok.inj rest).symm⟩

/-- The further sections that are packed with an executable. -/
def packedExtra (exe : Executable) (options : PackOptions) :
    List (Section × Nat) :=
  extraSections exe options.extraCode

/-- The chains that are threaded when an executable with this main code is
    packed. -/
def packedThreads (exe : Executable) (options : PackOptions)
    (code : MainCode) : Threads :=
  threadAll (layoutOf exe code (packedExtra exe options)) exe.dataImage
    (chainCount (packedExtra exe options))

/-- The resources of code with this role that come before the further
    ones. -/
def firstResources (exe : Executable) (options : PackOptions)
    (role : CodeRole) (code : MainCode) : List Resource :=
  (role.key, code.bytes) :: companions exe options role

/-- What the resources of an executable are made of: the role of its main
    code, that code, the further code, the chains of which can be counted, with
    the next free numbers, and the data, unless it is left out. -/
structure IsMade (exe : Executable) (options : PackOptions) (role : CodeRole)
    (code : MainCode) (further data : List Resource) : Prop where
  hasRole : codeRole exe options = .ok role
  main : HasMainCode exe code
  counted : (extraSections exe (extraNames options role)).length ≤ maxExtra
  numbers : numbered? role.key.type
      ((firstResources exe options role code).map Prod.fst) role.key.id
      ((extraSections exe (extraNames options role)).map Prod.fst)
    = some further
  discarded : discardsData options role = true → data = []
  sized : discardsData options role = false → exe.bssEnd < 2 ^ 64
  packed : discardsData options role = false →
    ∃ encoded, Compression.encodeData (packedThreads exe options code).image
          options.effort = .ok encoded
      ∧ data = headResources options exe.architecture
          (packedThreads exe options code) ++ [(⟨dataType, 0⟩, encoded)]

/-- A role that keeps the data is not standalone. -/
theorem standalone_eq_false {options : PackOptions} {role : CodeRole}
    (keeps : discardsData options role = false) : role.standalone = false := by
  rw [discardsData, Bool.or_eq_false_iff] at keeps
  exact keeps.1

/-- It keeps the further sections, too. -/
theorem extraNames_of_keeps {options : PackOptions} {role : CodeRole}
    (keeps : discardsData options role = false) :
    extraNames options role = options.extraCode := by
  rw [extraNames, standalone_eq_false keeps, if_neg Bool.false_ne_true]

/-- The data of an executable with this role, if they can be packed. -/
theorem packDataUnlessDiscarded_eq_ok {exe : Executable}
    {options : PackOptions} {role : CodeRole} {code : MainCode}
    {origin : String} {made : List Resource}
    (h : (packDataUnlessDiscarded
        (layoutOf exe code (extraSections exe (extraNames options role)))
        options role origin
        (chainCount (extraSections exe (extraNames options role)))).result
      = .ok made) :
    (discardsData options role = true → made = [])
      ∧ (discardsData options role = false → exe.bssEnd < 2 ^ 64
        ∧ ∃ encoded, Compression.encodeData
            (packedThreads exe options code).image options.effort
              = .ok encoded
          ∧ made = headResources options exe.architecture
              (packedThreads exe options code)
            ++ [(⟨dataType, 0⟩, encoded)]) := by
  rw [packDataUnlessDiscarded] at h
  split at h
  case isTrue discards =>
    have nothing : made = [] := by
      split at h
      case isTrue =>
        rw [Run.result_tell_bind] at h
        exact (Except.ok.inj h).symm
      case isFalse => exact (Except.ok.inj h).symm
    refine ⟨fun _ => nothing, ?_⟩
    intro keeps
    cases discards.symm.trans keeps
  case isFalse keeps =>
    refine ⟨fun discards => absurd discards keeps, ?_⟩
    intro kept
    rw [extraNames_of_keeps kept] at h
    exact packData_eq_ok h

/-- The steps of packing an executable, without what they say. -/
theorem result_resources {exe : Executable} {text : Section} {index : Nat}
    (found : exe.find? ".text" = some (text, index)) (options : PackOptions)
    (origin : String) :
    (resources exe options origin).result = (do
      let role ← codeRole exe options
      let code ← MainCode.ofText exe text index
      let extra := extraSections exe (extraNames options role)
      let chains ← countChains extra
      let further ← furtherCode role (firstResources exe options role code) extra
      let data ← (packDataUnlessDiscarded (layoutOf exe code extra) options role
        origin chains.toNat).result
      return firstResources exe options role code ++ further ++ data) := by
  rw [resources, found]
  simp only [Run.result_bind]
  rfl

/-- Nothing is made without main code. -/
theorem result_resources_of_none {exe : Executable}
    (missing : exe.find? ".text" = none) (options : PackOptions)
    (origin : String) :
    (resources exe options origin).result = .error .textMissing := by
  rw [resources, missing]
  rfl

/-- Further code takes numbers, unless there are none left. -/
theorem furtherCode_eq_ok_iff {role : CodeRole} {first : List Resource}
    {extra : List (Section × Nat)} {further : List Resource} :
    furtherCode role first extra = .ok further
      ↔ numbered? role.key.type (first.map Prod.fst) role.key.id
          (extra.map Prod.fst) = some further := by
  rw [furtherCode]
  cases numbered? role.key.type (first.map Prod.fst) role.key.id
      (extra.map Prod.fst) with
  | some made => simp
  | none => simp

/-- Resources that are made are the main code, its companions, the further
    code and the data. -/
theorem resources_eq_ok {exe : Executable} {options : PackOptions}
    {origin : String} {made : List Resource}
    (h : (resources exe options origin).result = .ok made) :
    ∃ role code further data, IsMade exe options role code further data
      ∧ made = firstResources exe options role code ++ further ++ data := by
  cases found : exe.find? ".text" with
  | none =>
      rw [result_resources_of_none found] at h
      cases h
  | some text =>
  obtain ⟨text, index⟩ := text
  rw [result_resources found] at h
  obtain ⟨role, hasRole, afterRole⟩ := bind_eq_ok_iff.mp h
  obtain ⟨code, hasCode, afterCode⟩ := bind_eq_ok_iff.mp afterRole
  obtain ⟨chains, counts, afterChains⟩ := bind_eq_ok_iff.mp afterCode
  obtain ⟨further, numbers, afterFurther⟩ := bind_eq_ok_iff.mp afterChains
  obtain ⟨data, packs, returned⟩ := bind_eq_ok_iff.mp afterFurther
  obtain ⟨rfl, rfl⟩ := MainCode.ofText_eq_ok hasCode
  obtain ⟨counted, number⟩ := countChains_eq_ok counts
  rw [number] at packs
  obtain ⟨discarded, packed⟩ := packDataUnlessDiscarded_eq_ok packs
  exact ⟨role, code, further, data,
    ⟨hasRole, ⟨found, hasCode⟩, counted, furtherCode_eq_ok_iff.mp numbers,
      discarded, fun keeps => (packed keeps).1, fun keeps => (packed keeps).2⟩,
    (Except.ok.inj returned).symm⟩

/-- A packed executable is the collection of its resources. -/
theorem pack_eq_insertAll {exe : Executable} {options : PackOptions}
    {origin : String} {db : Database .resource}
    (h : (pack exe options origin).result = .ok db) :
    ∃ role code further data, IsMade exe options role code further data
      ∧ db = (Database.new .resource Header.blank).insertAll
        (firstResources exe options role code ++ further ++ data) := by
  rw [pack] at h
  obtain ⟨made, hmade, returned⟩ := Run.result_bind_eq_ok_iff.mp h
  obtain ⟨role, code, further, data, parts, rfl⟩ := resources_eq_ok hmade
  exact ⟨role, code, further, data, parts, (Except.ok.inj returned).symm⟩

/-- Without a disposition, the main code has the key of the options. -/
theorem codeRole_of_alone {exe : Executable}
    (alone : exe.find? ".disposn" = none) (options : PackOptions) :
    codeRole exe options = .ok ⟨options.mainCode, false⟩ := by
  rw [codeRole, alone]

/-- The same for code that is not standalone. -/
theorem pack_alone_eq_insertAll {exe : Executable} {options : PackOptions}
    {origin : String} {db : Database .resource}
    (alone : exe.find? ".disposn" = none)
    (h : (pack exe options origin).result = .ok db) :
    ∃ code further data,
      IsMade exe options ⟨options.mainCode, false⟩ code further data
        ∧ db = (Database.new .resource Header.blank).insertAll
          (firstResources exe options ⟨options.mainCode, false⟩ code
            ++ further ++ data) := by
  obtain ⟨role, code, further, data, parts, rfl⟩ := pack_eq_insertAll h
  obtain rfl : _ = role :=
    Except.ok.inj ((codeRole_of_alone alone options).symm.trans parts.hasRole)
  exact ⟨code, further, data, parts, rfl⟩

/-- Nothing is packed without a number for each chain. -/
theorem chainCount_packedExtra_lt {exe : Executable} {options : PackOptions}
    {origin : String} {db : Database .resource}
    (alone : exe.find? ".disposn" = none)
    (h : (pack exe options origin).result = .ok db) :
    chainCount (packedExtra exe options) < 2 ^ 16 := by
  obtain ⟨_, _, _, parts, -⟩ := pack_alone_eq_insertAll alone h
  exact chainCount_lt parts.counted

/-- Its code has no keys of heads, unless it is asked to. -/
theorem IsMade.code_type_ne {exe : Executable} {options : PackOptions}
    {code : MainCode} {further data : List Resource}
    (h : IsMade exe options ⟨options.mainCode, false⟩ code further data)
    (type : options.mainCode.type ≠ rlocType) {r : Resource}
    (hr : r ∈ firstResources exe options ⟨options.mainCode, false⟩ code
      ++ further) : r.1.type ≠ rlocType := by
  rcases List.mem_append.mp hr with first | made
  · rcases List.mem_cons.mp first with rfl | companion
    · exact type
    · exact companions_type_ne rfl companion
  · rw [numbered?_type h.numbers made]
    exact type

/-- Whether the heads of the chains are stored. -/
def StoresHeads (options : PackOptions) (t : Threads) : Prop :=
  t.sites ≠ [] ∨ options.forceRelocations = true

instance (options : PackOptions) (t : Threads) :
    Decidable (StoresHeads options t) :=
  inferInstanceAs (Decidable (_ ∨ _))

/-- Packing an executable that is not standalone with its data makes
    `data #0`, and `rloc #0` if the heads are stored.  If they are not, only
    code can have that key. -/
theorem pack_data_eq_ok {exe : Executable} {options : PackOptions}
    {origin : String} {db : Database .resource}
    (alone : exe.find? ".disposn" = none) (emits : options.emitData = true)
    (h : (pack exe options origin).result = .ok db) :
    ∃ code data, HasMainCode exe code
      ∧ Compression.encodeData (packedThreads exe options code).image
          options.effort = .ok data
      ∧ db.get? ⟨dataType, 0⟩ = some data
      ∧ (StoresHeads options (packedThreads exe options code) →
        db.get? ⟨rlocType, 0⟩ = some
          ((packedThreads exe options code).headBytes exe.architecture))
      ∧ (options.mainCode.type ≠ rlocType →
        ¬ StoresHeads options (packedThreads exe options code) →
        db.get? ⟨rlocType, 0⟩ = none) := by
  obtain ⟨code, further, made, parts, rfl⟩ := pack_alone_eq_insertAll alone h
  have keeps : discardsData options ⟨options.mainCode, false⟩ = false := by
    simp [discardsData, emits]
  obtain ⟨data, encoded, rfl⟩ := parts.packed keeps
  have differ : (⟨dataType, 0⟩ : ResourceKey) ≠ ⟨rlocType, 0⟩ := by decide
  refine ⟨code, data, parts.main, encoded, ?_, ?_, ?_⟩
  · rw [← List.append_assoc]
    exact Database.get?_insertAll_concat _ _ _ _
  · intro stores
    have heads : headResources options exe.architecture
        (packedThreads exe options code) = [(⟨rlocType, 0⟩,
          (packedThreads exe options code).headBytes exe.architecture)] :=
      if_pos stores
    rw [heads, ← List.append_assoc, Database.insertAll_append,
      Database.get?_insertAll_of_ne]
    · exact Database.get?_insertAll_concat _ _ _ _
    · intro r hr
      rw [List.mem_singleton.mp hr]
      exact differ
  · intro type nothing
    have heads : headResources options exe.architecture
        (packedThreads exe options code) = [] := if_neg nothing
    rw [heads, Database.get?_insertAll_of_ne]
    · exact Database.get?_new .resource _ _
    · rintro r hr same
      rcases List.mem_append.mp hr with code | data
      · exact parts.code_type_ne type code (congrArg ResourceKey.type same)
      · rw [List.mem_singleton.mp data] at same
        exact differ same

/-- Packing an executable that is not standalone with its data makes these
    two resources of the data. -/
theorem pack_eq_ok {exe : Executable} {options : PackOptions}
    {origin : String} {db : Database .resource}
    (alone : exe.find? ".disposn" = none) (emits : options.emitData = true)
    (type : options.mainCode.type ≠ rlocType)
    (h : (pack exe options origin).result = .ok db) :
    ∃ code data, HasMainCode exe code
      ∧ Compression.encodeData (packedThreads exe options code).image
          options.effort = .ok data
      ∧ db.get? ⟨dataType, 0⟩ = some data
      ∧ db.get? ⟨rlocType, 0⟩
        = if (packedThreads exe options code).sites ≠ []
              ∨ options.forceRelocations = true
            then some ((packedThreads exe options code).headBytes
              exe.architecture)
            else none := by
  obtain ⟨code, data, main, encoded, hasData, heads, none⟩ :=
    pack_data_eq_ok alone emits h
  refine ⟨code, data, main, encoded, hasData, ?_⟩
  split
  case isTrue stores => exact heads stores
  case isFalse nothing => exact none type nothing

end Handheld
