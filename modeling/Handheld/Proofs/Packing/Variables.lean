import Handheld.Proofs.Packing.Accounting

/-! # Variables — where references to data and zeros lead

    The data hold initialized variables, from `.data`, and others that are
    zero at first, from `.bss`.  A relocation that refers to a variable is
    threaded with the offset of the variable in the image:

    • `word_threaded` and `offset_threaded`: a relocation finds the word of the
      linker in its place, unless an earlier place overlaps it, and its offset
      stays there, unless a later one does;
    • `IsReference` is a relocation that is threaded for an address inside a
      section, and `IsReference.exists_base` what its offset is;
    • `isReference_same_iff`: an initialized variable and another one are at
      one place of the image only if `.bss` is below `.data`;
    • `pack_places_variables` says so of a packed executable, and
      `variablesBelow_coincide` that it happens. -/

namespace Handheld

/-! ## Offsets that stay -/

section Kept

variable {l : Layout} {chains : Nat} {t : Threads}

/-- Places apart from a place leave it alone. -/
theorem placeAt_foldl_step (heads : t.heads.length = chains)
    (inChains : l.InChains chains) {rs : List Relocation} {p : Nat}
    (apart : ∀ x ∈ l.threadedFrom t rs, Apart x.2.position p) :
    placeAt (rs.foldl (Threads.step l) t).image p = placeAt t.image p := by
  induction rs generalizing t with
  | nil => rfl
  | cons r rs ih =>
      rw [Layout.threadedFrom] at apart
      rw [List.foldl_cons]
      cases isHandled_step heads inChains r with
      | leftOut found sameImage sameHeads _ _ =>
          rw [found] at apart
          rw [ih (sameHeads ▸ heads) apart, sameImage]
      | threaded found inside _ _ written newHeads _ _ =>
          rw [found] at apart
          obtain ⟨here, later⟩ := List.forall_mem_cons.mp apart
          rw [ih (by rw [newHeads, List.length_set, heads]) later, written]
          exact placeAt_overwrite_apart (IsThreaded.length_link _ _) inside here

end Kept

section Packed

variable {exe : Executable} {options : PackOptions} {code : MainCode}

/-- The word in a place is that of the linker, if no earlier place overlaps
    it. -/
theorem word_threaded {before : List Relocation} {p : Nat}
    (apart : ∀ x ∈ (layoutOf exe code (packedExtra exe options)).threadedFrom
        (.start exe.dataImage (chainCount (packedExtra exe options))) before,
      Apart x.2.position p) :
    (layoutOf exe code (packedExtra exe options)).word
        (threadsAfter exe options code before).image p
      = (layoutOf exe code (packedExtra exe options)).word exe.dataImage p :=
  congrArg exe.architecture.value (placeAt_foldl_step List.length_replicate
    (inChains_layoutOf exe code (packedExtra exe options)) apart)

/-- The offset of a relocation is found in its place in the end, if no later
    place overlaps it. -/
theorem offset_threaded {before after : List Relocation} {r : Relocation}
    {s : Site} (split : exe.relocations = before ++ r :: after)
    (site : (layoutOf exe code (packedExtra exe options)).site
      (threadsAfter exe options code before).image r = .ok s)
    (apart : ∀ x ∈ (layoutOf exe code (packedExtra exe options)).threadedFrom
        (threadsAfter exe options code (before ++ [r])) after,
      Apart x.2.position s.position) :
    Loader.offset exe.architecture (packedThreads exe options code).image
        s.position = s.offset := by
  have inChains := inChains_layoutOf exe code (packedExtra exe options)
  have soFar := isAccounted_threadsAfter exe options code before
  have final : packedThreads exe options code
      = after.foldl (Threads.step (layoutOf exe code (packedExtra exe options)))
        (threadsAfter exe options code (before ++ [r])) := by
    rw [threadsAfter, ← List.foldl_append, List.append_assoc]
    exact congrArg _ split
  obtain ⟨_, _, _, facts⟩ := Layout.site_eq_ok_iff.mp site
  have known : s.chain < (threadsAfter exe options code before).heads.length :=
    soFar.heads ▸ facts.chain_lt inChains
  have stored : placeAt (packedThreads exe options code).image s.position
      = exe.architecture.encode 2
          (threadsAfter exe options code before).heads[s.chain]
        ++ exe.architecture.encode 2 s.offset := by
    rw [final, placeAt_foldl_step
      (isAccounted_threadsAfter exe options code _).heads inChains apart,
      threadsAfter_concat, Threads.step, site]
    show placeAt (Threads.thread _ s _).image s.position = _
    rw [Threads.image_thread_of_lt known]
    exact placeAt_overwrite_self (IsThreaded.length_link _ _) facts.inside
  exact (Loader.link_eq (soFar.headsFit _ (List.getElem_mem known)) facts.fits
    stored).2

/-! ## Where data and zeros go -/

section Placed

variable {extra : List (Section × Nat)} {d b : Section × Nat}

/-- Where the initialized data go, unless they are asked for as code. -/
theorem placement?_data (data : exe.data? = some d) :
    (layoutOf exe code extra).placement? d.2
      = some (((furtherPlacements firstExtraChain extra).lookup d.2).getD
        ⟨dataChain, 0⟩) := by
  have bss := bind_index_eq_none data (show ".bss" ≠ ".data" by decide)
    ⟨dataChain, exe.bssBase⟩
  rw [placement?_layoutOf, Executable.bss?, bss, data, Option.bind_some,
    if_pos rfl]
  cases (furtherPlacements firstExtraChain extra).lookup d.2 <;> rfl

/-- Where the zeros go, unless they are asked for as code. -/
theorem placement?_bss (bss : exe.bss? = some b) :
    (layoutOf exe code extra).placement? b.2
      = some (((furtherPlacements firstExtraChain extra).lookup b.2).getD
        ⟨dataChain, exe.bssBase⟩) := by
  rw [placement?_layoutOf, bss, Option.bind_some, if_pos rfl]
  cases (furtherPlacements firstExtraChain extra).lookup b.2 <;> rfl

/-- Further sections are not in the chain of the data. -/
theorem chain_furtherPlacements_ne {index : Nat} {p : Placement}
    (h : (furtherPlacements firstExtraChain extra).lookup index = some p) :
    p.chain ≠ dataChain := by
  obtain ⟨number, _, -, -, rfl⟩ := lookup_furtherPlacements_eq_some_iff.mp h
  exact Nat.ne_of_gt (Nat.lt_of_lt_of_le (by decide) (Nat.le_add_right _ _))

/-- A section that is not asked for as code has the place that it has
    otherwise, and so does one in the chain of the data. -/
theorem getD_furtherPlacements_eq {index : Nat} {p q : Placement}
    (h : ((furtherPlacements firstExtraChain extra).lookup index).getD q = p)
    (data : p.chain = dataChain) : q = p := by
  cases further : (furtherPlacements firstExtraChain extra).lookup index with
  | none =>
      rw [further] at h
      exact h
  | some other =>
      rw [further] at h
      obtain rfl : other = p := h
      exact (chain_furtherPlacements_ne further data).elim

/-- Data and zeros are in one chain only if that is the chain of the data. -/
theorem chain_eq_dataChain (data : exe.data? = some d)
    (bss : exe.bss? = some b) {p q : Placement}
    (hp : (layoutOf exe code extra).placement? d.2 = some p)
    (hq : (layoutOf exe code extra).placement? b.2 = some q)
    (same : p.chain = q.chain) : p.chain = dataChain := by
  have ne : d.2 ≠ b.2 := Executable.index_ne data bss (by decide)
  rw [placement?_data data, Option.some.injEq] at hp
  rw [placement?_bss bss, Option.some.injEq] at hq
  cases further : (furtherPlacements firstExtraChain extra).lookup d.2 with
  | none =>
      rw [further] at hp
      rw [← hp]
      rfl
  | some _ =>
      cases further' : (furtherPlacements firstExtraChain extra).lookup b.2 with
      | none =>
          rw [further'] at hq
          rw [same, ← hq]
          rfl
      | some _ =>
          -- sections at different positions are in different chains
          obtain ⟨number, s, here, -, rfl⟩ :=
            lookup_furtherPlacements_eq_some_iff.mp further
          obtain ⟨number', s', there, -, rfl⟩ :=
            lookup_furtherPlacements_eq_some_iff.mp further'
          rw [further] at hp
          rw [further'] at hq
          rw [← hp, ← hq] at same
          obtain rfl : number = number' := Nat.add_left_cancel same
          rw [here] at there
          exact (ne (Prod.mk.inj (Option.some.inj there)).2).elim

end Placed

/-! ## References -/

/-- A relocation that is threaded for an address inside a section: the one
    that it finds in its place. -/
structure IsReference (exe : Executable) (options : PackOptions)
    (code : MainCode) (target : Section × Nat) (r : Relocation) (s : Site)
    (value : Nat) : Prop where
  threaded : ∃ before after, exe.relocations = before ++ r :: after
    ∧ (layoutOf exe code (packedExtra exe options)).site
        (threadsAfter exe options code before).image r = .ok s
    ∧ (layoutOf exe code (packedExtra exe options)).word
        (threadsAfter exe options code before).image s.position = value
  points : r.targetSection? exe.symbols = some target.2
  inside : target.1.address ≤ value
    ∧ value < target.1.address + target.1.size

/-- The offset of a reference is that of the address in its section, moved by
    the base of the section. -/
theorem IsReference.exists_base {name : String} {target : Section × Nat}
    {r : Relocation} {s : Site} {value : Nat}
    (h : IsReference exe options code target r s value)
    (found : exe.find? name = some target) :
    ∃ base, (layoutOf exe code (packedExtra exe options)).placement? target.2
        = some ⟨s.chain, base⟩
      ∧ s.offset + target.1.address = value + base := by
  obtain ⟨before, after, -, site, word⟩ := h.threaded
  obtain ⟨_, index, placement, facts⟩ := Layout.site_eq_ok_iff.mp site
  obtain ⟨points, placed⟩ := Layout.target?_eq_some_iff.mp facts.destination
  obtain rfl : target.2 = index :=
    Option.some.inj (h.points.symm.trans points)
  have here : exe.sectionAt target.2 = target.1 := by
    rw [Executable.sectionAt, List.getD_eq_getElem?_getD,
      (Executable.find?_eq_some found).1, Option.getD_some]
  have offset : s.offset + (exe.sectionAt target.2).address
      = _ + placement.base := facts.offset
  rw [word, here] at offset
  refine ⟨placement.base, ?_, offset⟩
  rw [placed, facts.chain]

/-- Data and zeros that are not asked for as code are no further sections. -/
theorem lookup_packedExtra_eq_none
    (names : ∀ name ∈ options.extraCode, name ∉ [".data", ".bss"])
    {name : String} {t : Section × Nat} (found : exe.find? name = some t)
    (member : name ∈ [".data", ".bss"]) :
    (furtherPlacements firstExtraChain (packedExtra exe options)).lookup t.2
      = none := by
  refine lookup_furtherPlacements_eq_none_iff.mpr ?_
  intro s hs
  obtain ⟨other, asked, foundOther⟩ := List.mem_filterMap.mp hs
  refine Executable.index_ne foundOther found ?_
  rintro rfl
  exact names other asked member

section References

variable {d b : Section × Nat} {r₁ r₂ : Relocation} {s₁ s₂ : Site}
  {v₁ v₂ : Nat}

/-- An initialized variable and one of the zeros are at one place of the image
    only if the zeros are below the initialized data, and then if they are as
    far from the start of their sections. -/
theorem isReference_same_iff (data : exe.data? = some d)
    (bss : exe.bss? = some b)
    (disjoint : d.1.address + d.1.size ≤ b.1.address
      ∨ b.1.address + b.1.size ≤ d.1.address)
    (toData : IsReference exe options code d r₁ s₁ v₁)
    (toBss : IsReference exe options code b r₂ s₂ v₂) :
    (s₁.chain = s₂.chain ∧ s₁.offset = s₂.offset)
      ↔ s₁.chain = dataChain ∧ s₂.chain = dataChain
        ∧ b.1.address < d.1.address
        ∧ v₁ - d.1.address = v₂ - b.1.address := by
  obtain ⟨base₁, placed₁, offset₁⟩ := toData.exists_base data
  obtain ⟨base₂, placed₂, offset₂⟩ := toBss.exists_base bss
  obtain ⟨from₁, to₁⟩ := toData.inside
  obtain ⟨from₂, to₂⟩ := toBss.inside
  -- the distance of the zeros from the data, or zero if they are below them
  have distance : exe.bssBase = b.1.address - d.1.address := by
    rw [Executable.bssBase, data, bss]
  have dataBase (first : s₁.chain = dataChain) : base₁ = 0 := by
    rw [placement?_data data, Option.some.injEq] at placed₁
    exact (congrArg Placement.base
      (getD_furtherPlacements_eq placed₁ first)).symm
  have bssBase (second : s₂.chain = dataChain) : base₂ = exe.bssBase := by
    rw [placement?_bss bss, Option.some.injEq] at placed₂
    exact (congrArg Placement.base
      (getD_furtherPlacements_eq placed₂ second)).symm
  constructor
  · rintro ⟨same, offsets⟩
    have first : s₁.chain = dataChain :=
      chain_eq_dataChain data bss placed₁ placed₂ same
    have second : s₂.chain = dataChain := same ▸ first
    have zero := dataBase first
    have base := bssBase second
    refine ⟨first, second, ?_, ?_⟩
    · omega
    · omega
  · rintro ⟨first, second, below, equal⟩
    have zero := dataBase first
    have base := bssBase second
    refine ⟨first.trans second.symm, ?_⟩
    omega

/-- References to both are in the chain of the data, unless data or zeros are
    asked for as code. -/
theorem isReference_chains (data : exe.data? = some d)
    (bss : exe.bss? = some b)
    (names : ∀ name ∈ options.extraCode, name ∉ [".data", ".bss"])
    (toData : IsReference exe options code d r₁ s₁ v₁)
    (toBss : IsReference exe options code b r₂ s₂ v₂) :
    s₁.chain = dataChain ∧ s₂.chain = dataChain := by
  obtain ⟨_, placed₁, -⟩ := toData.exists_base data
  obtain ⟨_, placed₂, -⟩ := toBss.exists_base bss
  rw [placement?_data data, lookup_packedExtra_eq_none names data (by decide),
    Option.getD_none, Option.some.injEq] at placed₁
  rw [placement?_bss bss, lookup_packedExtra_eq_none names bss (by decide),
    Option.getD_none, Option.some.injEq] at placed₂
  exact ⟨(congrArg Placement.chain placed₁).symm,
    (congrArg Placement.chain placed₂).symm⟩

end References

/-! ## The data of a packed executable -/

/-- **Where variables of packed data are.**  Let an executable be packed with
    its data, initialized ones and zeros at different addresses.  A relocation
    finds the word of the linker in its place of the data, unless an earlier
    one overlaps it, and leaves its offset there, unless a later one does.
    One that refers to an initialized variable and one that refers to one of
    the zeros are given the same place in the same resource exactly if the
    zeros are below the initialized data and both are as far from the start of
    their sections. -/
theorem pack_places_variables {origin : String} {db : Database .resource}
    {d b : Section × Nat} (alone : exe.find? ".disposn" = none)
    (emits : options.emitData = true) (data : exe.data? = some d)
    (bss : exe.bss? = some b)
    (disjoint : d.1.address + d.1.size ≤ b.1.address
      ∨ b.1.address + b.1.size ≤ d.1.address)
    (packed : (pack exe options origin).result = .ok db) :
    ∃ code resource image, HasMainCode exe code
      ∧ db.get? ⟨dataType, 0⟩ = some resource
      ∧ Compression.decodeData resource exe.imageSize = .ok image
      ∧ (∀ before r after s, exe.relocations = before ++ r :: after →
        (layoutOf exe code (packedExtra exe options)).site
          (threadsAfter exe options code before).image r = .ok s →
        ((∀ x ∈ (layoutOf exe code (packedExtra exe options)).threadedFrom
            (.start exe.dataImage (chainCount (packedExtra exe options)))
            before, Apart x.2.position s.position) →
          (layoutOf exe code (packedExtra exe options)).word
              (threadsAfter exe options code before).image s.position
            = (layoutOf exe code (packedExtra exe options)).word exe.dataImage
                s.position)
        ∧ ((∀ x ∈ (layoutOf exe code (packedExtra exe options)).threadedFrom
            (threadsAfter exe options code (before ++ [r])) after,
            Apart x.2.position s.position) →
          Loader.offset exe.architecture image s.position = s.offset))
      ∧ ∀ r₁ s₁ v₁ r₂ s₂ v₂,
        IsReference exe options code d r₁ s₁ v₁ →
        IsReference exe options code b r₂ s₂ v₂ →
          ((s₁.chain = s₂.chain ∧ s₁.offset = s₂.offset)
            ↔ s₁.chain = dataChain ∧ s₂.chain = dataChain
              ∧ b.1.address < d.1.address
              ∧ v₁ - d.1.address = v₂ - b.1.address)
          ∧ ((∀ name ∈ options.extraCode, name ∉ [".data", ".bss"]) →
            (s₁.offset = s₂.offset
              ↔ b.1.address < d.1.address
                ∧ v₁ - d.1.address = v₂ - b.1.address)) := by
  obtain ⟨code, resource, main, encoded, hasData, -, -⟩ :=
    pack_data_eq_ok alone emits packed
  have length : (packedThreads exe options code).image.length
      = exe.imageSize :=
    (isAccounted_packed exe options code).length.trans exe.length_dataImage
  refine ⟨code, resource, (packedThreads exe options code).image, main,
    hasData, ?_, ?_, ?_⟩
  · rw [← length, Compression.decodeData_encodeData encoded (Nat.le_refl _),
      Nat.sub_self, List.replicate_zero, List.append_nil]
  · intro before r after s split site
    exact ⟨word_threaded, offset_threaded split site⟩
  · intro r₁ s₁ v₁ r₂ s₂ v₂ toData toBss
    have same := isReference_same_iff data bss disjoint toData toBss
    refine ⟨same, ?_⟩
    intro names
    obtain ⟨first, second⟩ := isReference_chains data bss names toData toBss
    simpa only [first, second, true_and] using same

end Packed

/-- Two words of data, the address of the second and that of the zeros
    behind them. -/
def variablesAbove : Executable where
  architecture := .m68k
  entry := 0x1000
  sections := [
    ⟨".text", 0x1000, 2, [0x4E, 0x75], true⟩,
    ⟨".data", 0x8000, 8, [0, 0, 0x80, 4, 0, 0, 0x80, 8], false⟩,
    ⟨".bss", 0x8008, 4, [], false⟩]
  symbols := []
  relocations := [
    ⟨.absolute32, 1, 0, .container 1⟩,
    ⟨.absolute32, 1, 4, .container 2⟩]

/-- The same with the zeros in front of the data, and the address of the first
    word instead of the second. -/
def variablesBelow : Executable where
  architecture := .m68k
  entry := 0x1000
  sections := [
    ⟨".text", 0x1000, 2, [0x4E, 0x75], true⟩,
    ⟨".data", 0x8004, 8, [0, 0, 0x80, 4, 0, 0, 0x80, 0], false⟩,
    ⟨".bss", 0x8000, 4, [], false⟩]
  symbols := []
  relocations := [
    ⟨.absolute32, 1, 0, .container 1⟩,
    ⟨.absolute32, 1, 4, .container 2⟩]

/-- The main code of both. -/
def variablesCode : MainCode :=
  ⟨⟨".text", 0x1000, 2, [0x4E, 0x75], true⟩, 0, 0, []⟩

theorem pack_places_variables_above :
    ∃ db resource image,
      (pack variablesAbove (.standard .application) "sample").result = .ok db
        ∧ db.get? ⟨dataType, 0⟩ = some resource
        ∧ Compression.decodeData resource 12 = .ok image
        ∧ Loader.offset .m68k image 0 ≠ Loader.offset .m68k image 4 := by
  have main : HasMainCode variablesAbove variablesCode := ⟨rfl, by cbv⟩
  obtain ⟨db, packed⟩ := @exists_pack_eq_ok variablesAbove
    (.standard .application) _ _ (by decide) main (by decide) rfl (by decide)
    "sample"
  obtain ⟨code, resource, image, hcode, hasData, decoded, kept, places⟩ :=
    pack_places_variables (by decide) rfl
      (show variablesAbove.data? = some
        (⟨".data", 0x8000, 8, [0, 0, 0x80, 4, 0, 0, 0x80, 8], false⟩, 1)
        from rfl)
      (show variablesAbove.bss? = some (⟨".bss", 0x8008, 4, [], false⟩, 2)
        from rfl) (by decide) packed
  obtain rfl := hcode.unique main
  have first : Loader.offset .m68k image 0 = 4 :=
    (kept [] ⟨.absolute32, 1, 0, .container 1⟩
      [⟨.absolute32, 1, 4, .container 2⟩] ⟨0, dataChain, 4⟩ rfl
      (by decide)).2 (by decide)
  have second : Loader.offset .m68k image 4 = 8 :=
    (kept [⟨.absolute32, 1, 0, .container 1⟩]
      ⟨.absolute32, 1, 4, .container 2⟩ [] ⟨4, dataChain, 8⟩ rfl
      (by decide)).2 (by decide)
  have differ := ((places ⟨.absolute32, 1, 0, .container 1⟩ ⟨0, dataChain, 4⟩
    0x8004 ⟨.absolute32, 1, 4, .container 2⟩ ⟨4, dataChain, 8⟩ 0x8008
    ⟨⟨[], _, rfl, by decide, by decide⟩, rfl, by decide⟩
    ⟨⟨[_], [], rfl, by decide, by decide⟩, rfl, by decide⟩).2 (by decide)).mp
  refine ⟨db, resource, image, packed, hasData, decoded, ?_⟩
  rw [first, second]
  intro same
  exact absurd (differ same).1 (by decide)

/-- Both addresses become that of the first word. -/
theorem variablesBelow_coincide :
    ∃ db resource image,
      (pack variablesBelow (.standard .application) "sample").result = .ok db
        ∧ db.get? ⟨dataType, 0⟩ = some resource
        ∧ Compression.decodeData resource 8 = .ok image
        ∧ IsReference variablesBelow (.standard .application) variablesCode
          (⟨".data", 0x8004, 8, [0, 0, 0x80, 4, 0, 0, 0x80, 0], false⟩, 1)
          ⟨.absolute32, 1, 0, .container 1⟩ ⟨0, dataChain, 0⟩ 0x8004
        ∧ IsReference variablesBelow (.standard .application) variablesCode
          (⟨".bss", 0x8000, 4, [], false⟩, 2)
          ⟨.absolute32, 1, 4, .container 2⟩ ⟨4, dataChain, 0⟩ 0x8000
        ∧ Loader.offset .m68k image 0 = Loader.offset .m68k image 4 := by
  have main : HasMainCode variablesBelow variablesCode := ⟨rfl, by cbv⟩
  obtain ⟨db, packed⟩ := @exists_pack_eq_ok variablesBelow
    (.standard .application) _ _ (by decide) main (by decide) rfl (by decide)
    "sample"
  obtain ⟨code, resource, hcode, encoded, hasData, -, -⟩ :=
    pack_data_eq_ok (by decide) rfl packed
  obtain rfl := hcode.unique main
  exact ⟨db, resource, _, packed, hasData,
    Compression.decodeData_encodeData encoded (by decide),
    ⟨⟨[], _, rfl, by decide, by decide⟩, rfl, by decide⟩,
    ⟨⟨[_], [], rfl, by decide, by decide⟩, rfl, by decide⟩, by decide⟩

end Handheld
