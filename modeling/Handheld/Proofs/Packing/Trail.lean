import Handheld.Proofs.Packing.Loading

/-! # Trails — the places that the links of a chain lead to

    Whoever follows a chain in packed data goes from its head from link to
    link, and is done at the end mark.  For that the places of the chain may
    overlap, as long as no link is overwritten once it is stored:

    • `Trail`: the places that are visited on the way from a head to the end
      mark.  There is no trail along links that lead round in a circle
      (`not_trail_of_self_link`);
    • `KeepsLink`: a place that is threaded later leaves the link of an
      earlier one alone;
    • `IsTrailed`: the invariant of threading such places, that the trail of
      each chain visits its places, latest first;
    • `pack_trails`: so it is in the data of a packed executable.  Without
      the condition it need not be, as `repeatedSite_circles` shows. -/

namespace Handheld

/-! ## Following links -/

namespace Loader

variable {a : Architecture} {image : Bytes}

/-- The places that are visited from a head on to the end mark. -/
inductive Trail (a : Architecture) (image : Bytes) : Nat → List Nat → Prop where
  | stop : Trail a image endOfChain []
  | visit {position : Nat} {later : List Nat} :
      position ≠ endOfChain →
      Trail a image (link a image position) later →
      Trail a image position (position :: later)

/-- There is only one way along links. -/
theorem Trail.unique {head : Nat} {visited others : List Nat}
    (h : Trail a image head visited) (h' : Trail a image head others) :
    visited = others := by
  induction h generalizing others with
  | stop =>
      cases h' with
      | stop => rfl
      | visit going _ => exact absurd rfl going
  | visit going _ ih =>
      cases h' with
      | stop => exact absurd rfl going
      | visit _ rest => rw [ih rest]

/-- A trail only depends on the links along it. -/
theorem Trail.frame {other : Bytes} {head : Nat} {visited : List Nat}
    (h : Trail a image head visited)
    (same : ∀ p ∈ visited, Bytes.slice other p 2 = Bytes.slice image p 2) :
    Trail a other head visited := by
  induction h with
  | stop => exact .stop
  | @visit position later going _ ih =>
      have linkEq : link a other position = link a image position := by
        rw [link, link, same position List.mem_cons_self]
      refine .visit going ?_
      rw [linkEq]
      exact ih fun p hp => same p (List.mem_cons_of_mem _ hp)

/-- A head is the end mark or is visited. -/
theorem Trail.head_eq_or_mem {head : Nat} {visited : List Nat}
    (h : Trail a image head visited) : head = endOfChain ∨ head ∈ visited := by
  cases h with
  | stop => exact .inl rfl
  | visit => exact .inr List.mem_cons_self

/-- Nobody gets away from a place that links to itself. -/
theorem not_trail_of_self_link {position : Nat}
    (self : link a image position = position)
    (going : position ≠ endOfChain) (visited : List Nat) :
    ¬ Trail a image position visited := by
  induction visited with
  | nil =>
      intro h
      cases h
      exact going rfl
  | cons p later ih =>
      intro h
      cases h with
      | visit _ rest =>
          rw [self] at rest
          exact ih rest

end Loader

/-! ## Links that are kept -/

/-- A place whose four bytes are not those of the link of an earlier
    place. -/
def KeepsLink (later earlier : Nat) : Prop :=
  later + siteSize ≤ earlier ∨ earlier + 2 ≤ later

instance (later earlier : Nat) : Decidable (KeepsLink later earlier) :=
  inferInstanceAs (Decidable (_ ∨ _))

/-- Places, latest first, each of which keeps the links of all before it. -/
def Site.KeepLinks (sites : List Site) : Prop :=
  sites.Pairwise fun later earlier =>
    KeepsLink later.position earlier.position

instance (sites : List Site) : Decidable (Site.KeepLinks sites) :=
  inferInstanceAs (Decidable (sites.Pairwise _))

/-- Such places are at different positions. -/
theorem Site.KeepLinks.nodup {sites : List Site} (h : Site.KeepLinks sites) :
    (sites.map Site.position).Nodup := by
  refine List.pairwise_map.mpr (List.Pairwise.imp ?_ h)
  intro later earlier keeps same
  rw [KeepsLink, same] at keeps
  have size : siteSize = 4 := rfl
  omega

/-! ## The invariant -/

/-- Chains that can be followed: the trail from each head visits the places
    of the chain, latest first. -/
structure IsTrailed (a : Architecture) (image : Bytes) (chains : Nat)
    (t : Threads) : Prop where
  length : t.image.length = image.length
  heads : t.heads.length = chains
  trail : ∀ c (h : c < t.heads.length), Loader.Trail a t.image t.heads[c]
    ((Site.ofChain c t.sites).map Site.position)
  linkable : ∀ s ∈ t.sites, s.position < endOfChain
  inChains : ∀ s ∈ t.sites, s.chain < chains

namespace IsTrailed

variable {a : Architecture} {image : Bytes} {chains : Nat} {t : Threads}

theorem start (image : Bytes) (chains : Nat) :
    IsTrailed a image chains (.start image chains) := by
  refine ⟨rfl, List.length_replicate, ?_, ?_, ?_⟩
  · intro c hc
    have head : (Threads.start image chains).heads[c] = endOfChain :=
      List.getElem_replicate _
    rw [head]
    exact .stop
  · intro s hs
    cases hs
  · intro s hs
    cases hs

theorem head_le (h : IsTrailed a image chains t) {c : Nat}
    (hc : c < t.heads.length) : t.heads[c] ≤ endOfChain := by
  rcases (h.trail c hc).head_eq_or_mem with last | visited
  · exact Nat.le_of_eq last
  · obtain ⟨s, hs, same⟩ := List.mem_map.mp visited
    rw [← same]
    exact Nat.le_of_lt (h.linkable s (Site.mem_ofChain.mp hs).1)

section Thread

variable {s : Site}

/-- The links of the places so far are still there. -/
theorem slice_thread (h : IsTrailed a image chains t)
    (keeps : Site.KeepLinks (s :: t.sites))
    (inside : s.position + siteSize ≤ image.length)
    (known : s.chain < t.heads.length) {u : Site} (hu : u ∈ t.sites) :
    Bytes.slice (t.thread a s).image u.position 2
      = Bytes.slice t.image u.position 2 := by
  have keep := (List.pairwise_cons.mp keeps).1 u hu
  have size := IsThreaded.length_link (a := a) t.heads[s.chain] s.offset
  rw [Threads.image_thread_of_lt known]
  refine Bytes.slice_overwrite_apart ?_ ?_
  · rw [size, h.length]
    exact inside
  · rw [size]
    exact keep.symm

/-- A threaded place links to what was the head of its chain. -/
theorem link_thread (h : IsTrailed a image chains t)
    (inside : s.position + siteSize ≤ image.length)
    (fits : s.offset < 2 ^ 16) (known : s.chain < t.heads.length) :
    Loader.link a (t.thread a s).image s.position = t.heads[s.chain] := by
  refine (Loader.link_eq (h.head_le known) fits ?_).1
  rw [Threads.image_thread_of_lt known]
  exact placeAt_overwrite_self (IsThreaded.length_link _ _)
    (h.length ▸ inside)

/-- Threading a place that keeps all links keeps the invariant. -/
theorem thread (h : IsTrailed a image chains t)
    (keeps : Site.KeepLinks (s :: t.sites))
    (inside : s.position + siteSize ≤ image.length)
    (linkable : s.position < endOfChain) (fits : s.offset < 2 ^ 16)
    (inChains : s.chain < chains) :
    IsTrailed a image chains (t.thread a s) := by
  have known : s.chain < t.heads.length := h.heads ▸ inChains
  have frame : ∀ c (hc : c < t.heads.length),
      Loader.Trail a (t.thread a s).image t.heads[c]
        ((Site.ofChain c t.sites).map Site.position) := by
    intro c hc
    refine (h.trail c hc).frame ?_
    intro p hp
    obtain ⟨u, hu, rfl⟩ := List.mem_map.mp hp
    exact h.slice_thread keeps inside known (Site.mem_ofChain.mp hu).1
  have sites : (t.thread a s).sites = s :: t.sites := rfl
  refine ⟨?_, ?_, ?_, ?_, ?_⟩
  · rw [Threads.image_thread_of_lt known,
      length_overwrite_place (IsThreaded.length_link _ _) (h.length ▸ inside),
      h.length]
  · show (t.heads.set s.chain s.position).length = chains
    rw [List.length_set, h.heads]
  · intro c hc
    have hc' : c < t.heads.length := by
      rwa [Threads.thread, List.length_set] at hc
    by_cases same : s.chain = c
    · subst same
      have newHead : (t.thread a s).heads[s.chain] = s.position :=
        List.getElem_set_self _
      rw [newHead, sites, Site.ofChain_cons_self]
      refine .visit (Nat.ne_of_lt linkable) ?_
      rw [h.link_thread inside fits known]
      exact frame s.chain known
    · have oldHead : (t.thread a s).heads[c] = t.heads[c] :=
        List.getElem_set_ne same _
      rw [oldHead, sites, Site.ofChain_cons_ne same]
      exact frame c hc'
  · exact List.forall_mem_cons.mpr ⟨linkable, h.linkable⟩
  · exact List.forall_mem_cons.mpr ⟨inChains, h.inChains⟩

end Thread

/-- Leaving a relocation out keeps the invariant. -/
theorem skip (h : IsTrailed a image chains t) (r : Relocation) (cause : Skip) :
    IsTrailed a image chains (t.skip r cause) :=
  ⟨h.length, h.heads, h.trail, h.linkable, h.inChains⟩

/-! ## Runs -/

variable {l : Layout}

/-- One relocation keeps the invariant, if it keeps all links. -/
theorem step (h : IsTrailed l.executable.architecture image chains t)
    (inChains : l.InChains chains) {r : Relocation}
    (keeps : Site.KeepLinks (t.step l r).sites) :
    IsTrailed l.executable.architecture image chains (t.step l r) := by
  rw [Threads.step] at keeps ⊢
  cases site : l.site t.image r with
  | error cause => exact h.skip r cause
  | ok s =>
      rw [site] at keeps
      obtain ⟨source, index, target, facts⟩ := Layout.site_eq_ok_iff.mp site
      exact h.thread keeps (h.length ▸ facts.inside) facts.linkable facts.fits
        (facts.chain_lt inChains)

/-- Relocations keep the invariant, if each keeps the links before it. -/
theorem foldl_step (h : IsTrailed l.executable.architecture image chains t)
    (inChains : l.InChains chains) {rs : List Relocation}
    (keeps : Site.KeepLinks (rs.foldl (Threads.step l) t).sites) :
    IsTrailed l.executable.architecture image chains
      (rs.foldl (Threads.step l) t) := by
  induction rs generalizing t with
  | nil => exact h
  | cons r rs ih =>
      rw [List.foldl_cons] at keeps ⊢
      exact ih (h.step inChains (Threads.pairwise_of_foldl_step keeps)) keeps

end IsTrailed

/-- All chains can be followed after threading all relocations, if each
    keeps the links before it. -/
theorem isTrailed_threadAll {l : Layout} {image : Bytes} {chains : Nat}
    (inChains : l.InChains chains)
    (keeps : Site.KeepLinks (threadAll l image chains).sites) :
    IsTrailed l.executable.architecture image chains
      (threadAll l image chains) :=
  (IsTrailed.start image chains).foldl_step inChains keeps

/-! ## The data of a packed executable -/

/-- Wherever a table says that sections go, there is a chain for it. -/
theorem inChains_layoutOf (exe : Executable) (code : MainCode)
    (extra : List (Section × Nat)) :
    (layoutOf exe code extra).InChains (chainCount extra) := by
  intro index placement placed
  have two : firstExtraChain ≤ chainCount extra := Nat.le_add_right _ _
  have toData : dataChain < chainCount extra :=
    Nat.lt_of_lt_of_le (by decide) two
  have toText : textChain < chainCount extra :=
    Nat.lt_of_lt_of_le (by decide) two
  obtain ⟨before, after, split, -⟩ := List.lookup_eq_some_iff.mp placed
  have listed : (index, placement) ∈ (layoutOf exe code extra).placements := by
    rw [split]
    exact List.mem_append_right _ List.mem_cons_self
  rw [layoutOf] at listed
  rcases List.mem_append.mp listed with listed | text
  · rcases List.mem_append.mp listed with listed | data
    · rcases List.mem_append.mp listed with further | bss
      · obtain ⟨⟨s, chain⟩, member, same⟩ :=
          List.mem_map.mp (List.mem_reverse.mp further)
        cases same
        exact (List.mem_zipIdx member).2.1
      · obtain ⟨s, -, same⟩ := List.mem_map.mp bss
        cases same
        exact toData
    · obtain ⟨s, -, same⟩ := List.mem_map.mp data
      cases same
      exact toData
  · cases List.mem_singleton.mp text
    exact toText

section Packed

variable {exe : Executable} {options : PackOptions}

/-- **Chains of packed data can be followed.**  Let no relocation of the
    data be threaded into the link of one threaded before.  Then the packed
    data can be decoded.  Its chains are counted in sixteen bits, and if
    anything was threaded, or heads are asked for, there is a head for each
    chain.  The links from there on lead to the end mark, by the places of the
    relocations that were threaded into the chain, latest first, and each of
    them once. -/
theorem pack_trails {origin : String} {db : Database .resource}
    (alone : exe.find? ".disposn" = none) (emits : options.emitData = true)
    (keeps : ∀ code, HasMainCode exe code → Site.KeepLinks
      ((packedRelocations exe options code).map Prod.snd).reverse)
    (packed : (pack exe options origin).result = .ok db) :
    ∃ code data image, HasMainCode exe code
      ∧ chainCount (packedExtra exe options) < 2 ^ 16
      ∧ db.get? ⟨dataType, 0⟩ = some data
      ∧ Compression.decodeData data exe.imageSize = .ok image
      ∧ (∀ x ∈ packedRelocations exe options code,
        x.2.chain < chainCount (packedExtra exe options))
      ∧ ((packedRelocations exe options code).map
          fun x => x.2.position).Nodup
      ∧ (packedRelocations exe options code ≠ []
          ∨ options.forceRelocations = true →
        ∃ heads, Loader.storedHeads exe.architecture
            (db.get? ⟨rlocType, 0⟩) = heads
          ∧ heads.length = chainCount (packedExtra exe options)
          ∧ ∀ chain (h : chain < heads.length) visited,
            Loader.Trail exe.architecture image heads[chain] visited
              ↔ visited = (((packedRelocations exe options code).filter
                  fun x => x.2.chain = chain).map
                    fun x => x.2.position).reverse) := by
  obtain ⟨code, data, main, encoded, hasData, hasHeads, -⟩ :=
    pack_data_eq_ok alone emits packed
  have places : (packedThreads exe options code).sites
      = ((packedRelocations exe options code).map Prod.snd).reverse :=
    sites_threadAll _ _ _
  have trailed : IsTrailed exe.architecture exe.dataImage
      (chainCount (packedExtra exe options)) (packedThreads exe options code) :=
    isTrailed_threadAll (inChains_layoutOf exe code (packedExtra exe options))
      (places ▸ keeps code main)
  have length : (packedThreads exe options code).image.length
      = exe.imageSize := trailed.length.trans exe.length_dataImage
  refine ⟨code, data, (packedThreads exe options code).image, main,
    chainCount_packedExtra_lt alone packed, hasData, ?_, ?_, ?_, ?_⟩
  · rw [← length, Compression.decodeData_encodeData encoded
      (Nat.le_refl _), Nat.sub_self, List.replicate_zero, List.append_nil]
  · intro x hx
    refine trailed.inChains x.2 ?_
    rw [places]
    exact List.mem_reverse.mpr (List.mem_map_of_mem hx)
  · have distinct := (keeps code main).nodup
    rw [List.map_reverse, (List.reverse_perm _).nodup_iff,
      List.map_map] at distinct
    exact distinct
  · intro needed
    have stores : StoresHeads options (packedThreads exe options code) := by
      refine needed.imp_left fun some => ?_
      rw [places]
      simpa using some
    have heads_le : ∀ head ∈ (packedThreads exe options code).heads,
        head ≤ endOfChain := by
      intro head member
      obtain ⟨c, hc, rfl⟩ := List.getElem_of_mem member
      exact trailed.head_le hc
    refine ⟨(packedThreads exe options code).heads, ?_, trailed.heads, ?_⟩
    · rw [hasHeads stores, Loader.storedHeads_headBytes heads_le]
    · intro chain h visited
      have trail := trailed.trail chain h
      rw [places, map_position_ofChain] at trail
      constructor
      · intro other
        exact other.unique trail
      · rintro rfl
        exact trail

end Packed

/-- Two relocations whose places overlap: the second one is for a word that
    begins with the offset that the first one left. -/
def overlappingSites : Executable where
  architecture := .m68k
  entry := 0x1000
  sections := [
    ⟨".text", 0x1000, 2, [0x4E, 0x75], true⟩,
    ⟨".data", 0x40000, 8, [0, 4, 0, 4, 0, 6, 0, 0], false⟩]
  symbols := []
  relocations := [
    ⟨.absolute32, 1, 0, .container 1⟩,
    ⟨.absolute32, 1, 2, .container 1⟩]

theorem pack_trails_overlappingSites :
    ∃ db, (pack overlappingSites (.standard .application) "sample").result
        = .ok db
      ∧ ∃ data image head, db.get? ⟨dataType, 0⟩ = some data
        ∧ Compression.decodeData data 8 = .ok image
        ∧ (Loader.storedHeads .m68k
            (db.get? ⟨rlocType, 0⟩))[dataChain]? = some head
        ∧ Loader.Trail .m68k image head [2, 0] := by
  obtain ⟨db, packed⟩ := exists_eq_ok_of_isOk
    (show (pack overlappingSites (.standard .application)
      "sample").result.isOk = true by cbv)
  have main : HasMainCode overlappingSites
      ⟨⟨".text", 0x1000, 2, [0x4E, 0x75], true⟩, 0, 0, []⟩ :=
    ⟨rfl, by cbv⟩
  obtain ⟨code, data, image, hcode, -, hasData, decoded, -, -, trails⟩ :=
    pack_trails (by decide) rfl (by
      intro code hcode
      rw [hcode.unique main]
      decide) packed
  obtain rfl := hcode.unique main
  obtain ⟨heads, stored, count, trail⟩ := trails (.inl (by decide))
  have first : dataChain < heads.length := by
    rw [count]
    decide
  refine ⟨db, packed, data, image, heads[dataChain], hasData, decoded, ?_,
    (trail dataChain first _).mpr (by decide)⟩
  have stored' : Loader.storedHeads .m68k (db.get? ⟨rlocType, 0⟩) = heads :=
    stored
  rw [stored', List.getElem?_eq_getElem first]

/-- Three relocations, the last two of which are for one word.  What the
    second one stores there, the number four and then a zero, is a word that
    the third one fits to as well. -/
def repeatedSite : Executable where
  architecture := .m68k
  entry := 0x1000
  sections := [
    ⟨".text", 0x1000, 2, [0x4E, 0x75], true⟩,
    ⟨".data", 0x40000, 12, [0, 0, 0, 0, 0, 4, 0, 0, 0, 4, 0, 0], false⟩]
  symbols := []
  relocations := [
    ⟨.absolute32, 1, 4, .container 1⟩,
    ⟨.absolute32, 1, 8, .container 1⟩,
    ⟨.absolute32, 1, 8, .container 1⟩]

/-- The place of a repeated relocation links to itself. -/
theorem repeatedSite_circles :
    ∃ db, (pack repeatedSite (.standard .application) "sample").result
        = .ok db
      ∧ ∃ data image head, db.get? ⟨dataType, 0⟩ = some data
        ∧ Compression.decodeData data 12 = .ok image
        ∧ (Loader.storedHeads .m68k
            (db.get? ⟨rlocType, 0⟩))[dataChain]? = some head
        ∧ ∀ visited, ¬ Loader.Trail .m68k image head visited := by
  obtain ⟨db, packed⟩ := exists_eq_ok_of_isOk
    (show (pack repeatedSite (.standard .application)
      "sample").result.isOk = true by cbv)
  have main : HasMainCode repeatedSite
      ⟨⟨".text", 0x1000, 2, [0x4E, 0x75], true⟩, 0, 0, []⟩ :=
    ⟨rfl, by cbv⟩
  obtain ⟨code, data, hcode, encoded, hasData, hasHeads, -⟩ :=
    pack_data_eq_ok (by decide) rfl packed
  obtain rfl := hcode.unique main
  refine ⟨db, packed, data, _, 8, hasData,
    Compression.decodeData_encodeData encoded (by decide), ?_,
    Loader.not_trail_of_self_link (by decide) (by decide)⟩
  rw [hasHeads (by decide)]
  decide

end Handheld
