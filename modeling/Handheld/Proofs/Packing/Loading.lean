import Handheld.Proofs.Compression.DataResource
import Handheld.Proofs.Packing.Placement
import Handheld.Proofs.Packing.Resources
import Handheld.Proofs.Packing.Threading

/-! # Loading — packed data after the program has started

    `load_packed`: a loader that decodes the data of a packed executable and
    walks the stored chains comes to an end, visits the place of every
    threaded relocation once, and leaves there the address that the linker
    meant, wherever the resources were put. -/

namespace Handheld

/-! ## Stored heads -/

/-- The heads of chains that are stored; there are none if nothing is. -/
def Loader.storedHeads (a : Architecture) (stored : Option Bytes) : List Nat :=
  match stored with
  | none => []
  | some bytes => (Bytes.chunks 2 bytes).map a.value

/-- Heads are found again as they were stored. -/
theorem Loader.storedHeads_headBytes {a : Architecture} {t : Threads}
    (h : ∀ head ∈ t.heads, head ≤ endOfChain) :
    storedHeads a (some (t.headBytes a)) = t.heads := by
  have pieces : Bytes.chunks 2 (t.heads.map (a.encode 2)).flatten
      = t.heads.map (a.encode 2) := by
    refine Bytes.chunks_flatten (by decide) ?_
    intro piece member
    obtain ⟨head, -, rfl⟩ := List.mem_map.mp member
    exact a.length_encode 2 head
  rw [storedHeads, Threads.headBytes, List.flatMap_def, pieces, List.map_map]
  refine (List.map_congr_left ?_).trans (List.map_id t.heads)
  intro head member
  show a.value (a.encode 2 head) = head
  rw [a.value_encode]
  exact Nat.mod_eq_of_lt (Nat.lt_of_le_of_lt (h head member) (by decide))

/-- The stored heads of threaded chains, which are left out only if nothing
    was threaded. -/
theorem IsThreaded.storedHeads {a : Architecture} {image : Bytes}
    {chains : Nat} {t : Threads} (h : IsThreaded a image chains t)
    (forced : Bool) :
    let heads := Loader.storedHeads a
      (if t.sites ≠ [] ∨ forced = true then some (t.headBytes a) else none)
    heads = t.heads ∨ heads = [] ∧ t.sites = [] := by
  have heads_le : ∀ head ∈ t.heads, head ≤ endOfChain := by
    intro head member
    obtain ⟨c, hc, rfl⟩ := List.getElem_of_mem member
    exact (h.chain c hc).head_le
  by_cases needed : t.sites ≠ [] ∨ forced = true
  · left
    rw [if_pos needed, Loader.storedHeads_headBytes heads_le]
  · right
    rw [if_neg needed]
    exact ⟨rfl, Decidable.not_not.mp (not_or.mp needed).1⟩

/-- Threaded chains are walked from their stored heads: the places of each
    are visited latest first, and all places are corrected. -/
theorem IsThreaded.exists_load {a : Architecture} {image : Bytes}
    {chains : Nat} {t : Threads} (h : IsThreaded a image chains t)
    (apart : Site.AllApart t.sites) {heads : List Nat}
    (stored : heads = t.heads ∨ heads = [] ∧ t.sites = [])
    (addresses : Nat → Nat) :
    ∃ visits final, Loader.Load a addresses 0 heads t.image visits final
      ∧ (∀ chain, visits.getD chain []
        = (Site.ofChain chain t.sites).map Site.position)
      ∧ ∀ s ∈ t.sites, placeAt final s.position
        = a.encode siteSize (addresses s.chain + s.offset) := by
  have inside : ∀ s ∈ t.sites, s.position + siteSize ≤ t.image.length := by
    rw [h.length]
    exact h.inside
  have known : ∀ s ∈ t.sites, s.chain < heads.length := by
    intro s hs
    rcases stored with rfl | ⟨-, nothing⟩
    · exact h.heads ▸ h.inChains s hs
    · rw [nothing] at hs
      cases hs
  have linked : ∀ i (hi : i < heads.length),
      IsChain a t.image heads[i] (Site.ofChain (0 + i) t.sites) := by
    intro i hi
    rcases stored with rfl | ⟨rfl, -⟩
    · rw [Nat.zero_add]
      exact h.chain i hi
    · cases hi
  obtain ⟨visits, final, load, loaded⟩ :=
    Handheld.exists_load addresses apart inside linked
  refine ⟨visits, final, load, ?_, ?_⟩
  · intro chain
    rw [List.getD_eq_getElem?_getD]
    by_cases here : chain < heads.length
    · rw [loaded.visited chain here, Nat.zero_add, Option.getD_some]
    · -- there is no such chain, and no place in it
      have past : visits.length ≤ chain := loaded.size ▸ Nat.le_of_not_lt here
      have empty : Site.ofChain chain t.sites = [] := by
        refine List.filter_eq_nil_iff.mpr ?_
        intro s hs same
        exact here (of_decide_eq_true same ▸ known s hs)
      rw [List.getElem?_eq_none past, empty]
      rfl
  · intro s hs
    refine loaded.corrected s hs (Nat.zero_le _) ?_
    rw [Nat.zero_add]
    exact known s hs

/-! ## The data of a packed executable -/

/-- The relocations that are threaded when an executable with this main code
    is packed, in order, and where. -/
def packedRelocations (exe : Executable) (options : PackOptions)
    (code : MainCode) : List (Relocation × Site) :=
  (layoutOf exe code (packedExtra exe options)).threaded exe.dataImage
    (chainCount (packedExtra exe options))

/-- What a loaded image has in the place of a relocation: the address, in the
    resource that its target went to, that the word there stood for. -/
structure IsRelocated (exe : Executable) (options : PackOptions)
    (code : MainCode) (addresses : Nat → Nat) (final : Bytes)
    (r : Relocation) (s : Site) (source index : Nat) (target : Placement) :
    Prop where
  sourcePlaced : ∀ p, IsPlaced exe code (packedExtra exe options) r.container p
    ↔ p = ⟨dataChain, source⟩
  position : s.position = source + r.offset
  points : r.targetSection? exe.symbols = some index
  targetPlaced : ∀ p, IsPlaced exe code (packedExtra exe options) index p
    ↔ p = target
  chain : s.chain = target.chain
  word : (exe.architecture.value (placeAt final s.position) : Int)
    = (addresses target.chain
        + (exe.architecture.value (placeAt exe.dataImage s.position)
          - (exe.sectionAt index).address + target.base)) % 2 ^ 32

/-- The places of a chain, latest first. -/
theorem map_position_ofChain (chain : Nat) (threaded : List (Relocation × Site)) :
    (Site.ofChain chain (threaded.map Prod.snd).reverse).map Site.position
      = ((threaded.filter fun x => x.2.chain = chain).map
          fun x => x.2.position).reverse := by
  rw [Site.ofChain, List.filter_reverse, List.map_reverse, List.filter_map,
    List.map_map]
  rfl

section Packed

variable {exe : Executable} {options : PackOptions} {code : MainCode}

/-- Further sections are found by names that are asked for. -/
theorem packedExtra_found
    (names : ∀ name ∈ options.extraCode, name ∉ [".text", ".data", ".bss"]) :
    ∀ s ∈ packedExtra exe options, ∃ name, exe.find? name = some s
      ∧ name ∉ [".text", ".data", ".bss"] := by
  intro s hs
  obtain ⟨name, asked, found⟩ := List.mem_filterMap.mp hs
  exact ⟨name, found, names name asked⟩

/-- Sections go into the resources that have chains. -/
theorem IsPlaced.chain_lt {extra : List (Section × Nat)} {index : Nat}
    {placement : Placement} (h : IsPlaced exe code extra index placement) :
    placement.chain < chainCount extra := by
  have further : firstExtraChain ≤ chainCount extra := Nat.le_add_right _ _
  cases h with
  | text => exact Nat.lt_of_lt_of_le (show textChain < _ by decide) further
  | data => exact Nat.lt_of_lt_of_le (show dataChain < _ by decide) further
  | bss => exact Nat.lt_of_lt_of_le (show dataChain < _ by decide) further
  | further here _ =>
      exact Nat.add_lt_add_left (List.getElem?_eq_some_iff.mp here).1 _

end Packed

/-! ## Loading -/

section Laid

variable {exe : Executable} {options : PackOptions} {code : MainCode}
  (main : HasMainCode exe code)
  (order : ∀ d s, exe.data? = some d → exe.bss? = some s →
    d.1.address ≤ s.1.address)
  (names : ∀ name ∈ options.extraCode, name ∉ [".text", ".data", ".bss"])

include main order names

/-- The layout of a packed executable says where its sections go. -/
theorem placement?_packed_iff {index : Nat} {placement : Placement} :
    (layoutOf exe code (packedExtra exe options)).placement? index
        = some placement
      ↔ IsPlaced exe code (packedExtra exe options) index placement :=
  placement?_layoutOf_iff main.found order (packedExtra_found names)

/-- The chains of a packed executable are linked, if their places are
    apart, and each relocation was threaded for the word that the linker
    left. -/
theorem isThreaded_packed
    (apart : Site.AllApart
      ((packedRelocations exe options code).map Prod.snd)) :
    Site.AllApart (packedThreads exe options code).sites
      ∧ IsThreaded exe.architecture exe.dataImage
        (chainCount (packedExtra exe options))
        (packedThreads exe options code)
      ∧ ∀ x ∈ packedRelocations exe options code,
        (layoutOf exe code (packedExtra exe options)).site exe.dataImage x.1
          = .ok x.2 := by
  have inChains : (layoutOf exe code (packedExtra exe options)).InChains
      (chainCount (packedExtra exe options)) := by
    intro index placement placed
    exact ((placement?_packed_iff main order names).mp placed).chain_lt
  have reversed : Site.AllApart (packedThreads exe options code).sites := by
    rw [packedThreads, sites_threadAll]
    refine List.pairwise_reverse.mpr (List.Pairwise.imp ?_ apart)
    intro s t away
    exact away.symm
  exact ⟨reversed, isThreaded_threadAll inChains reversed⟩

/-- A loaded word is the address that the linker meant. -/
theorem isRelocated_of_corrected {r : Relocation} {s : Site}
    (site : (layoutOf exe code (packedExtra exe options)).site exe.dataImage r
      = .ok s) {addresses : Nat → Nat} {final : Bytes}
    (corrected : placeAt final s.position
      = exe.architecture.encode siteSize (addresses s.chain + s.offset)) :
    ∃ source index target,
      IsRelocated exe options code addresses final r s source index target := by
  obtain ⟨source, index, target, facts⟩ := Layout.site_eq_ok_iff.mp site
  have placed : ∀ {i placement},
      (layoutOf exe code (packedExtra exe options)).placement? i
          = some placement →
        ∀ p, IsPlaced exe code (packedExtra exe options) i p
          ↔ p = placement := by
    intro i placement here p
    rw [← placement?_packed_iff main order names, here, Option.some.injEq,
      eq_comm]
  have from_data := Layout.sourceBase?_eq_some_iff.mp facts.sourceBase
  obtain ⟨points, goes⟩ := Layout.target?_eq_some_iff.mp facts.destination
  refine ⟨source, index, target, placed from_data, facts.position, points,
    placed goes, facts.chain, ?_⟩
  have offset : s.offset + (exe.sectionAt index).address
      = exe.architecture.value (placeAt exe.dataImage s.position)
        + target.base := facts.offset
  have power : Nat.pow 256 siteSize = 2 ^ 32 := by decide
  -- an offset of 16 bits is not negative, so nothing is lost in it
  rw [corrected, exe.architecture.value_encode, ← facts.chain, power]
  omega

end Laid

section Loading

variable {exe : Executable} {options : PackOptions}

/-- **Packed data is loaded.**  The chains of a packed executable are counted
    in sixteen bits, and its data can be decoded.  Wherever the resources are
    put, the loader has one run over the decoded image: it visits the places
    of the threaded relocations of each chain, latest relocation first, and
    leaves in each the address that the word of the linker stands for, where
    the resource of its target was put. -/
theorem load_packed {origin : String} {db : Database .resource}
    (alone : exe.find? ".disposn" = none)
    (order : ∀ d s, exe.data? = some d → exe.bss? = some s →
      d.1.address ≤ s.1.address)
    (emits : options.emitData = true)
    (type : options.mainCode.type ≠ rlocType)
    (names : ∀ name ∈ options.extraCode, name ∉ [".text", ".data", ".bss"])
    (apart : ∀ code, HasMainCode exe code → Site.AllApart
      ((packedRelocations exe options code).map Prod.snd))
    (packed : (pack exe options origin).result = .ok db) :
    ∃ code data image, HasMainCode exe code
      ∧ chainCount (packedExtra exe options) < 2 ^ 16
      ∧ db.get? ⟨dataType, 0⟩ = some data
      ∧ Compression.decodeData data exe.imageSize = .ok image
      ∧ ∀ addresses : Nat → Nat, ∃ visits final,
        (∀ v f, Loader.Load exe.architecture addresses 0
            (Loader.storedHeads exe.architecture (db.get? ⟨rlocType, 0⟩))
            image v f ↔ v = visits ∧ f = final)
          ∧ (∀ chain, visits.getD chain []
            = (((packedRelocations exe options code).filter
                fun x => x.2.chain = chain).map
                  fun x => x.2.position).reverse)
          ∧ ∀ x ∈ packedRelocations exe options code,
            ∃ source index target, IsRelocated exe options code addresses
              final x.1 x.2 source index target := by
  obtain ⟨code, data, main, encoded, hasData, hasHeads⟩ :=
    pack_eq_ok alone emits type packed
  obtain ⟨allApart, threaded, sites⟩ :=
    isThreaded_packed main order names (apart code main)
  have length : (packedThreads exe options code).image.length
      = exe.imageSize := by
    rw [threaded.length, Executable.dataImage]
    split <;> exact Bytes.length_resize _ _
  refine ⟨code, data, (packedThreads exe options code).image, main,
    chainCount_packedExtra_lt alone packed, hasData, ?_, ?_⟩
  · rw [← length, Compression.decodeData_encodeData encoded
      (Nat.le_refl _), Nat.sub_self, List.replicate_zero, List.append_nil]
  · intro addresses
    have stored := threaded.storedHeads options.forceRelocations
    rw [← hasHeads] at stored
    obtain ⟨visits, final, load, visited, corrected⟩ :=
      threaded.exists_load allApart stored addresses
    have places : (packedThreads exe options code).sites
        = ((packedRelocations exe options code).map Prod.snd).reverse :=
      sites_threadAll _ _ _
    refine ⟨visits, final, ?_, ?_, ?_⟩
    · intro v f
      constructor
      · intro run
        exact run.unique load
      · rintro ⟨rfl, rfl⟩
        exact load
    · intro chain
      rw [visited, places, map_position_ofChain]
    · intro x hx
      have member : x.2 ∈ (packedThreads exe options code).sites := by
        rw [places]
        exact List.mem_reverse.mpr (List.mem_map_of_mem hx)
      exact isRelocated_of_corrected main order names (sites x hx)
        (corrected x.2 member)

end Loading

/-- Code that is entered at its second word, and three words of data: two
    addresses of code and between them one of a variable. -/
def sampleExecutable : Executable where
  architecture := .arm
  entry := 0x1004
  sections := [
    ⟨".text", 0x1000, 8, [1, 2, 3, 4, 5, 6, 7, 8], true⟩,
    ⟨".data", 0x8000, 12, [0x04, 0x10, 0, 0, 0x10, 0x80, 0, 0, 0, 0x10, 0, 0],
      false⟩,
    ⟨".bss", 0x8010, 4, [], false⟩]
  symbols := [⟨"counter", 0x8010, some 2⟩]
  relocations := [
    ⟨.absolute32, 1, 0, .container 0⟩,
    ⟨.absolute32, 1, 4, .symbol 0⟩,
    ⟨.absolute32, 1, 8, .container 0⟩]

def sampleCode : MainCode where
  text := ⟨".text", 0x1000, 8, [1, 2, 3, 4, 5, 6, 7, 8], true⟩
  index := 0
  entryOffset := 4
  branch := [0x00, 0x00, 0x00, 0xEA]

theorem load_packed_sample :
    ∃ db, (pack sampleExecutable (.standard .application) "sample").result
        = .ok db
      ∧ ∃ data image, db.get? ⟨dataType, 0⟩ = some data
        ∧ Compression.decodeData data 20 = .ok image
        ∧ ∃ visits final,
          Loader.Load .arm (fun chain => 0x20000 + 0x8000 * chain) 0
              (Loader.storedHeads .arm (db.get? ⟨rlocType, 0⟩))
              image visits final
            ∧ visits.getD dataChain [] = [4]
            ∧ visits.getD textChain [] = [8, 0]
            ∧ (Architecture.arm.value (placeAt final 8) : Int)
              = 0x28004 := by
  have main : ∀ code, HasMainCode sampleExecutable code → code = sampleCode := by
    intro code h
    have found : some (code.text, code.index)
        = some (sampleCode.text, sampleCode.index) :=
      h.found.symm.trans rfl
    obtain ⟨text, index⟩ := Prod.mk.inj (Option.some.inj found)
    have made := h.made
    rw [text, index] at made
    exact (Except.ok.inj (made.symm.trans rfl) : code = sampleCode)
  obtain ⟨db, packed⟩ : ∃ db,
      (pack sampleExecutable (.standard .application) "sample").result
        = .ok db := by
    have succeeds : (pack sampleExecutable (.standard .application)
        "sample").result.toOption.isSome = true := by cbv
    cases result : (pack sampleExecutable (.standard .application)
        "sample").result with
    | ok db => exact ⟨db, rfl⟩
    | error e =>
        rw [result] at succeeds
        cases succeeds
  have order : ∀ d s, sampleExecutable.data? = some d →
      sampleExecutable.bss? = some s → d.1.address ≤ s.1.address := by
    intro d s data bss
    cases data
    cases bss
    decide
  obtain ⟨code, data, image, hcode, -, hasData, decoded, loads⟩ :=
    load_packed (by decide) order rfl (by decide) (by decide) (by
      intro code h
      rw [main code h]
      decide) packed
  obtain rfl := main code hcode
  obtain ⟨visits, final, load, visited, relocated⟩ :=
    loads fun chain => 0x20000 + 0x8000 * chain
  -- the last word was the address of the code, behind its branch
  obtain ⟨source, index, target, last⟩ := relocated
    (⟨.absolute32, 1, 8, .container 0⟩, ⟨8, textChain, 4⟩) (by decide)
  obtain rfl : 0 = index := Option.some.inj last.points
  obtain rfl : ⟨textChain, 4⟩ = target := (last.targetPlaced _).mp .text
  exact ⟨db, packed, data, image, hasData, decoded, visits, final,
    (load _ _).mpr ⟨rfl, rfl⟩, (visited _).trans (by decide),
    (visited _).trans (by decide), last.word.trans (by decide)⟩

end Handheld
