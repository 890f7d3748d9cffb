import Handheld.Proofs.Compression.Framing
import Handheld.Proofs.Packing.Failures
import Handheld.Proofs.Packing.Guarded
import Handheld.Proofs.Packing.Loading

/-! # Accounting — every relocation is threaded or reported

    A relocation may name a section or a symbol that does not exist, an offset
    of any size, or a place that overlaps others.  Whatever it names:

    • `IsHandled` says what one relocation does.  Either it is threaded, into
      a place within the image and at the head of a chain that exists, or it
      is left out, and nothing changes but what is reported;
    • `IsAccounted` is what holds of the data after any number of them: heads
      fit 16 bits, and bytes outside of all places are as they were;
    • `perm_threadAll`: each relocation is threaded or left out, and none is
      both;
    • `pack_accounts` puts them together for a packed executable, with what
      the guarded threading does and what is stored in `rloc #0`, as long as
      chains can be counted;
    • `uncountedChains_stop`: a relocation that is not accounted for, because
      they cannot. -/

namespace Handheld

/-! ## One relocation -/

/-- What one relocation does to the data. -/
inductive IsHandled (l : Layout) (before : Threads) (r : Relocation)
    (after : Threads) : Prop where
  | leftOut {cause : Skip} :
      l.site before.image r = .error cause →
      after.image = before.image →
      after.heads = before.heads →
      after.sites = before.sites →
      after.skipped = (r, cause) :: before.skipped →
      IsHandled l before r after
  | threaded {s : Site} {head : Nat} :
      l.site before.image r = .ok s →
      s.position + siteSize ≤ before.image.length →
      s.position < endOfChain →
      before.heads[s.chain]? = some head →
      after.image = Bytes.overwrite before.image s.position
        (l.executable.architecture.encode 2 head
          ++ l.executable.architecture.encode 2 s.offset) →
      after.heads = before.heads.set s.chain s.position →
      after.sites = s :: before.sites →
      after.skipped = before.skipped →
      IsHandled l before r after

/-- Each step handles a relocation. -/
theorem isHandled_step {l : Layout} {chains : Nat} {t : Threads}
    (heads : t.heads.length = chains) (inChains : l.InChains chains)
    (r : Relocation) : IsHandled l t r (t.step l r) := by
  rw [Threads.step]
  cases found : l.site t.image r with
  | error cause => exact .leftOut found rfl rfl rfl rfl
  | ok s =>
      obtain ⟨_, _, _, facts⟩ := Layout.site_eq_ok_iff.mp found
      have known : s.chain < t.heads.length :=
        heads ▸ facts.chain_lt inChains
      exact .threaded found facts.inside facts.linkable
        (List.getElem?_eq_getElem known) (Threads.image_thread_of_lt known)
        rfl rfl rfl

/-! ## The invariant -/

/-- What holds of data into which some relocations were threaded, however
    their places overlap. -/
structure IsAccounted (image : Bytes) (chains : Nat) (t : Threads) : Prop where
  length : t.image.length = image.length
  heads : t.heads.length = chains
  headsFit : ∀ head ∈ t.heads, head ≤ endOfChain
  inside : ∀ s ∈ t.sites, s.position + siteSize ≤ image.length
  linkable : ∀ s ∈ t.sites, s.position < endOfChain
  inChains : ∀ s ∈ t.sites, s.chain < chains
  untouched : ∀ p, (∀ s ∈ t.sites,
    p < s.position ∨ s.position + siteSize ≤ p) → t.image[p]? = image[p]?

namespace IsAccounted

variable {l : Layout} {image : Bytes} {chains : Nat} {t after : Threads}

theorem start (image : Bytes) (chains : Nat) :
    IsAccounted image chains (.start image chains) := by
  refine ⟨rfl, List.length_replicate, ?_, ?_, ?_, ?_, fun _ _ => rfl⟩
  · intro head member
    exact Nat.le_of_eq (List.eq_of_mem_replicate member)
  all_goals
    intro s hs
    cases hs

/-- One relocation keeps the invariant. -/
theorem handle (h : IsAccounted image chains t) {r : Relocation}
    (handled : IsHandled l t r after) : IsAccounted image chains after := by
  cases handled with
  | leftOut _ sameImage sameHeads sameSites _ =>
      obtain ⟨length, heads, headsFit, inside, linkable, inChains, untouched⟩ :=
        h
      constructor
      all_goals
        simp only [sameImage, sameHeads, sameSites]
        assumption
  | @threaded s head _ inside linkable known written newHeads newSites _ =>
      have size := IsThreaded.length_link (a := l.executable.architecture) head
        s.offset
      have room := size.symm ▸ inside
      have inChains : s.chain < chains :=
        h.heads ▸ (List.getElem?_eq_some_iff.mp known).1
      refine ⟨?_, ?_, ?_, ?_, ?_, ?_, ?_⟩
      · rw [written, Bytes.length_overwrite room, h.length]
      · rw [newHeads, List.length_set, h.heads]
      · rw [newHeads]
        intro other member
        rcases List.mem_or_eq_of_mem_set member with earlier | rfl
        · exact h.headsFit other earlier
        · exact Nat.le_of_lt linkable
      · rw [newSites]
        exact List.forall_mem_cons.mpr ⟨h.length ▸ inside, h.inside⟩
      · rw [newSites]
        exact List.forall_mem_cons.mpr ⟨linkable, h.linkable⟩
      · rw [newSites]
        exact List.forall_mem_cons.mpr ⟨inChains, h.inChains⟩
      · rw [newSites]
        intro p away
        obtain ⟨here, others⟩ := List.forall_mem_cons.mp away
        rw [written, Bytes.getElem?_overwrite_apart room (size.symm ▸ here)]
        exact h.untouched p others

/-- Relocations keep the invariant. -/
theorem foldl_step (h : IsAccounted image chains t)
    (inChains : l.InChains chains) (rs : List Relocation) :
    IsAccounted image chains (rs.foldl (Threads.step l) t) := by
  induction rs generalizing t with
  | nil => exact h
  | cons r rs ih => exact ih (h.handle (isHandled_step h.heads inChains r))

end IsAccounted

/-! ## All relocations -/

/-- Each relocation is threaded or left out once. -/
theorem Threads.perm_foldl_step (l : Layout) (rs : List Relocation)
    (t : Threads) :
    ((l.threadedFrom t rs).map Prod.fst
        ++ (rs.foldl (step l) t).skipped.map Prod.fst).Perm
      (rs ++ t.skipped.map Prod.fst) := by
  induction rs generalizing t with
  | nil => exact .refl _
  | cons r rs ih =>
      have rest := ih (t.step l r)
      rw [List.foldl_cons, Layout.threadedFrom]
      cases found : l.site t.image r with
      | ok s =>
          have skipped : (t.step l r).skipped = t.skipped := by
            rw [step, found]
            rfl
          rw [skipped] at rest
          exact rest.cons r
      | error cause =>
          have skipped : (t.step l r).skipped = (r, cause) :: t.skipped := by
            rw [step, found]
            rfl
          rw [skipped] at rest
          exact rest.trans List.perm_middle

/-- The same for all relocations of an executable. -/
theorem perm_threadAll (l : Layout) (image : Bytes) (chains : Nat) :
    ((l.threaded image chains).map Prod.fst
        ++ (threadAll l image chains).skipped.map Prod.fst).Perm
      l.executable.relocations := by
  have h := Threads.perm_foldl_step l l.executable.relocations
    (.start image chains)
  rwa [Threads.start, List.map_nil, List.append_nil] at h

/-- The number threaded and that of the problems make the number of all. -/
theorem length_threadAll (l : Layout) (image : Bytes) (chains : Nat)
    (origin : String) :
    (threadAll l image chains).sites.length
        + ((threadAll l image chains).warnings l origin).length
      = l.executable.relocations.length := by
  have h := Threads.length_foldl_step l l.executable.relocations
    (.start image chains)
  rw [Threads.length_warnings]
  exact h.trans (Nat.zero_add _)

/-! ## Heads -/

/-- Heads are stored in two bytes each. -/
theorem Threads.length_headBytes (a : Architecture) (t : Threads) :
    (t.headBytes a).length = 2 * t.heads.length := by
  rw [headBytes]
  induction t.heads with
  | nil => rfl
  | cons head heads ih =>
      rw [List.flatMap_cons, List.length_append, a.length_encode, ih,
        List.length_cons]
      omega

/-! ## The data of a packed executable -/

section Packed

variable {exe : Executable} {options : PackOptions}

/-- The chains of an executable with this main code after its first
    relocations, if these are the first ones. -/
def threadsAfter (exe : Executable) (options : PackOptions) (code : MainCode)
    (first : List Relocation) : Threads :=
  first.foldl (Threads.step (layoutOf exe code (packedExtra exe options)))
    (.start exe.dataImage (chainCount (packedExtra exe options)))

theorem threadsAfter_concat (exe : Executable) (options : PackOptions)
    (code : MainCode) (first : List Relocation) (r : Relocation) :
    threadsAfter exe options code (first ++ [r])
      = (threadsAfter exe options code first).step
        (layoutOf exe code (packedExtra exe options)) r :=
  List.foldl_append

theorem isAccounted_threadsAfter (exe : Executable) (options : PackOptions)
    (code : MainCode) (first : List Relocation) :
    IsAccounted exe.dataImage (chainCount (packedExtra exe options))
      (threadsAfter exe options code first) :=
  (IsAccounted.start _ _).foldl_step
    (inChains_layoutOf exe code (packedExtra exe options)) first

theorem isAccounted_packed (exe : Executable) (options : PackOptions)
    (code : MainCode) :
    IsAccounted exe.dataImage (chainCount (packedExtra exe options))
      (packedThreads exe options code) :=
  isAccounted_threadsAfter exe options code exe.relocations

/-- Code that is not standalone is packed, if there are chains and numbers for
    all further sections and the data are not too long. -/
theorem exists_pack_eq_ok {code : MainCode} {further : List Resource}
    (alone : exe.find? ".disposn" = none) (main : HasMainCode exe code)
    (counted : (packedExtra exe options).length ≤ maxExtra)
    (numbers : numbered? options.mainCode.type
        ((firstResources exe options ⟨options.mainCode, false⟩ code).map
          Prod.fst)
        options.mainCode.id ((packedExtra exe options).map Prod.fst)
      = some further)
    (small : exe.imageSize < 2 ^ 32 - 2 ^ 26) (origin : String) :
    ∃ db, (pack exe options origin).result = .ok db := by
  have hasRole := codeRole_of_alone alone options
  have length : (packedThreads exe options code).image.length
      = exe.imageSize :=
    (isAccounted_packed exe options code).length.trans exe.length_dataImage
  obtain ⟨encoded, encodes⟩ :=
    Compression.exists_encodeData options.effort (length ▸ small)
  cases keeps : discardsData options ⟨options.mainCode, false⟩ with
  | true =>
      have parts : IsMade exe options ⟨options.mainCode, false⟩ code further
          [] := by
        have nothing (kept : discardsData options
            ⟨options.mainCode, false⟩ = false) : False := by
          cases keeps.symm.trans kept
        exact ⟨hasRole, main, counted, numbers, fun _ => rfl,
          fun kept => (nothing kept).elim, fun kept => (nothing kept).elim⟩
      exact ⟨_, (parts.pack_yields origin).1⟩
  | false =>
      have parts : IsMade exe options ⟨options.mainCode, false⟩ code further
          (headResources options exe.architecture
              (packedThreads exe options code)
            ++ [(⟨dataType, 0⟩, encoded)]) := by
        have sized : exe.bssEnd < 2 ^ 64 :=
          Nat.lt_of_le_of_lt (Nat.le_max_right _ _)
            (Nat.lt_trans small (by decide))
        refine ⟨hasRole, main, counted, numbers, ?_, fun _ => sized,
          fun _ => ⟨encoded, encodes, rfl⟩⟩
        intro discards
        cases keeps.symm.trans discards
      exact ⟨_, (parts.pack_yields origin).1⟩

/-- What is reported and stored when an executable is packed with its data. -/
theorem pack_stores_heads {origin : String} {db : Database .resource}
    (alone : exe.find? ".disposn" = none) (emits : options.emitData = true)
    (packed : (pack exe options origin).result = .ok db) :
    ∃ code further data, HasMainCode exe code
      ∧ (pack exe options origin).diagnostics
        = missingWarnings exe origin options.extraCode
          ++ ((packedThreads exe options code).warnings
              (layoutOf exe code (packedExtra exe options)) origin
            ++ spuriousWarnings (layoutOf exe code (packedExtra exe options))
              origin)
      ∧ (resources exe options origin).result
        = .ok (firstResources exe options ⟨options.mainCode, false⟩ code
          ++ further ++ data)
      ∧ ∃ encoded, data
        = (if StoresHeads options (packedThreads exe options code)
            then [(⟨rlocType, 0⟩,
              (packedThreads exe options code).headBytes exe.architecture)]
            else [])
          ++ [(⟨dataType, 0⟩, encoded)] := by
  obtain ⟨code, further, data, parts, -⟩ :=
    pack_alone_eq_insertAll alone packed
  have keeps : discardsData options ⟨options.mainCode, false⟩ = false := by
    simp [discardsData, emits]
  have reported := parts.diagnostics_pack origin
  rw [dataWarnings, if_neg (Bool.eq_false_iff.mp keeps)] at reported
  obtain ⟨encoded, -, made⟩ := parts.packed keeps
  exact ⟨code, further, data, parts.main, reported,
    (parts.resources_yields origin).1, encoded, made⟩

/-- **Every relocation is accounted for**, if all of them are in sections that
    exist.  With more further sections than chains can be counted, the guarded
    threading is stopped before its first relocation, and nothing is packed.
    With fewer it is never stopped, and threads and reports what threading
    does.  Each relocation is then either threaded or reported, and all that a
    relocation does is what `IsHandled` says.  If the executable is packed with
    its data, then these problems are among those reported, and the heads of
    all chains are stored, in two bytes each, if anything was threaded or heads
    are asked for. -/
theorem pack_accounts {code : MainCode} (main : HasMainCode exe code)
    (sources : ∀ r ∈ exe.relocations, r.container < exe.sections.length)
    (origin : String) :
    let extra := packedExtra exe options
    let l := layoutOf exe code extra
    let chains := chainCount extra
    let t := packedThreads exe options code
    let warnings := t.warnings l origin
    (maxExtra < extra.length →
      Threads.Guarded.run l exe.dataImage extra origin = .error .noChain
        ∧ (exe.find? ".disposn" = none →
          (pack exe options origin).result
            = .error (.standstill .chainOverflow)))
      ∧ (extra.length ≤ maxExtra →
        chains < 2 ^ 16
        ∧ Threads.Guarded.run l exe.dataImage extra origin
          = .ok ⟨t.image, t.heads, t.sites.length, warnings⟩
        ∧ t.sites.length + warnings.length = exe.relocations.length
        ∧ ((packedRelocations exe options code).map Prod.fst
            ++ t.skipped.map Prod.fst).Perm exe.relocations
        ∧ (∀ before r after, exe.relocations = before ++ r :: after →
          IsHandled l (threadsAfter exe options code before) r
            (threadsAfter exe options code (before ++ [r])))
        ∧ IsAccounted exe.dataImage chains t
        ∧ (exe.find? ".disposn" = none → options.emitData = true →
          ∀ db, (pack exe options origin).result = .ok db →
            (pack exe options origin).diagnostics
                = missingWarnings exe origin options.extraCode
                  ++ (warnings ++ spuriousWarnings l origin)
              ∧ (∃ further encoded, (resources exe options origin).result
                = .ok (firstResources exe options ⟨options.mainCode, false⟩
                    code
                  ++ further
                  ++ ((if StoresHeads options t
                      then [(⟨rlocType, 0⟩, t.headBytes exe.architecture)]
                      else [])
                    ++ [(⟨dataType, 0⟩, encoded)])))
              ∧ (StoresHeads options t →
                db.get? ⟨rlocType, 0⟩ = some (t.headBytes exe.architecture)
                  ∧ (t.headBytes exe.architecture).length = 2 * chains
                  ∧ Loader.storedHeads exe.architecture
                    (db.get? ⟨rlocType, 0⟩) = t.heads)
              ∧ (options.mainCode.type ≠ rlocType →
                ((db.get? ⟨rlocType, 0⟩).isSome
                  ↔ StoresHeads options t)))) := by
  intro extra l chains t warnings
  have inChains : l.InChains chains := inChains_layoutOf exe code extra
  have accounted : IsAccounted exe.dataImage chains t :=
    isAccounted_packed exe options code
  have guarded := Threads.Guarded.run_eq
    (inSections_layoutOf main options.extraCode) inChains sources exe.dataImage
    origin
  constructor
  · intro many
    refine ⟨guarded.trans (if_neg (Nat.not_le_of_lt many)), fun alone => ?_⟩
    exact pack_eq_error_iff.mpr (.noChain (codeRole_of_alone alone options)
      main many)
  intro few
  refine ⟨chainCount_lt few, guarded.trans (if_pos few),
    length_threadAll l _ _ origin, perm_threadAll l _ _, ?_, accounted, ?_⟩
  · intro before r after _
    rw [threadsAfter_concat]
    exact isHandled_step
      (isAccounted_threadsAfter exe options code before).heads inChains r
  · intro alone emits db packed
    obtain ⟨other, further, data, otherMain, reported, made, encoded, rfl⟩ :=
      pack_stores_heads alone emits packed
    obtain rfl := otherMain.unique main
    obtain ⟨other, _, otherMain, -, -, hasHeads, hasNone⟩ :=
      pack_data_eq_ok alone emits packed
    obtain rfl := otherMain.unique main
    refine ⟨reported, ⟨further, encoded, made⟩, ?_, ?_⟩
    · intro stores
      have length := Threads.length_headBytes exe.architecture t
      rw [accounted.heads] at length
      refine ⟨hasHeads stores, length, ?_⟩
      rw [hasHeads stores]
      exact Loader.storedHeads_headBytes accounted.headsFit
    · intro type
      by_cases stores : StoresHeads options t
      · rw [hasHeads stores]
        exact ⟨fun _ => stores, fun _ => rfl⟩
      · rw [hasNone type stores]
        exact ⟨fun some => (Bool.false_ne_true some).elim,
          fun other => (stores other).elim⟩

end Packed

/-- Data with six relocations, only the first of which can be threaded: the
    others are of another type, in the code, at an offset of 64 bits, against
    a symbol that does not exist, and for a word below its section. -/
def strayRelocations : Executable where
  architecture := .m68k
  entry := 0x1000
  sections := [
    ⟨".text", 0x1000, 2, [0x4E, 0x75], true⟩,
    ⟨".data", 0x8000, 8, [0, 0, 0x10, 0, 0, 0, 0, 0], false⟩]
  symbols := []
  relocations := [
    ⟨.absolute32, 1, 0, .container 0⟩,
    ⟨.other 7, 1, 4, .container 0⟩,
    ⟨.absolute32, 0, 0, .container 0⟩,
    ⟨.absolute32, 1, 0xFFFF_FFFF_FFFF_FFFF, .container 0⟩,
    ⟨.absolute32, 1, 4, .symbol 9⟩,
    ⟨.absolute32, 1, 4, .container 1⟩]

theorem pack_accounts_strayRelocations :
    ∃ db, (pack strayRelocations (.standard .application) "sample").result
        = .ok db
      ∧ (pack strayRelocations (.standard .application)
        "sample").diagnostics.length = 5
      ∧ Loader.storedHeads .m68k (db.get? ⟨rlocType, 0⟩) = [endOfChain, 0] := by
  have main : HasMainCode strayRelocations
      ⟨⟨".text", 0x1000, 2, [0x4E, 0x75], true⟩, 0, 0, []⟩ :=
    ⟨rfl, by cbv⟩
  obtain ⟨db, packed⟩ := @exists_pack_eq_ok strayRelocations
    (.standard .application) _ _ (by decide) main (by decide) rfl (by decide)
    "sample"
  obtain ⟨-, -, count, -, -, -, stored⟩ := (@pack_accounts strayRelocations
    (.standard .application) _ main (by decide) "sample").2 (by decide)
  obtain ⟨reported, -, heads, -⟩ := stored (by decide) rfl db packed
  have threaded : (packedThreads strayRelocations (.standard .application)
      ⟨⟨".text", 0x1000, 2, [0x4E, 0x75], true⟩, 0, 0, []⟩).sites.length
        = 1 := by decide
  refine ⟨db, packed, ?_, (heads (by decide)).2.2.trans (by decide)⟩
  -- no section is missing, and no code goes nowhere
  have rest : (pack strayRelocations (.standard .application)
      "sample").diagnostics = [] ++ (_ ++ []) := reported
  rw [threaded] at count
  rw [rest, List.nil_append, List.append_nil]
  exact Nat.add_left_cancel count

/-- Code, further code, and the address of the former in the data. -/
def addressedCode : Executable where
  architecture := .m68k
  entry := 0x1000
  sections := [
    ⟨".text", 0x1000, 2, [0x4E, 0x75], true⟩,
    ⟨".x", 0x2000, 2, [0x4E, 0x71], true⟩,
    ⟨".data", 0x8000, 4, [0, 0, 0x10, 0], false⟩]
  symbols := []
  relocations := [⟨.absolute32, 2, 0, .container 0⟩]

def addressedCodeMain : MainCode :=
  ⟨⟨".text", 0x1000, 2, [0x4E, 0x75], true⟩, 0, 0, []⟩

/-- The further code is asked for once more than chains can be counted. -/
def uncountedChains : PackOptions :=
  { PackOptions.standard .generic with
    extraCode := List.replicate 65534 ".x" }

theorem packedExtra_uncountedChains :
    packedExtra addressedCode uncountedChains
      = List.replicate 65534 (⟨".x", 0x2000, 2, [0x4E, 0x71], true⟩, 1) :=
  List.filterMap_replicate_of_some rfl

/-- The relocation is one that is threaded, with the main code in its chain. -/
theorem site_uncountedChains :
    (layoutOf addressedCode addressedCodeMain
        (packedExtra addressedCode uncountedChains)).site
      addressedCode.dataImage ⟨.absolute32, 2, 0, .container 0⟩
        = .ok ⟨0, textChain, 0⟩ := by
  have placed := @placement?_layoutOf_iff addressedCode addressedCodeMain
    (packedExtra addressedCode uncountedChains) rfl (by
      rintro _ _ _ none
      cases none) (packedExtra_found (by
        intro name asked
        rw [List.eq_of_mem_replicate asked]
        decide))
  refine Layout.site_eq_ok_iff.mpr ⟨0, 0, ⟨textChain, 0⟩, ?_⟩
  exact {
    type := rfl
    sourceBase := Layout.sourceBase?_eq_some_iff.mpr (placed.mpr (.data rfl))
    destination := Layout.target?_eq_some_iff.mpr ⟨rfl, placed.mpr .text⟩
    position := rfl
    inside := by decide
    linkable := by decide
    chain := rfl
    fits := by decide
    offset := by decide }

/-- There is no chain left to count for the last section.  If the counter went
    on from zero, there would be no head to thread the relocation at. -/
theorem uncountedChains_stop :
    let extra := packedExtra addressedCode uncountedChains
    let l := layoutOf addressedCode addressedCodeMain extra
    (∀ r ∈ addressedCode.relocations,
        r.container < addressedCode.sections.length)
      ∧ Threads.Guarded.run l addressedCode.dataImage extra "sample"
        = .error .noChain
      ∧ (pack addressedCode uncountedChains "sample").result
        = .error (.standstill .chainOverflow)
      ∧ UInt16.ofNat (chainCount extra) = 0
      ∧ Threads.Guarded.relocate l addressedCode.dataImage 0 "sample"
        = .error .noHead := by
  intro extra l
  have main : HasMainCode addressedCode addressedCodeMain := ⟨rfl, by cbv⟩
  have count : extra.length = 65534 :=
    (congrArg List.length packedExtra_uncountedChains).trans
      List.length_replicate
  have many : maxExtra < extra.length := count ▸ (by decide)
  refine ⟨by decide, ?_, ?_, ?_, ?_⟩
  · have stopped := countChains_eq_error_iff.mpr ⟨many, rfl⟩
    rw [Threads.Guarded.run, stopped]
  · exact pack_eq_error_iff.mpr
      (.noChain (codeRole_of_alone (by decide) _) main many)
  · rw [chainCount, count]
    decide
  · exact Threads.Guarded.relocate_eq_noHead
      (inSections_layoutOf main uncountedChains.extraCode) rfl (by decide)
      site_uncountedChains (Nat.zero_le _) "sample"

end Handheld
