import Handheld.Executable.Elf.Listing
import Handheld.Proofs.Executable.Listing
import Handheld.Proofs.Packing.Guarded

/-! # ELF files — what a file holds is what is read from its listing

    The executable in an ELF file has no tables of positions: it searches the
    sections that have a name, and reckons the position of a symbol.

    • `isDistinct_listing`: no number is listed twice;
    • `positionOf?_eq`, `targetOf_eq`: what is searched and reckoned is what
      the tables tell;
    • `executable_eq_ok_iff`: the executable in a file is the one that is read
      from its listing;
    • `Listing.executable_numbered`: threading it is only stopped for want of
      chains. -/

namespace Handheld.Elf

/-! ## Sections -/

theorem isDistinct_listing (e : Elf) : e.listing.IsDistinct := by
  have numbers : e.listing.sections.map (·.number)
      = List.range' 1 e.file.sections.tail.length := by
    rw [← List.zipIdx_map_snd, listing, listedFrom, List.map_map]
    rfl
  rw [Listing.IsDistinct, numbers]
  exact List.nodup_range'

/-- The section as it is listed. -/
def NamedSection.listed (f : File) (a : Architecture) (s : NamedSection) :
    ListedSection :=
  s.entry.listed f a s.number

section Sections

variable {f : File} {a : Architecture} {number : Nat}
  {entries : List SectionEntry} {named : List NamedSection}

theorem listedFrom_cons (entry : SectionEntry) :
    listedFrom f a number (entry :: entries)
      = entry.listed f a number :: listedFrom f a (number + 1) entries :=
  rfl

/-- Sections are found with the names with which they are listed. -/
theorem listed_of_allFrom_eq_ok
    (done : NamedSection.allFrom f.sectionNames number entries = .ok named) :
    (∀ s ∈ listedFrom f a number entries, s.name?.isSome)
      ∧ named.map (NamedSection.listed f a)
        = Listing.named (listedFrom f a number entries)
      ∧ ∀ s ∈ named, f.sectionNames.get? s.entry.nameOffset = some s.name := by
  induction entries generalizing number named with
  | nil =>
      cases done
      exact ⟨nofun, rfl, nofun⟩
  | cons entry entries ih =>
      rw [NamedSection.allFrom] at done
      split at done
      · cases done
      · next name name_eq =>
          split at done
          · cases done
          · next others found =>
              obtain ⟨readable, listed, names⟩ := ih found
              rw [listedFrom_cons]
              refine ⟨List.forall_mem_cons.mpr
                ⟨Option.isSome_of_eq_some name_eq, readable⟩, ?_⟩
              split at done
              · next unnamed =>
                  cases done
                  refine ⟨?_, names⟩
                  rw [Listing.named_cons_of_eq (unnamed ▸ name_eq)]
                  exact listed
              · next hasName =>
                  cases done
                  refine ⟨?_, List.forall_mem_cons.mpr ⟨name_eq, names⟩⟩
                  rw [Listing.named_cons_of_ne fun same =>
                    hasName (Option.some.inj (name_eq.symm.trans same))]
                  exact congrArg _ listed

/-- They are found unless the name of one is damaged. -/
theorem damaged_of_allFrom_eq_error {fault : ObjectFault}
    (failed : NamedSection.allFrom f.sectionNames number entries = .error fault) :
    ∃ s ∈ listedFrom f a number entries, s.name? = none := by
  induction entries generalizing number with
  | nil => cases failed
  | cons entry entries ih =>
      rw [NamedSection.allFrom] at failed
      rw [listedFrom_cons]
      split at failed
      · next damaged => exact ⟨_, List.mem_cons_self, damaged⟩
      · split at failed
        · next other =>
            cases failed
            obtain ⟨s, member, damaged⟩ := ih other
            exact ⟨s, List.mem_cons_of_mem _ member, damaged⟩
        · split at failed <;> cases failed

/-- A section with a name can be read just if it can as it is listed. -/
theorem toSection_eq_ok_iff {s : NamedSection} {out : Section}
    (name : f.sectionNames.get? s.entry.nameOffset = some s.name) :
    s.toSection f.bytes = .ok out ↔ (s.listed f a).IsRead out := by
  have data : (s.listed f a).data? = s.entry.contents? f.bytes := by
    simp [ListedSection.data?, NamedSection.listed, SectionEntry.listed,
      SectionEntry.contents?]
  rw [NamedSection.toSection, ← data]
  constructor
  · intro done
    split at done
    · next found =>
        cases done
        exact .read name found
    · cases done
  · intro same
    cases same with
    | read name_eq data_eq =>
        cases name.symm.trans name_eq
        rw [data_eq]
        rfl

/-- A list of results is made just if each of them is. -/
theorem mapM_eq_ok_iff {α β ε : Type} {g : α → Except ε β} {as : List α}
    {bs : List β} :
    as.mapM g = .ok bs ↔ List.Forall₂ (fun x b => g x = .ok b) as bs := by
  induction as generalizing bs with
  | nil =>
      constructor
      · intro done
        cases done
        exact .nil
      · rintro ⟨⟩
        rfl
  | cons x as ih =>
      rw [List.mapM_cons, List.forall₂_cons_left_iff]
      cases made : g x with
      | error fault =>
          exact ⟨nofun, fun ⟨_, _, here, _⟩ => nomatch here⟩
      | ok b =>
          cases rest : as.mapM g with
          | error fault =>
              refine ⟨nofun, ?_⟩
              rintro ⟨_, _, -, done, -⟩
              cases rest.symm.trans (ih.mpr done)
          | ok others =>
              constructor
              · intro done
                cases done
                exact ⟨b, others, rfl, ih.mp rest, rfl⟩
              · rintro ⟨_, _, here, done, rfl⟩
                cases here
                cases rest.symm.trans (ih.mpr done)
                rfl

/-- The sections that are found are read as they are listed. -/
theorem mapM_toSection_eq_ok_iff {out : List Section}
    (names : ∀ s ∈ named, f.sectionNames.get? s.entry.nameOffset = some s.name) :
    named.mapM (NamedSection.toSection f.bytes) = .ok out
      ↔ List.Forall₂ ListedSection.IsRead (named.map (NamedSection.listed f a))
        out := by
  rw [mapM_eq_ok_iff, List.forall₂_map_left_iff]
  -- that the names are right has to be known at each section
  have each (s : NamedSection) (b : Section) :
      f.sectionNames.get? s.entry.nameOffset = some s.name
          ∧ s.toSection f.bytes = .ok b
        ↔ f.sectionNames.get? s.entry.nameOffset = some s.name
          ∧ (s.listed f a).IsRead b :=
    and_congr_right toSection_eq_ok_iff
  rw [← and_iff_right (b := List.Forall₂ _ _ _) names,
    ← List.forall₂_and_left]
  simp only [each]
  rw [List.forall₂_and_left, and_iff_right names]

end Sections

/-! ## Positions -/

section Positions

variable {f : File} {a : Architecture} {named : List NamedSection}
  {indices numbers : Positions}

/-- The position that is searched is the one that a table tells. -/
theorem positionOf?_eq (nodup : (named.map (·.number)).Nodup)
    (index : IsIndex (named.map (·.number)) indices) (number : Nat) :
    NamedSection.positionOf? named number = indices[number]? := by
  refine Option.ext fun position => ?_
  rw [index.getElem?_eq_some_iff nodup, NamedSection.positionOf?,
    List.findIdx?_eq_some_iff_getElem]
  constructor
  · rintro ⟨inside, found, -⟩
    rw [List.getElem?_map, List.getElem?_eq_getElem inside]
    exact congrArg some (of_decide_eq_true found)
  · intro listed
    obtain ⟨inside, found⟩ := List.getElem?_eq_some_iff.mp listed
    rw [List.length_map] at inside
    rw [List.getElem_map] at found
    -- an earlier section with this number would be a second one
    refine ⟨inside, decide_eq_true found, fun j before same => ?_⟩
    have apart := List.pairwise_iff_getElem.mp nodup j position
      (by rw [List.length_map]; omega) (by rwa [List.length_map]) before
    rw [List.getElem_map, List.getElem_map, found] at apart
    exact apart (of_decide_eq_true same)

/-- The symbols of a file are read from its listing. -/
theorem symbolsFrom_eq (places : ∀ number,
      NamedSection.positionOf? named number = indices[number]?)
    (table : SymbolTable) (number : Nat) (entries : List SymbolEntry) :
    symbolsFrom named table number entries
      = (listedSymbolsFrom table number entries).map
        (ListedSymbol.symbol indices) := by
  induction entries generalizing number with
  | nil => rfl
  | cons entry entries ih =>
      rw [symbolsFrom, ih, funext places]
      rfl

/-- The position of a symbol that is reckoned is the one that a table
    tells. -/
theorem targetOf_eq
    (index : IsIndex ((listedSymbolsFrom f.symbols 1 f.symbols.entries.tail).map
      (·.number)) numbers) (entry : RelocationEntry) :
    targetOf f entry.symbol
      = (entry.listed a).target.target indices numbers := by
  have range : (listedSymbolsFrom f.symbols 1 f.symbols.entries.tail).map
      (·.number) = List.range' 1 (f.symbols.entries.length - 1) := by
    rw [← List.length_tail, ← List.zipIdx_map_snd, listedSymbolsFrom, List.map_map]
    rfl
  rw [range] at index
  have told : ∀ position, numbers[entry.symbol]? = some position
      ↔ position < f.symbols.entries.length - 1 ∧ 1 + position = entry.symbol := by
    intro position
    rw [index.getElem?_eq_some_iff List.nodup_range', List.getElem?_eq_some_iff]
    simp
  rw [targetOf, RelocationEntry.listed]
  by_cases zero : entry.symbol = 0
  · rw [if_neg (by omega), if_pos zero]
    rfl
  · rw [if_neg zero, ListedTarget.target]
    split
    · next known =>
        rw [(told (entry.symbol - 1)).mpr (by omega)]
    · next unknown =>
        cases found : numbers[entry.symbol]? with
        | none => rfl
        | some position =>
            have := (told position).mp found
            omega

theorem relocation_eq
    (index : IsIndex ((listedSymbolsFrom f.symbols 1 f.symbols.entries.tail).map
      (·.number)) numbers) (position : Nat) (s : NamedSection)
    (entry : RelocationEntry) :
    relocation f a position s.entry.address entry
      = (entry.listed a).relocation indices numbers position (s.listed f a) := by
  have target : targetOf f entry.symbol
      = (entry.listed a).target.target indices numbers := targetOf_eq index entry
  rw [relocation, target, ListedRelocation.relocation]
  congr 1
  rw [ListedRelocation.type, RelocationEntry.listed]
  by_cases absolute : entry.type = absoluteType a
  · simp [absolute]
  · simp [absolute]

/-- The relocations of a section are read from its listing. -/
theorem relocationsIn_listed
    (index : IsIndex ((listedSymbolsFrom f.symbols 1 f.symbols.entries.tail).map
      (·.number)) numbers) {s : NamedSection} {position : Nat}
    (here : indices[s.number]? = some position) :
    Listing.relocationsIn indices numbers (s.listed f a)
      = (chain f s.number).flatMap fun entry =>
        (relocationEntries f entry).map
          (relocation f a position s.entry.address) := by
  have listed : (s.listed f a).relocations
      = ((chain f s.number).flatMap (relocationEntries f)).map
        (RelocationEntry.listed a) := rfl
  rw [Listing.relocationsIn, show indices[(s.listed f a).number]? = _ from here]
  dsimp only
  rw [listed, List.map_map, List.map_flatMap]
  refine List.flatMap_congr fun entry _ => List.map_congr_left fun r _ => ?_
  exact (relocation_eq index position s r).symm

/-- The relocations of a file are read from its listing. -/
theorem relocations_eq (nodup : (named.map (·.number)).Nodup)
    (index : IsIndex (named.map (·.number)) indices)
    (symbolIndex : IsIndex ((listedSymbolsFrom f.symbols 1
      f.symbols.entries.tail).map (·.number)) numbers) :
    relocations f a named.zipIdx
      = (named.map (NamedSection.listed f a)).flatMap
        (Listing.relocationsIn indices numbers) := by
  have positions : named = named.zipIdx.map Prod.fst :=
    (List.zipIdx_map_fst 0 named).symm
  -- the walk over the listing is told no positions, but finds the same ones
  rw [relocations, List.flatMap_map]
  nth_rewrite 2 [positions]
  rw [List.flatMap_map]
  refine List.flatMap_congr fun p member => ?_
  have here : indices[p.1.number]? = some p.2 := by
    rw [index.getElem?_eq_some_iff nodup, List.getElem?_map,
      List.mem_zipIdx_iff_getElem?.mp member]
    rfl
  exact (relocationsIn_listed symbolIndex here).symm

end Positions

/-! ## The executable in a file -/

section Whole

variable {e : Elf} {named : List NamedSection} {read : List Section}

/-- The sections of a file can be read just if they can as they are listed. -/
theorem readSections_listing_eq_ok_iff :
    e.listing.readSections = .ok read
      ↔ ∃ named, NamedSection.all e.file = .ok named
        ∧ named.mapM (NamedSection.toSection e.file.bytes) = .ok read := by
  rw [Listing.readSections_eq_ok_iff]
  cases found : NamedSection.all e.file with
  | error fault =>
      obtain ⟨s, member, damaged⟩ :=
        damaged_of_allFrom_eq_error (a := e.architecture) found
      refine iff_of_false (fun h => ?_) (by rintro ⟨_, ⟨⟩, -⟩)
      simpa [damaged] using h.1 s member
  | ok named =>
      obtain ⟨readable, listed, names⟩ :=
        listed_of_allFrom_eq_ok (a := e.architecture) found
      rw [show Listing.named e.listing.sections = _ from listed.symm,
        ← mapM_toSection_eq_ok_iff names]
      constructor
      · exact fun h => ⟨named, rfl, h.2⟩
      · rintro ⟨_, ⟨⟩, done⟩
        exact ⟨readable, done⟩

/-- What is searched and reckoned is what is read from the listing. -/
theorem exists_executable (found : NamedSection.all e.file = .ok named)
    (done : named.mapM (NamedSection.toSection e.file.bytes) = .ok read) :
    ∃ exe, e.executable = .ok exe
      ∧ e.listing.executable e.architecture e.file.entry = .ok exe := by
  obtain ⟨readable, listed, -⟩ :=
    listed_of_allFrom_eq_ok (a := e.architecture) found
  obtain ⟨indices, entered, index⟩ :=
    Listing.exists_sectionIndices e.isDistinct_listing readable
  obtain ⟨numbers, counted, symbolIndex⟩ := Listing.exists_symbolTable entered
  have numbered : (Listing.named e.listing.sections).map (·.number)
      = named.map (·.number) := by
    rw [show Listing.named e.listing.sections = _ from listed.symm, List.map_map]
    rfl
  have nodup := Listing.nodup_named e.isDistinct_listing
  have sections := readSections_listing_eq_ok_iff.mpr ⟨named, found, done⟩
  have whole := Listing.executable_eq_ok sections entered counted e.architecture
    e.file.entry
  rw [Listing.flatMap_relocationsIn e.isDistinct_listing index,
    show Listing.named e.listing.sections = _ from listed.symm] at whole
  rw [numbered] at index nodup
  refine ⟨_, ?_, whole⟩
  rw [executable, found, ← relocations_eq nodup index symbolIndex]
  have symbols : symbols named e.file.symbols
      = e.listing.symbols.map (ListedSymbol.symbol indices) :=
    symbolsFrom_eq (positionOf?_eq nodup index) _ _ _
  rw [← symbols]
  simp only [Except.mapError, bind, Except.bind, done]
  rfl

/-- The sections of an executable are found and read. -/
theorem exists_named_of_executable_eq_ok {exe : Executable}
    (h : e.executable = .ok exe) :
    ∃ named read, NamedSection.all e.file = .ok named
      ∧ named.mapM (NamedSection.toSection e.file.bytes) = .ok read := by
  rw [executable] at h
  cases found : NamedSection.all e.file with
  | error fault =>
      rw [found] at h
      cases h
  | ok named =>
      cases done : named.mapM (NamedSection.toSection e.file.bytes) with
      | error fault =>
          simp only [found, done, Except.mapError, bind, Except.bind] at h
          cases h
      | ok read => exact ⟨named, read, rfl, done⟩

/-- **The executable in a file is the one that is read from its listing**, and
    there is one just if its listing can be read. -/
theorem executable_eq_ok_iff {exe : Executable} :
    e.executable = .ok exe
      ↔ e.listing.executable e.architecture e.file.entry = .ok exe := by
  -- either way of reading tells that the sections can be read
  have both {named : List NamedSection} {read : List Section}
      (found : NamedSection.all e.file = .ok named)
      (done : named.mapM (NamedSection.toSection e.file.bytes) = .ok read) :
      e.executable = .ok exe
        ↔ e.listing.executable e.architecture e.file.entry = .ok exe := by
    obtain ⟨other, made, listed⟩ := exists_executable found done
    rw [made, listed, Except.ok.injEq, Except.ok.injEq]
  constructor
  · intro h
    obtain ⟨named, read, found, done⟩ := exists_named_of_executable_eq_ok h
    exact (both found done).mp h
  · intro h
    obtain ⟨read, sections⟩ := Listing.readSections_of_executable_eq_ok h
    obtain ⟨named, found, done⟩ := readSections_listing_eq_ok_iff.mp sections
    exact (both found done).mpr h

/-- In the executable of a file, positions stand for what its tables list. -/
theorem isNumbered_of_executable_eq_ok {exe : Executable}
    (h : e.executable = .ok exe) : e.listing.IsNumbered exe := by
  have listed := executable_eq_ok_iff.mp h
  obtain ⟨read, sections⟩ := Listing.readSections_of_executable_eq_ok listed
  obtain ⟨other, made, -, numbered⟩ := Listing.exists_isNumbered
    e.isDistinct_listing sections e.architecture e.file.entry
  cases listed.symm.trans made
  exact numbered

end Whole

end Handheld.Elf

namespace Handheld

/-! ## Threading what was read -/

/-- **Reading a listing numbers its sections and symbols alike everywhere.**
    If the sections can be read, there is an executable, where positions stand
    for what they stand for in the listing; the guarded threading of it is never
    stopped, unless there are more chains than can be counted.  What an ELF file
    holds is what is read from its listing. -/
theorem Listing.executable_numbered {l : Listing} (distinct : l.IsDistinct)
    {read : List Section} (done : l.readSections = .ok read) (a : Architecture)
    (entry : Nat) :
    ∃ exe, l.executable a entry = .ok exe
      ∧ exe.sections = read
      ∧ l.IsNumbered exe
      ∧ (∀ names code origin, HasMainCode exe code →
        Threads.Guarded.run (layoutOf exe code (extraSections exe names))
            exe.dataImage (extraSections exe names) origin
          = if (extraSections exe names).length ≤ maxExtra
            then .ok (Threads.Guarded.stateOf
              (layoutOf exe code (extraSections exe names)) origin
              (threadAll (layoutOf exe code (extraSections exe names))
                exe.dataImage (chainCount (extraSections exe names))))
            else .error .noChain)
      ∧ ∀ e : Elf, e.listing = l → e.architecture = a → e.file.entry = entry →
        e.executable = .ok exe := by
  obtain ⟨exe, made, sections, numbered⟩ :=
    exists_isNumbered distinct done a entry
  refine ⟨exe, made, sections, numbered, ?_, ?_⟩
  · intro names code origin main
    exact Threads.Guarded.run_eq (inSections_layoutOf main names)
      (inChains_layoutOf exe code _) numbered.container_lt exe.dataImage origin
  · rintro e rfl rfl rfl
    exact Elf.executable_eq_ok_iff.mpr made

/-- A file with sections without names before, between and after `.text` and
    `.data`, which are sections 1 and 3.  The first relocation in `.data` is for
    a symbol in `.text`, the second for one in section 2. -/
def gappedFile : Elf where
  architecture := .m68k
  file := {
    bytes := [
      0, 0, 0x80, 0, 0, 0, 1, 1, 0, 0, 0, 0,
      0, 0, 0x80, 4, 0, 0, 2, 1, 0, 0, 0, 0,
      0x4E, 0x75,
      0, 0, 0x10, 0, 0, 0, 0, 0]
    form := ⟨false, false⟩
    type := Elf.executableType
    machine := 4
    entry := 0x1000
    sections := [
      ⟨0, .other, 0, 0, 0, 0, 0, 0⟩,
      ⟨1, .other, 6, 0x1000, 24, 2, 0, 0⟩,
      ⟨0, .other, 0, 0, 24, 2, 0, 0⟩,
      ⟨7, .other, 3, 0x8000, 26, 8, 0, 0⟩,
      ⟨0, .relocations true, 0, 0, 0, 24, 5, 3⟩]
    sectionNames := ⟨some ([0] ++ Bytes.ofText ".text" ++ [0]
      ++ Bytes.ofText ".data" ++ [0])⟩
    symbols := ⟨5, [⟨0, 0, 0⟩, ⟨0, 0x1000, 1⟩, ⟨0, 0, 2⟩], .empty, []⟩ }

/-- What it holds. -/
def gappedExecutable : Executable where
  architecture := .m68k
  entry := 0x1000
  sections := [
    ⟨".text", 0x1000, 2, [0x4E, 0x75], true⟩,
    ⟨".data", 0x8000, 8, [0, 0, 0x10, 0, 0, 0, 0, 0], false⟩]
  symbols := [⟨"", 0x1000, some 0⟩, ⟨"", 0, none⟩]
  relocations := [
    ⟨.absolute32, 1, 0, .symbol 0⟩,
    ⟨.absolute32, 1, 4, .symbol 1⟩]

theorem Listing.executable_numbered_gappedFile :
    gappedFile.executable = .ok gappedExecutable
      ∧ gappedFile.listing.IsNumbered gappedExecutable
      ∧ ∃ code state, HasMainCode gappedExecutable code
        ∧ Threads.Guarded.run (layoutOf gappedExecutable code [])
          gappedExecutable.dataImage [] "sample" = .ok state
        ∧ state.threaded = 1 := by
  have distinct := gappedFile.isDistinct_listing
  have sections :
      gappedFile.listing.readSections = .ok gappedExecutable.sections := by
    decide +kernel
  have whole : gappedFile.executable = .ok gappedExecutable := by cbv
  obtain ⟨exe, -, -, numbered, threads, same⟩ :=
    executable_numbered distinct sections .m68k 0x1000
  cases whole.symm.trans (same gappedFile rfl rfl rfl)
  have main : HasMainCode gappedExecutable
      ⟨⟨".text", 0x1000, 2, [0x4E, 0x75], true⟩, 0, 0, []⟩ :=
    ⟨rfl, by cbv⟩
  exact ⟨whole, numbered, _, _, main, threads [] _ "sample" main, by decide⟩

end Handheld
