import Mathlib
import Handheld.Executable.Listing

/-! # Positions — what the numbers of a listing become

    The walks over a listing count positions, each by itself, and a relocation
    is only read rightly if they agree:

    • `IsIndex` relates a table to the list of numbers that were entered;
    • `foldlM_enter` and `foldlM_append_eq_ok_iff`: what the walks make;
    • `IsNumbered`: every position stands for what it stands for in the
      listing (`exists_isNumbered`). -/

namespace Handheld

/-! ## What positions stand for -/

/-- The section is read as another one. -/
inductive ListedSection.IsRead (s : ListedSection) : Section → Prop where
  | read {name : String} {data : Bytes} (name_eq : s.name? = some name)
      (data_eq : s.data? = some data) :
      IsRead s ⟨name, s.address, s.size, data, s.isExecutable⟩

namespace Listing

/-- The sections that have a name. -/
def named (sections : List ListedSection) : List ListedSection :=
  sections.filter (·.name? ≠ some "")

/-- No two sections have one number. -/
def IsDistinct (l : Listing) : Prop :=
  (l.sections.map (·.number)).Nodup

/-- A position in the list of sections stands for the section with a number:
    that is the section with a name at this position of the listing, and it is
    the one that was read there. -/
def IsSectionAt (l : Listing) (sections : List Section) (position number : Nat) :
    Prop :=
  ∃ s out, (named l.sections)[position]? = some s ∧ s.number = number
    ∧ sections[position]? = some out ∧ s.IsRead out

/-- A symbol is read as another one, in the section at a position just if that
    stands for the section that it is listed in. -/
structure IsSymbol (l : Listing) (sections : List Section) (s : ListedSymbol)
    (out : Symbol) : Prop where
  name_eq : out.name = s.name?.getD ""
  value_eq : out.value = s.address
  container_iff : ∀ position, out.container = some position
    ↔ ∃ number, s.container? = some number
      ∧ l.IsSectionAt sections position number

/-- A position in the list of symbols stands for a symbol with a number. -/
def IsSymbolAt (l : Listing) (sections : List Section) (symbols : List Symbol)
    (position number : Nat) : Prop :=
  ∃ s out, l.symbols[position]? = some s ∧ s.number = number
    ∧ symbols[position]? = some out ∧ l.IsSymbol sections s out

/-- What an address belongs to by its number, and by its position. -/
inductive IsTarget (l : Listing) (sections : List Section)
    (symbols : List Symbol) : ListedTarget → RelocationTarget → Prop where
  | container {position number : Nat}
      (same : l.IsSectionAt sections position number) :
      IsTarget l sections symbols (.container number) (.container position)
  | noContainer {number : Nat}
      (unnamed : ∀ position, ¬ l.IsSectionAt sections position number) :
      IsTarget l sections symbols (.container number) .absolute
  | symbol {position number : Nat}
      (same : l.IsSymbolAt sections symbols position number) :
      IsTarget l sections symbols (.symbol number) (.symbol position)
  | noSymbol {number : Nat}
      (unlisted : ∀ s ∈ l.symbols, s.number ≠ number) :
      IsTarget l sections symbols (.symbol number) .absolute
  | other : IsTarget l sections symbols .other .absolute

/-- A relocation of a section is read as another one. -/
structure IsRelocation (l : Listing) (sections : List Section)
    (symbols : List Symbol) (listed : ListedSection × ListedRelocation)
    (out : Relocation) : Prop where
  type_eq : out.type = listed.2.type
  container : l.IsSectionAt sections out.container listed.1.number
  offset_eq : out.offset = listed.2.offsetIn listed.1
  target : l.IsTarget sections symbols listed.2.target out.target

/-- The relocations in the sections that have a name, with their sections. -/
def relocated (l : Listing) : List (ListedSection × ListedRelocation) :=
  (named l.sections).flatMap fun s => s.relocations.map (s, ·)

/-- The lists of an executable are those of a listing, where positions stand
    for what is listed. -/
structure IsNumbered (l : Listing) (exe : Executable) : Prop where
  sections : List.Forall₂ ListedSection.IsRead (named l.sections) exe.sections
  symbols : List.Forall₂ (l.IsSymbol exe.sections) l.symbols exe.symbols
  relocations : List.Forall₂ (l.IsRelocation exe.sections exe.symbols)
    l.relocated exe.relocations

end Listing

/-! ## Tables of positions -/

/-- A table tells a position of each number in a list. -/
structure IsIndex (numbers : List Nat) (table : Positions) : Prop where
  found : ∀ {number position : Nat}, table[number]? = some position →
    numbers[position]? = some number
  complete : ∀ {number : Nat}, number ∈ numbers → number ∈ table

namespace IsIndex

variable {numbers : List Nat} {table : Positions} {number position : Nat}

theorem empty : IsIndex [] ∅ where
  found h := by simp at h
  complete := nofun

/-- A number is entered at the position after the others. -/
theorem concat (h : IsIndex numbers table) (number : Nat) :
    IsIndex (numbers ++ [number]) (table.insert number numbers.length) where
  found := by
    intro other position found
    rw [Std.HashMap.getElem?_insert] at found
    split at found
    · next same =>
        cases found
        rw [List.getElem?_concat_length, eq_of_beq same]
    · have known := h.found found
      have inside := (List.getElem?_eq_some_iff.mp known).1
      rwa [List.getElem?_append_left inside]
  complete := by
    intro other member
    rw [Std.HashMap.mem_insert]
    rcases List.mem_append.mp member with old | new
    · exact Or.inr (h.complete old)
    · exact Or.inl (beq_iff_eq.mpr (List.mem_singleton.mp new).symm)

/-- Only the numbers in the list are in the table. -/
theorem mem_iff (h : IsIndex numbers table) : number ∈ table ↔ number ∈ numbers := by
  refine ⟨fun member => ?_, h.complete⟩
  have found := h.found (Std.HashMap.getElem?_eq_some_getElem member)
  exact List.mem_of_getElem? found

/-- If no number is listed twice, the table tells just the positions. -/
theorem getElem?_eq_some_iff (h : IsIndex numbers table)
    (nodup : numbers.Nodup) :
    table[number]? = some position ↔ numbers[position]? = some number := by
  refine ⟨h.found, fun listed => ?_⟩
  have member := h.complete (List.mem_of_getElem? listed)
  have told := Std.HashMap.getElem?_eq_some_getElem member
  have inside := (List.getElem?_eq_some_iff.mp listed).1
  have same := (List.getElem?_inj inside nodup).mp
    (listed.trans (h.found told).symm)
  exact told.trans (congrArg some same.symm)

end IsIndex

/-! ## What the walks make -/

namespace Listing

variable {sections : List ListedSection}

theorem named_cons_of_eq {s : ListedSection} (unnamed : s.name? = some "") :
    named (s :: sections) = named sections :=
  List.filter_cons_of_neg (by simpa using unnamed)

theorem named_cons_of_ne {s : ListedSection} (hasName : s.name? ≠ some "") :
    named (s :: sections) = s :: named sections :=
  List.filter_cons_of_pos (by simpa using hasName)

/-- Sections with names that are not damaged are entered in their order. -/
theorem foldlM_enter (readable : ∀ s ∈ sections, s.name?.isSome)
    {numbers : List Nat} {table : Positions} (index : IsIndex numbers table)
    (size : table.size = numbers.length)
    (nodup : (numbers ++ (named sections).map (·.number)).Nodup) :
    ∃ after, sections.foldlM ListedSection.enter table = .ok after
      ∧ IsIndex (numbers ++ (named sections).map (·.number)) after := by
  induction sections generalizing numbers table with
  | nil =>
      refine ⟨table, rfl, ?_⟩
      rwa [named, List.filter_nil, List.map_nil, List.append_nil]
  | cons s sections ih =>
      obtain ⟨here, readable⟩ := List.forall_mem_cons.mp readable
      obtain ⟨name, name_eq⟩ := Option.isSome_iff_exists.mp here
      rw [List.foldlM_cons, ListedSection.enter, name_eq]
      dsimp only
      by_cases unnamed : name = ""
      · have skipped : named (s :: sections) = named sections :=
          named_cons_of_eq (unnamed ▸ name_eq)
        rw [if_pos unnamed]
        rw [skipped] at nodup ⊢
        exact ih readable index size nodup
      · have kept : named (s :: sections) = s :: named sections :=
          named_cons_of_ne fun same =>
            unnamed (Option.some.inj (name_eq.symm.trans same))
        rw [if_neg unnamed, size]
        rw [kept, List.map_cons, List.append_cons] at nodup ⊢
        refine ih readable (index.concat s.number) ?_ nodup
        -- a number that is new makes the table larger
        have new : s.number ∉ numbers := by
          have front := (List.nodup_append.mp nodup).1
          exact fun old => (List.nodup_append.mp front).2.2 _ old _ (by simp) rfl
        rw [Std.HashMap.size_insert, if_neg (mt index.mem_iff.mp new), size,
          List.length_append]
        rfl

/-- Sections are read just if their names and contents are not damaged. -/
theorem foldlM_append_eq_ok_iff {before after : List Section} :
    sections.foldlM ListedSection.append before = .ok after
      ↔ (∀ s ∈ sections, s.name?.isSome)
        ∧ ∃ made, after = before ++ made
          ∧ List.Forall₂ ListedSection.IsRead (named sections) made := by
  induction sections generalizing before with
  | nil =>
      constructor
      · intro done
        cases done
        exact ⟨nofun, [], (List.append_nil _).symm, .nil⟩
      · rintro ⟨-, made, rfl, ⟨⟩⟩
        rw [List.append_nil]
        rfl
  | cons s sections ih =>
      rw [List.foldlM_cons, ListedSection.append, List.forall_mem_cons]
      cases name_eq : s.name? with
      | none => exact ⟨nofun, fun h => absurd h.1.1 (by simp)⟩
      | some name =>
      dsimp only
      by_cases unnamed : name = ""
      · have skipped : named (s :: sections) = named sections :=
          named_cons_of_eq (unnamed ▸ name_eq)
        rw [if_pos unnamed, skipped]
        refine Iff.trans ih ?_
        simp
      · have kept : named (s :: sections) = s :: named sections :=
          named_cons_of_ne fun same =>
            unnamed (Option.some.inj (name_eq.symm.trans same))
        rw [if_neg unnamed, kept]
        cases data_eq : s.data? with
        | none =>
            refine ⟨nofun, ?_⟩
            rintro ⟨-, made, -, read⟩
            cases read with
            | cons first _ =>
                cases first with
                | read _ data => cases data_eq.symm.trans data
        | some data =>
            refine Iff.trans ih ?_
            constructor
            · rintro ⟨readable, made, rfl, read⟩
              exact ⟨⟨rfl, readable⟩, _ :: made, List.append_assoc _ _ _,
                .cons (.read name_eq data_eq) read⟩
            · rintro ⟨⟨-, readable⟩, made, rfl, read⟩
              cases read with
              | cons first read =>
                  cases first with
                  | read name_eq' data_eq' =>
                      cases name_eq.symm.trans name_eq'
                      cases data_eq.symm.trans data_eq'
                      exact ⟨readable, _, List.append_cons _ _ _, read⟩

/-- Symbols are read and entered in their order. -/
theorem foldl_append (indices : Positions) (symbols before : List ListedSymbol)
    {table : Positions} (index : IsIndex (before.map (·.number)) table) :
    ∃ after, symbols.foldl (ListedSymbol.append indices)
        (before.map (ListedSymbol.symbol indices), table)
          = ((before ++ symbols).map (ListedSymbol.symbol indices), after)
      ∧ IsIndex ((before ++ symbols).map (·.number)) after := by
  induction symbols generalizing before table with
  | nil => exact ⟨table, by simp, by simpa using index⟩
  | cons s symbols ih =>
      have next : IsIndex ((before ++ [s]).map (·.number))
          (table.insert s.number before.length) := by
        simpa using index.concat s.number
      obtain ⟨after, made, entered⟩ := ih (before ++ [s]) next
      refine ⟨after, ?_, by simpa using entered⟩
      rw [List.foldl_cons, ListedSymbol.append, List.length_map]
      simpa using made

variable {l : Listing} {read : List Section} {indices numbers : Positions}

theorem readSections_eq_ok_iff :
    l.readSections = .ok read
      ↔ (∀ s ∈ l.sections, s.name?.isSome)
        ∧ List.Forall₂ ListedSection.IsRead (named l.sections) read := by
  refine foldlM_append_eq_ok_iff.trans ?_
  simp

theorem nodup_named (distinct : l.IsDistinct) :
    ((named l.sections).map (·.number)).Nodup :=
  distinct.sublist (List.filter_sublist.map _)

theorem exists_sectionIndices (distinct : l.IsDistinct)
    (readable : ∀ s ∈ l.sections, s.name?.isSome) :
    ∃ indices, l.sectionIndices = .ok indices
      ∧ IsIndex ((named l.sections).map (·.number)) indices :=
  foldlM_enter readable .empty Std.HashMap.size_empty (nodup_named distinct)

theorem exists_symbolTable (entered : l.sectionIndices = .ok indices) :
    ∃ numbers, l.symbolTable
        = .ok (l.symbols.map (ListedSymbol.symbol indices), numbers)
      ∧ IsIndex (l.symbols.map (·.number)) numbers := by
  obtain ⟨numbers, made, index⟩ :=
    foldl_append indices l.symbols [] .empty
  refine ⟨numbers, ?_, index⟩
  rw [symbolTable, entered]
  exact congrArg Except.ok made

/-! ## What the positions in the tables stand for -/

/-- Where one list stands for another, it does so at each position. -/
theorem exists_getElem?_of_forall₂ {α β : Type} {R : α → β → Prop} {as : List α}
    {bs : List β} (h : List.Forall₂ R as bs) {position : Nat} {a : α}
    (listed : as[position]? = some a) :
    ∃ b, bs[position]? = some b ∧ R a b := by
  obtain ⟨inside, rfl⟩ := List.getElem?_eq_some_iff.mp listed
  have inside' : position < bs.length := h.length_eq ▸ inside
  exact ⟨_, List.getElem?_eq_getElem inside', h.get inside inside'⟩

/-- The table of sections tells the positions in the list that was read. -/
theorem getElem?_eq_some_iff_isSectionAt (distinct : l.IsDistinct)
    (same : List.Forall₂ ListedSection.IsRead (named l.sections) read)
    (index : IsIndex ((named l.sections).map (·.number)) indices)
    {position number : Nat} :
    indices[number]? = some position
      ↔ l.IsSectionAt read position number := by
  rw [index.getElem?_eq_some_iff (nodup_named distinct), List.getElem?_map,
    Option.map_eq_some_iff]
  constructor
  · rintro ⟨s, listed, number_eq⟩
    obtain ⟨out, found, isRead⟩ := exists_getElem?_of_forall₂ same listed
    exact ⟨s, out, listed, number_eq, found, isRead⟩
  · rintro ⟨s, -, listed, number_eq, -⟩
    exact ⟨s, listed, number_eq⟩

/-- A section without a name has no position. -/
theorem getElem?_eq_none_of_unnamed (distinct : l.IsDistinct)
    (index : IsIndex ((named l.sections).map (·.number)) indices)
    {s : ListedSection} (member : s ∈ l.sections)
    (unnamed : s.name? = some "") : indices[s.number]? = none := by
  rw [getElem?_eq_none_iff, index.mem_iff]
  intro entered
  obtain ⟨other, member', same⟩ := List.mem_map.mp entered
  obtain ⟨listed, hasName⟩ := List.mem_filter.mp member'
  -- no other section has its number, so that it was entered itself
  rw [List.inj_on_of_nodup_map distinct listed member same] at hasName
  exact of_decide_eq_true hasName unnamed

section Positions

variable (places : ∀ {position number : Nat}, indices[number]? = some position
  ↔ l.IsSectionAt read position number)
include places

/-- A symbol is read with the section that it is listed in. -/
theorem isSymbol_symbol (s : ListedSymbol) :
    l.IsSymbol read s (s.symbol indices) where
  name_eq := rfl
  value_eq := rfl
  container_iff position := by
    rw [ListedSymbol.symbol, Option.bind_eq_some_iff]
    simp only [places]

/-- The table of symbols tells positions in the list that was read. -/
theorem isSymbolAt_of_getElem? {position number : Nat}
    (listed : (l.symbols.map (·.number))[position]? = some number) :
    l.IsSymbolAt read (l.symbols.map (ListedSymbol.symbol indices)) position
      number := by
  rw [List.getElem?_map, Option.map_eq_some_iff] at listed
  obtain ⟨s, found, number_eq⟩ := listed
  exact ⟨s, s.symbol indices, found, number_eq, by rw [List.getElem?_map, found]; rfl,
    isSymbol_symbol places s⟩

/-- The tables tell what the address in a relocation belongs to. -/
theorem isTarget_target (index : IsIndex (l.symbols.map (·.number)) numbers)
    (target : ListedTarget) :
    l.IsTarget read (l.symbols.map (ListedSymbol.symbol indices)) target
      (target.target indices numbers) := by
  cases target with
  | container number =>
      rw [ListedTarget.target]
      split
      · next found => exact .container (places.mp found)
      · next missing =>
          refine .noContainer fun position found => ?_
          cases missing.symm.trans (places.mpr found)
  | symbol number =>
      rw [ListedTarget.target]
      split
      · next found => exact .symbol (isSymbolAt_of_getElem? places (index.found found))
      · next missing =>
          refine .noSymbol fun s member same => ?_
          rw [getElem?_eq_none_iff] at missing
          exact missing (index.complete (List.mem_map.mpr ⟨s, member, same⟩))
  | other => exact .other

/-- The relocations in a section are read with its position. -/
theorem isRelocation_relocationsIn
    (index : IsIndex (l.symbols.map (·.number)) numbers) {s : ListedSection}
    {position : Nat} (found : indices[s.number]? = some position) :
    List.Forall₂
      (l.IsRelocation read (l.symbols.map (ListedSymbol.symbol indices)))
      (s.relocations.map (s, ·)) (relocationsIn indices numbers s) := by
  rw [relocationsIn, found, List.forall₂_map_left_iff, List.forall₂_map_right_iff,
    List.forall₂_same]
  intro r _
  exact ⟨rfl, places.mp found, rfl, isTarget_target places index r.target⟩

end Positions

/-- Sections without a name that add nothing can be left out. -/
theorem flatMap_named {α : Type} {f : ListedSection → List α}
    (empty : ∀ s ∈ sections, s.name? = some "" → f s = []) :
    sections.flatMap f = (named sections).flatMap f := by
  induction sections with
  | nil => rfl
  | cons s sections ih =>
      obtain ⟨here, rest⟩ := List.forall_mem_cons.mp empty
      rw [List.flatMap_cons, ih rest]
      by_cases unnamed : s.name? = some ""
      · rw [here unnamed, List.nil_append, named_cons_of_eq unnamed]
      · rw [named_cons_of_ne unnamed, List.flatMap_cons]

/-- Relocations in sections without a name are left out. -/
theorem flatMap_relocationsIn (distinct : l.IsDistinct)
    (index : IsIndex ((named l.sections).map (·.number)) indices) :
    l.sections.flatMap (relocationsIn indices numbers)
      = (named l.sections).flatMap (relocationsIn indices numbers) := by
  refine flatMap_named fun s member unnamed => ?_
  have missing := getElem?_eq_none_of_unnamed distinct index member unnamed
  rw [relocationsIn, missing]

/-! ## The whole executable -/

/-- The walks one by one make the executable. -/
theorem executable_eq_ok (done : l.readSections = .ok read)
    (entered : l.sectionIndices = .ok indices)
    (counted : l.symbolTable
      = .ok (l.symbols.map (ListedSymbol.symbol indices), numbers))
    (a : Architecture) (entry : Nat) :
    l.executable a entry
      = .ok ⟨a, entry, read, l.symbols.map (ListedSymbol.symbol indices),
        l.sections.flatMap (relocationsIn indices numbers)⟩ := by
  rw [executable, readSymbols, readRelocations, done, counted, entered]
  rfl

/-- An executable has the sections that were read. -/
theorem readSections_of_executable_eq_ok {a : Architecture} {entry : Nat}
    {exe : Executable} (h : l.executable a entry = .ok exe) :
    ∃ read, l.readSections = .ok read := by
  cases done : l.readSections with
  | ok read => exact ⟨read, rfl⟩
  | error fault =>
      rw [executable, done] at h
      cases h

/-- **Every position stands for what it stands for in the listing.**  An
    executable can be read if its sections can. -/
theorem exists_isNumbered (distinct : l.IsDistinct)
    (done : l.readSections = .ok read) (a : Architecture) (entry : Nat) :
    ∃ exe, l.executable a entry = .ok exe ∧ exe.sections = read
      ∧ l.IsNumbered exe := by
  obtain ⟨readable, same⟩ := readSections_eq_ok_iff.mp done
  obtain ⟨indices, entered, index⟩ := exists_sectionIndices distinct readable
  obtain ⟨numbers, counted, symbolIndex⟩ := exists_symbolTable entered
  have places {position number : Nat} : indices[number]? = some position
      ↔ l.IsSectionAt read position number :=
    getElem?_eq_some_iff_isSectionAt distinct same index
  refine ⟨_, executable_eq_ok done entered counted a entry, rfl, same, ?_, ?_⟩
  · rw [List.forall₂_map_right_iff, List.forall₂_same]
    exact fun s _ => isSymbol_symbol places s
  · rw [flatMap_relocationsIn distinct index, relocated]
    refine List.rel_flatMap (R := fun s t => s = t ∧ s ∈ named l.sections)
      (List.forall₂_same.mpr fun s member => ⟨rfl, member⟩) ?_
    rintro s _ ⟨rfl, member⟩
    have known : s.number ∈ indices :=
      index.complete (List.mem_map.mpr ⟨s, member, rfl⟩)
    exact isRelocation_relocationsIn places symbolIndex
      (Std.HashMap.getElem?_eq_some_getElem known)

/-- Relocations are in sections that exist. -/
theorem IsNumbered.container_lt {exe : Executable} (h : l.IsNumbered exe) :
    ∀ r ∈ exe.relocations, r.container < exe.sections.length := by
  intro r member
  obtain ⟨position, listed⟩ := List.mem_iff_getElem?.mp member
  obtain ⟨_, -, same⟩ := exists_getElem?_of_forall₂ h.relocations.flip listed
  obtain ⟨_, _, -, -, found, -⟩ := same.container
  exact (List.getElem?_eq_some_iff.mp found).1

end Listing

end Handheld
