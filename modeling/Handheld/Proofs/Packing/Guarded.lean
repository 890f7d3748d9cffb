import Handheld.Proofs.Packing.Reports
import Handheld.Proofs.Packing.Trail

/-! # The guarded threading — no access outside of image and tables

    Threading looks sections up in a table that is never too short and adds
    offsets that are never too large.  The guarded threading does neither: it
    keeps a table with one entry for each section, computes with positions of
    64 bits, stores links of 16 bits and counts chains in as many.  It stops
    where there is no number for a chain, and where it accesses a section, an
    entry, a byte or a head that does not exist:

    • `entry`, `put`, `window`, `store`: the accesses that can stop it;
    • `table`, `site`, `thread`, `step`: its parts, each with a lemma that it
      does what the part of the threading does;
    • `relocate_eq`: with a head for each chain it is never stopped, if all
      relocations are in sections, and what it leaves and reports is what
      threading leaves and reports;
    • `run_eq`: it has a head for each chain, unless there are more chains than
      can be counted. -/

namespace Handheld

/-- What stops the guarded threading. -/
inductive Threads.Stop where
  /-- There is no section of this number. -/
  | noSection
  /-- There is no entry of this number in the table. -/
  | noEntry
  /-- A window leaves the image. -/
  | outside
  /-- There is no head of this number. -/
  | noHead
  /-- There is no number for another chain. -/
  | noChain

/-- The sections that a table is about exist. -/
def Layout.InSections (l : Layout) : Prop :=
  ∀ p ∈ l.placements, p.1 < l.executable.sections.length

namespace Threads.Guarded

/-! ## Accesses -/

section Accesses

variable {α : Type}

/-- The entry of a number, which has to exist. -/
def entry (stop : Stop) (entries : List α) (number : Nat) : Except Stop α :=
  match entries[number]? with
  | some a => .ok a
  | none => .error stop

/-- Entries with another one in the place of one that has to exist. -/
def put (stop : Stop) (entries : List α) (number : Nat) (a : α) :
    Except Stop (List α) :=
  if number < entries.length then .ok (entries.set number a) else .error stop

/-- The bytes of a place, all of which have to exist. -/
def window (image : Bytes) (position : Nat) : Except Stop Bytes :=
  if position + siteSize ≤ image.length then .ok (placeAt image position)
  else .error .outside

/-- The image with bytes over some that have to exist. -/
def store (image : Bytes) (position : Nat) (new : Bytes) : Except Stop Bytes :=
  if position + new.length ≤ image.length then
    .ok (Bytes.overwrite image position new)
  else .error .outside

theorem entry_eq {entries : List α} {number : Nat} {a : α}
    (h : entries[number]? = some a) (stop : Stop) :
    entry stop entries number = .ok a := by
  simp only [entry, h]

theorem put_eq {entries : List α} {number : Nat} (h : number < entries.length)
    (stop : Stop) (a : α) :
    put stop entries number a = .ok (entries.set number a) :=
  if_pos h

theorem window_eq {image : Bytes} {position : Nat}
    (h : position + siteSize ≤ image.length) :
    window image position = .ok (placeAt image position) :=
  if_pos h

theorem store_eq {image new : Bytes} {position : Nat}
    (h : position + new.length ≤ image.length) :
    store image position new = .ok (Bytes.overwrite image position new) :=
  if_pos h

end Accesses

/-! ## Positions of 64 bits -/

/-- The largest number of 64 bits. -/
def maxPosition : Nat := 0xFFFF_FFFF_FFFF_FFFF

/-- A sum, or the largest number if that is smaller. -/
def saturatingAdd (a b : Nat) : Nat :=
  min (a + b) maxPosition

/-- A sum that is cut is out of range, and so is the sum. -/
theorem outOfRange_saturatingAdd (base offset length : Nat) :
    (length < saturatingAdd (saturatingAdd base offset) siteSize
        ∨ endOfChain ≤ saturatingAdd base offset)
      ↔ length < base + offset + siteSize ∨ endOfChain ≤ base + offset := by
  have size : siteSize = 4 := rfl
  have last : endOfChain = 65535 := rfl
  have most : maxPosition = 18446744073709551615 := rfl
  rw [saturatingAdd, saturatingAdd]
  omega

/-- A sum that is in range is not cut. -/
theorem saturatingAdd_eq {base offset : Nat}
    (h : base + offset < endOfChain) :
    saturatingAdd base offset = base + offset := by
  refine Nat.min_eq_left (Nat.le_of_lt (Nat.lt_trans h ?_))
  decide

/-! ## The table -/

/-- The table of the sections: what is listed first is entered last. -/
def table (l : Layout) : Except Stop (List (Option Placement)) :=
  l.placements.reverse.foldlM
    (fun entries p => put .noEntry entries p.1 (some p.2))
    (List.replicate l.executable.sections.length none)

/-- One entry for each section, which says where the section goes. -/
structure IsTable (l : Layout) (entries : List (Option Placement)) : Prop where
  length : entries.length = l.executable.sections.length
  entry : ∀ index, entries[index]?.join = l.placement? index

/-- Placements of existing sections can be entered. -/
private theorem exists_entries {count : Nat}
    (placements : List (Nat × Placement)) (known : ∀ p ∈ placements, p.1 < count) :
    ∃ entries, placements.foldrM
        (fun p entries => put .noEntry entries p.1 (some p.2))
        (List.replicate count none) = .ok entries
      ∧ entries.length = count
      ∧ ∀ index, entries[index]?.join = placements.lookup index := by
  induction placements with
  | nil =>
      refine ⟨_, rfl, List.length_replicate, ?_⟩
      intro index
      rw [List.getElem?_replicate]
      split <;> rfl
  | cons p placements ih =>
      obtain ⟨here, rest⟩ := List.forall_mem_cons.mp known
      obtain ⟨entries, entered, length, found⟩ := ih rest
      have inside : p.1 < entries.length := length ▸ here
      refine ⟨entries.set p.1 (some p.2), ?_, ?_, ?_⟩
      · rw [List.foldrM_cons, entered]
        exact put_eq inside _ _
      · rw [List.length_set, length]
      · intro index
        rw [List.lookup_cons, List.getElem?_set]
        by_cases same : p.1 = index
        · subst same
          simp [inside]
        · have differ : (index == p.1) = false := by simpa using Ne.symm same
          rw [if_neg same, differ, found]

theorem exists_table {l : Layout} (sections : l.InSections) :
    ∃ entries, table l = .ok entries ∧ IsTable l entries := by
  obtain ⟨entries, entered, length, found⟩ :=
    exists_entries l.placements sections
  refine ⟨entries, ?_, length, found⟩
  rw [table, List.foldlM_reverse]
  exact entered

namespace IsTable

variable {l : Layout} {entries : List (Option Placement)}

/-- Each section has an entry. -/
theorem getElem?_eq (h : IsTable l entries) {index : Nat}
    (known : index < l.executable.sections.length) :
    entries[index]? = some (l.placement? index) := by
  rw [← h.entry, List.getElem?_eq_getElem (h.length ▸ known)]
  rfl

/-- Only sections have one. -/
theorem lt (h : IsTable l entries) {index : Nat} {p : Placement}
    (placed : l.placement? index = some p) :
    index < l.executable.sections.length := by
  rw [← h.entry] at placed
  by_contra past
  rw [List.getElem?_eq_none (h.length ▸ Nat.le_of_not_lt past)] at placed
  cases placed

end IsTable

/-! ## Places -/

/-- The section that the address in a relocation points into, and where the
    table says that it goes. -/
def target? (l : Layout) (entries : List (Option Placement)) (r : Relocation) :
    Option (Nat × Placement) :=
  (r.targetSection? l.executable.symbols).bind fun index =>
    entries[index]?.join.map (index, ·)

/-- Where the word at a position is threaded if it points into a section,
    or that it does not fit. -/
def fit (l : Layout) (image : Bytes) (position index : Nat)
    (target : Placement) : Except Stop (Except Skip Site) := do
  let word ← window image position
  let s ← entry .noSection l.executable.sections index
  let value := l.executable.architecture.value word
  let offset : Int := value - s.address + target.base
  if 0 ≤ offset ∧ offset < 2 ^ 16 then
    .ok (.ok ⟨position, target.chain, offset.toNat⟩)
  else .ok (.error (.unfit value))

/-- Where a relocation of the data is threaded, or why it is not. -/
def dataSite (l : Layout) (entries : List (Option Placement)) (image : Bytes)
    (r : Relocation) (base : Nat) : Except Stop (Except Skip Site) :=
  let position := saturatingAdd base r.offset
  if image.length < saturatingAdd position siteSize
      ∨ endOfChain ≤ position then
    .ok (.error .outOfRange)
  else match target? l entries r with
    | none => .ok (.error .unknownTarget)
    | some (index, target) => fit l image position index target

/-- Where a relocation is threaded, or why it is not. -/
def site (l : Layout) (entries : List (Option Placement)) (image : Bytes)
    (r : Relocation) : Except Stop (Except Skip Site) := do
  let _ ← entry .noSection l.executable.sections r.container
  if r.type ≠ .absolute32 then .ok (.error .unknownType)
  else
    match ← entry .noEntry entries r.container with
    | none => .ok (.error .unexpectedSection)
    | some source =>
        if source.chain = dataChain then dataSite l entries image r source.base
        else .ok (.error .unexpectedSection)

section Places

variable {l : Layout} {entries : List (Option Placement)}

theorem target?_eq (h : IsTable l entries) (r : Relocation) :
    target? l entries r = l.target? r := by
  rw [target?, Layout.target?]
  cases r.targetSection? l.executable.symbols with
  | none => rfl
  | some index => rw [Option.bind_some, h.entry]

/-- The offset of a word is what comparing and subtracting natural numbers
    gives. -/
theorem fit_eq {image : Bytes} {position index : Nat}
    (inside : position + siteSize ≤ image.length)
    (known : index < l.executable.sections.length) (target : Placement) :
    fit l image position index target
      = .ok (if (l.executable.sectionAt index).address
            ≤ l.word image position + target.base
          ∧ l.word image position + target.base
            < (l.executable.sectionAt index).address + 0x1_0000
        then .ok ⟨position, target.chain, l.word image position + target.base
          - (l.executable.sectionAt index).address⟩
        else .error (.unfit (l.word image position))) := by
  have here : l.executable.sections[index]
      = l.executable.sectionAt index := by
    rw [Executable.sectionAt, List.getD_eq_getElem?_getD,
      List.getElem?_eq_getElem known, Option.getD_some]
  have word : l.executable.architecture.value (placeAt image position)
      = l.word image position := rfl
  rw [fit, window_eq inside, entry_eq (List.getElem?_eq_getElem known), here]
  simp only [bind, Except.bind, word]
  by_cases fits : (l.executable.sectionAt index).address
        ≤ l.word image position + target.base
      ∧ l.word image position + target.base
        < (l.executable.sectionAt index).address + 0x1_0000
  · have offset : ((l.word image position : Int)
        - (l.executable.sectionAt index).address + target.base).toNat
        = l.word image position + target.base
          - (l.executable.sectionAt index).address := by omega
    rw [if_pos fits, if_pos (by omega), offset]
  · rw [if_neg fits, if_neg (by omega)]

/-- The guarded search for a place in the data is that for it. -/
theorem dataSite_eq (h : IsTable l entries) (image : Bytes) {r : Relocation}
    {base : Nat} (type : ¬ r.type ≠ .absolute32)
    (source : l.sourceBase? r = some base) :
    dataSite l entries image r base = .ok (l.site image r) := by
  rw [dataSite, Layout.site, if_neg type, source, target?_eq h]
  dsimp only
  by_cases range : image.length < base + r.offset + siteSize
      ∨ endOfChain ≤ base + r.offset
  · rw [if_pos range, if_pos ((outOfRange_saturatingAdd _ _ _).mpr range)]
  · have inRange := mt (outOfRange_saturatingAdd base r.offset _).mp range
    obtain ⟨inside, linkable⟩ := not_or.mp range
    rw [if_neg range, if_neg inRange,
      saturatingAdd_eq (Nat.lt_of_not_le linkable)]
    cases found : l.target? r with
    | none => rfl
    | some target =>
        obtain ⟨-, placed⟩ := Layout.target?_eq_some_iff.mp found
        exact fit_eq (Nat.le_of_not_lt inside) (h.lt placed) target.2

/-- So is the search for any place. -/
theorem site_eq (h : IsTable l entries) (image : Bytes) {r : Relocation}
    (known : r.container < l.executable.sections.length) :
    site l entries image r = .ok (l.site image r) := by
  rw [site, entry_eq (List.getElem?_eq_getElem known),
    entry_eq (h.getElem?_eq known)]
  simp only [bind, Except.bind]
  by_cases type : r.type ≠ .absolute32
  · rw [if_pos type, Layout.site, if_pos type]
  · have unexpected (none : l.sourceBase? r = none) :
        l.site image r = .error .unexpectedSection := by
      rw [Layout.site, if_neg type, none]
    rw [if_neg type]
    cases placed : l.placement? r.container with
    | none =>
        rw [unexpected (by simp only [Layout.sourceBase?, placed])]
    | some source =>
        by_cases data : source.chain = dataChain
        · refine (if_pos data).trans (dataSite_eq h image type ?_)
          simp only [Layout.sourceBase?, placed, if_pos data]
        · rw [unexpected (by simp only [Layout.sourceBase?, placed, if_neg data])]
          exact if_neg data

end Places

/-! ## Chains -/

/-- What the guarded threading keeps: the image, the heads of the chains, the
    number of places threaded and the problems reported so far. -/
structure State where
  image : Bytes
  heads : List Nat
  threaded : Nat
  problems : Diagnostics

/-- The same of the threading. -/
def stateOf (l : Layout) (origin : String) (t : Threads) : State where
  image := t.image
  heads := t.heads
  threaded := t.sites.length
  problems := t.warnings l origin

/-- Puts a place at the head of its chain, in two stores of 16 bits. -/
def thread (a : Architecture) (s : Site) (state : State) :
    Except Stop State := do
  let head ← entry .noHead state.heads s.chain
  let linked ← store state.image s.position (a.encode 2 head)
  let image ← store linked (s.position + 2) (a.encode 2 s.offset)
  let heads ← put .noHead state.heads s.chain (s.position % 2 ^ 16)
  .ok { state with
    image := image
    heads := heads
    threaded := state.threaded + 1 }

/-- Threads one relocation, or reports why it is left out. -/
def step (l : Layout) (entries : List (Option Placement)) (origin : String)
    (state : State) (r : Relocation) : Except Stop State := do
  match ← site l entries state.image r with
  | .ok s => thread l.executable.architecture s state
  | .error cause =>
      .ok { state with
        problems := state.problems ++ [l.warning origin r cause] }

/-- Threads all relocations of the executable into its data, which has these
    many chains. -/
def relocate (l : Layout) (image : Bytes) (chains : Nat) (origin : String) :
    Except Stop State := do
  let entries ← table l
  l.executable.relocations.foldlM (step l entries origin)
    ⟨image, List.replicate chains endOfChain, 0, []⟩

/-- Counts the chains for these further sections, and threads all relocations
    into them. -/
def run (l : Layout) (image : Bytes) (extra : List (Section × Nat))
    (origin : String) : Except Stop State :=
  match countChains extra with
  | .ok chains => relocate l image chains.toNat origin
  | .error _ => .error .noChain

section Chains

variable {l : Layout} {entries : List (Option Placement)} {t : Threads}

/-- Two stores of 16 bits are those of a place. -/
theorem store_place {image : Bytes} {position : Nat}
    (inside : position + siteSize ≤ image.length) (a : Architecture)
    (head offset : Nat) :
    ∃ linked, store image position (a.encode 2 head) = .ok linked
      ∧ store linked (position + 2) (a.encode 2 offset)
        = .ok (Bytes.overwrite image position
          (a.encode 2 head ++ a.encode 2 offset)) := by
  have size : siteSize = 4 := rfl
  have link := a.length_encode 2 head
  have half := a.length_encode 2 offset
  have room : position + (a.encode 2 head).length ≤ image.length := by omega
  have length := Bytes.length_overwrite room
  have both := @Bytes.overwrite_overwrite image (a.encode 2 head)
    (a.encode 2 offset) position (by omega)
  rw [link] at both
  refine ⟨_, store_eq room, ?_⟩
  rw [store_eq (by omega), both]

/-- The guarded threading of a place threads it. -/
theorem thread_eq {s : Site} (known : s.chain < t.heads.length)
    (inside : s.position + siteSize ≤ t.image.length)
    (linkable : s.position < endOfChain) (a : Architecture)
    (origin : String) :
    thread a s (stateOf l origin t) = .ok (stateOf l origin (t.thread a s)) := by
  obtain ⟨linked, first, second⟩ :=
    store_place inside a t.heads[s.chain] s.offset
  have small : s.position % 2 ^ 16 = s.position :=
    Nat.mod_eq_of_lt (Nat.lt_trans linkable (by decide))
  have image := Threads.image_thread_of_lt (a := a) known
  simp only [thread, stateOf, entry_eq (List.getElem?_eq_getElem known), first,
    second, put_eq known, small, bind, Except.bind, image]
  rfl

/-- The guarded step threads a relocation that step threads, and reports the
    others. -/
theorem step_eq (h : IsTable l entries) {chains : Nat}
    (heads : t.heads.length = chains) (inChains : l.InChains chains)
    {r : Relocation} (known : r.container < l.executable.sections.length)
    (origin : String) :
    step l entries origin (stateOf l origin t) r
      = .ok (stateOf l origin (t.step l r)) := by
  have searched : site l entries (stateOf l origin t).image r
      = .ok (l.site t.image r) := site_eq h t.image known
  rw [step, searched, Threads.step]
  cases found : l.site t.image r with
  | ok s =>
      obtain ⟨_, _, _, facts⟩ := Layout.site_eq_ok_iff.mp found
      exact thread_eq (heads ▸ facts.chain_lt inChains) facts.inside
        facts.linkable _ origin
  | error cause =>
      have reported : (t.skip r cause).warnings l origin
          = t.warnings l origin ++ [l.warning origin r cause] := by
        rw [Threads.warnings, Threads.skip, List.reverse_cons, List.map_append]
        rfl
      simp only [bind, Except.bind, stateOf, reported]
      rfl

theorem length_heads_step (l : Layout) (t : Threads) (r : Relocation) :
    (t.step l r).heads.length = t.heads.length := by
  rw [Threads.step]
  split
  · exact List.length_set
  · rfl

/-- So do guarded steps. -/
theorem foldlM_step_eq (h : IsTable l entries) {chains : Nat}
    (heads : t.heads.length = chains) (inChains : l.InChains chains)
    {rs : List Relocation}
    (known : ∀ r ∈ rs, r.container < l.executable.sections.length)
    (origin : String) :
    rs.foldlM (step l entries origin) (stateOf l origin t)
      = .ok (stateOf l origin (rs.foldl (Threads.step l) t)) := by
  induction rs generalizing t with
  | nil => rfl
  | cons r rs ih =>
      obtain ⟨here, rest⟩ := List.forall_mem_cons.mp known
      rw [List.foldlM_cons, step_eq h heads inChains here origin]
      exact ih (length_heads_step l t r ▸ heads) rest

/-- With these many chains, the guarded threading is not stopped if all
    relocations are in sections that exist.  What it leaves and reports is what
    threading does. -/
theorem relocate_eq (sections : l.InSections) {chains : Nat}
    (inChains : l.InChains chains)
    (known : ∀ r ∈ l.executable.relocations,
      r.container < l.executable.sections.length)
    (image : Bytes) (origin : String) :
    relocate l image chains origin
      = .ok (stateOf l origin (threadAll l image chains)) := by
  obtain ⟨entries, entered, h⟩ := exists_table sections
  rw [relocate, entered]
  exact foldlM_step_eq (t := .start image chains) h List.length_replicate
    inChains known origin

/-- It is stopped at its first relocation, if this one is threaded into a chain
    without a head. -/
theorem relocate_eq_noHead (sections : l.InSections) {r : Relocation}
    {later : List Relocation} (first : l.executable.relocations = r :: later)
    (known : r.container < l.executable.sections.length) {image : Bytes}
    {s : Site} (threaded : l.site image r = .ok s) {chains : Nat}
    (past : chains ≤ s.chain) (origin : String) :
    relocate l image chains origin = .error .noHead := by
  obtain ⟨entries, entered, h⟩ := exists_table sections
  have searched : site l entries image r = .ok (.ok s) :=
    (site_eq h image known).trans (congrArg Except.ok threaded)
  have headless : entry .noHead (List.replicate chains endOfChain) s.chain
      = .error .noHead := by
    rw [entry, List.getElem?_eq_none (List.length_replicate.trans_le past)]
  rw [relocate, entered, first]
  simp only [bind, Except.bind, List.foldlM_cons, step, searched, thread,
    headless]

/-- **The guarded threading is only stopped for want of chains**, if all
    relocations are in sections that exist. -/
theorem run_eq (sections : l.InSections) {extra : List (Section × Nat)}
    (inChains : l.InChains (chainCount extra))
    (known : ∀ r ∈ l.executable.relocations,
      r.container < l.executable.sections.length)
    (image : Bytes) (origin : String) :
    run l image extra origin
      = if extra.length ≤ maxExtra
        then .ok (stateOf l origin (threadAll l image (chainCount extra)))
        else .error .noChain := by
  by_cases few : extra.length ≤ maxExtra
  · obtain ⟨chains, counted, number⟩ := exists_countChains few
    rw [run, counted, if_pos few]
    rw [← number] at inChains ⊢
    exact relocate_eq sections inChains known image origin
  · have stopped := countChains_eq_error_iff.mpr ⟨Nat.lt_of_not_le few, rfl⟩
    rw [run, stopped, if_neg few]

end Chains

end Threads.Guarded

/-- The table of an executable is about sections that it has. -/
theorem inSections_layoutOf {exe : Executable} {code : MainCode}
    (main : HasMainCode exe code) (names : List String) :
    (layoutOf exe code (extraSections exe names)).InSections := by
  have known : ∀ name s, exe.find? name = some s →
      s.2 < exe.sections.length := by
    rintro name ⟨s, index⟩ found
    exact (List.getElem?_eq_some_iff.mp
      (Executable.find?_eq_some found).1).1
  intro p listed
  rw [layoutOf] at listed
  rcases List.mem_append.mp listed with listed | text
  · rcases List.mem_append.mp listed with listed | data
    · rcases List.mem_append.mp listed with further | bss
      · obtain ⟨⟨s, chain⟩, member, rfl⟩ :=
          List.mem_map.mp (List.mem_reverse.mp further)
        have asked : s ∈ extraSections exe names := List.fst_mem_of_mem_zipIdx member
        obtain ⟨name, -, found⟩ := List.mem_filterMap.mp asked
        exact known name s found
      · obtain ⟨s, found, rfl⟩ := List.mem_map.mp bss
        exact known ".bss" s (Option.mem_toList.mp found)
    · obtain ⟨s, found, rfl⟩ := List.mem_map.mp data
      exact known ".data" s (Option.mem_toList.mp found)
  · rw [List.mem_singleton.mp text]
    exact known ".text" (code.text, code.index) main.found

end Handheld
