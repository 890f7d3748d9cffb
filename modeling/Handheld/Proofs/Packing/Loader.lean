import Handheld.Packing.Threading
import Handheld.Proofs.Bytes

/-! # The loader — chains walked when a program starts

    A loader knows where each resource was put.  It follows the chain of
    every resource through the data, from the stored head on: at each place
    it reads the link and the offset, stores the address that the offset
    stands for over both, and goes on with the link.

    • `Walk` and `Load` are the runs of a loader along one chain and along
      all of them; a walk that goes on for ever is no run.
    • `IsChain` says that the places of a list are linked in an image.  It is
      a statement about the places alone (`IsChain.frame`).
    • `IsChain.walk`: a chain of places apart from each other is walked from
      the first to the last, and all of them are corrected.
    • `exists_load`: chains apart from each other are walked one after the
      other, and none disturbs another one. -/

namespace Handheld

/-! ## Places -/

/-- Two places that do not overlap. -/
def Apart (p q : Nat) : Prop :=
  p + siteSize ≤ q ∨ q + siteSize ≤ p

instance (p q : Nat) : Decidable (Apart p q) :=
  inferInstanceAs (Decidable (_ ∨ _))

theorem Apart.symm {p q : Nat} (h : Apart p q) : Apart q p :=
  Or.symm h

/-- Places of a list that are apart from each other. -/
def Site.AllApart (sites : List Site) : Prop :=
  sites.Pairwise fun s t => Apart s.position t.position

instance (sites : List Site) : Decidable (Site.AllApart sites) :=
  inferInstanceAs (Decidable (sites.Pairwise _))

/-- Different places are apart. -/
theorem Site.AllApart.apart {sites : List Site} (h : Site.AllApart sites)
    {s t : Site} (hs : s ∈ sites) (ht : t ∈ sites) (ne : s ≠ t) :
    Apart s.position t.position := by
  induction sites with
  | nil => cases hs
  | cons u sites ih =>
      obtain ⟨first, rest⟩ := List.pairwise_cons.mp h
      rcases List.mem_cons.mp hs with rfl | laterS
      · rcases List.mem_cons.mp ht with rfl | laterT
        · exact absurd rfl ne
        · exact first t laterT
      · rcases List.mem_cons.mp ht with rfl | laterT
        · exact (first s laterS).symm
        · exact ih rest laterS laterT

/-- The four bytes of a place. -/
def placeAt (image : Bytes) (position : Nat) : Bytes :=
  Bytes.slice image position siteSize

section Places

variable {image new : Bytes} {position : Nat}

theorem length_overwrite_place (size : new.length = siteSize)
    (inside : position + siteSize ≤ image.length) :
    (Bytes.overwrite image position new).length = image.length := by
  rw [← size] at inside
  exact Bytes.length_overwrite inside

/-- A place holds what was stored in it. -/
theorem placeAt_overwrite_self (size : new.length = siteSize)
    (inside : position + siteSize ≤ image.length) :
    placeAt (Bytes.overwrite image position new) position = new := by
  rw [← size] at inside
  rw [placeAt, ← size]
  exact Bytes.slice_overwrite_self inside

/-- What is stored in a place does not change places apart from it. -/
theorem placeAt_overwrite_apart {other : Nat} (size : new.length = siteSize)
    (inside : position + siteSize ≤ image.length)
    (apart : Apart position other) :
    placeAt (Bytes.overwrite image position new) other
      = placeAt image other := by
  have away := apart.symm
  rw [Apart, ← size] at away
  rw [← size] at inside
  rw [placeAt, placeAt, ← size]
  exact Bytes.slice_overwrite_apart inside away

end Places

/-! ## Runs of a loader -/

namespace Loader

/-- The position that a place links to. -/
def link (a : Architecture) (image : Bytes) (position : Nat) : Nat :=
  a.value (Bytes.slice image position 2)

/-- The offset in a place. -/
def offset (a : Architecture) (image : Bytes) (position : Nat) : Nat :=
  a.value (Bytes.slice image (position + 2) 2)

/-- The image with the address in a place that its offset stands for. -/
def correct (a : Architecture) (address : Nat) (image : Bytes)
    (position : Nat) : Bytes :=
  Bytes.overwrite image position
    (a.encode siteSize (address + offset a image position))

/-- A run along one chain: from a position and an image to the places that
    were visited, in order, and the image that is left. -/
inductive Walk (a : Architecture) (address : Nat) :
    Nat → Bytes → List Nat → Bytes → Prop where
  | stop (image : Bytes) : Walk a address endOfChain image [] image
  | visit {position : Nat} {image : Bytes} {later : List Nat} {final : Bytes} :
      position ≠ endOfChain →
      Walk a address (link a image position) (correct a address image position)
        later final →
      Walk a address position image (position :: later) final

/-- A run along the chains of these heads, the first of which has the number
    `chain`. -/
inductive Load (a : Architecture) (addresses : Nat → Nat) :
    Nat → List Nat → Bytes → List (List Nat) → Bytes → Prop where
  | done (chain : Nat) (image : Bytes) : Load a addresses chain [] image [] image
  | next {chain head : Nat} {heads visited : List Nat}
      {image middle final : Bytes} {later : List (List Nat)} :
      Walk a (addresses chain) head image visited middle →
      Load a addresses (chain + 1) heads middle later final →
      Load a addresses chain (head :: heads) image (visited :: later) final

/-- There is only one run along a chain. -/
theorem Walk.unique {a : Architecture} {address position : Nat}
    {image final other : Bytes} {visited others : List Nat}
    (h : Walk a address position image visited final)
    (h' : Walk a address position image others other) :
    visited = others ∧ final = other := by
  induction h generalizing others other with
  | stop =>
      cases h' with
      | stop => exact ⟨rfl, rfl⟩
      | visit going _ => exact absurd rfl going
  | visit going _ ih =>
      cases h' with
      | stop => exact absurd rfl going
      | visit _ rest =>
          obtain ⟨rfl, rfl⟩ := ih rest
          exact ⟨rfl, rfl⟩

/-- There is only one run along all chains. -/
theorem Load.unique {a : Architecture} {addresses : Nat → Nat} {chain : Nat}
    {heads : List Nat} {image final other : Bytes}
    {visits others : List (List Nat)}
    (h : Load a addresses chain heads image visits final)
    (h' : Load a addresses chain heads image others other) :
    visits = others ∧ final = other := by
  induction h generalizing others other with
  | done =>
      cases h'
      exact ⟨rfl, rfl⟩
  | next walk _ ih =>
      cases h' with
      | next walk' rest =>
          obtain ⟨rfl, rfl⟩ := walk.unique walk'
          obtain ⟨rfl, rfl⟩ := ih rest
          exact ⟨rfl, rfl⟩

end Loader

/-! ## Chains -/

/-- The places of a list, linked in an image from `head` on. -/
inductive IsChain (a : Architecture) (image : Bytes) :
    Nat → List Site → Prop where
  | empty : IsChain a image endOfChain []
  | link {s : Site} {next : Nat} {rest : List Site} :
      s.position < endOfChain → next ≤ endOfChain → s.offset < 2 ^ 16 →
      placeAt image s.position = a.encode 2 next ++ a.encode 2 s.offset →
      IsChain a image next rest →
      IsChain a image s.position (s :: rest)

namespace IsChain

variable {a : Architecture} {image : Bytes} {head : Nat} {sites : List Site}

/-- A chain only depends on its own places. -/
theorem frame (h : IsChain a image head sites) {other : Bytes}
    (same : ∀ s ∈ sites, placeAt other s.position = placeAt image s.position) :
    IsChain a other head sites := by
  induction h with
  | empty => exact .empty
  | @link s next rest here small fits stored _ ih =>
      refine .link here small fits ?_ (ih ?_)
      · rw [same s List.mem_cons_self, stored]
      · intro t ht
        exact same t (List.mem_cons_of_mem _ ht)

theorem head_le (h : IsChain a image head sites) : head ≤ endOfChain := by
  cases h with
  | empty => exact Nat.le_refl _
  | link here => exact Nat.le_of_lt here

end IsChain

/-! ## Walking one chain -/

/-- An image and what is left of it after a walk through some places. -/
structure IsWalked (a : Architecture) (address : Nat) (sites : List Site)
    (image final : Bytes) : Prop where
  length : final.length = image.length
  corrected : ∀ s ∈ sites,
    placeAt final s.position = a.encode siteSize (address + s.offset)
  untouched : ∀ p, (∀ s ∈ sites, Apart s.position p) →
    placeAt final p = placeAt image p

namespace Loader

variable {a : Architecture} {image : Bytes}

/-- A place with a link and an offset is read as such. -/
theorem link_eq {position next offset : Nat} (small : next ≤ endOfChain)
    (fits : offset < 2 ^ 16)
    (stored : placeAt image position = a.encode 2 next ++ a.encode 2 offset) :
    link a image position = next ∧ Loader.offset a image position = offset := by
  have halves := Bytes.slice_of_slice_eq_append stored (by
    rw [a.length_encode, a.length_encode]
    rfl)
  rw [a.length_encode, a.length_encode] at halves
  constructor
  · rw [link, halves.1, a.value_encode]
    exact Nat.mod_eq_of_lt (Nat.lt_of_le_of_lt small (by decide))
  · rw [Loader.offset, halves.2, a.value_encode]
    exact Nat.mod_eq_of_lt fits

theorem length_correct {address position : Nat}
    (inside : position + siteSize ≤ image.length) :
    (correct a address image position).length = image.length :=
  length_overwrite_place (a.length_encode _ _) inside

theorem placeAt_correct_self {address position : Nat}
    (inside : position + siteSize ≤ image.length) :
    placeAt (correct a address image position) position
      = a.encode siteSize (address + offset a image position) :=
  placeAt_overwrite_self (a.length_encode _ _) inside

theorem placeAt_correct_apart {address position other : Nat}
    (inside : position + siteSize ≤ image.length)
    (apart : Apart position other) :
    placeAt (correct a address image position) other
      = placeAt image other :=
  placeAt_overwrite_apart (a.length_encode _ _) inside apart

end Loader

/-- A walk through a place and then through places apart from it. -/
theorem IsWalked.cons {a : Architecture} {address : Nat} {s : Site}
    {rest : List Site} {image final : Bytes}
    (room : s.position + siteSize ≤ image.length)
    (offset : Loader.offset a image s.position = s.offset)
    (first : ∀ t ∈ rest, Apart s.position t.position)
    (h : IsWalked a address rest (Loader.correct a address image s.position)
      final) :
    IsWalked a address (s :: rest) image final where
  length := by rw [h.length, Loader.length_correct room]
  corrected := by
    intro t ht
    rcases List.mem_cons.mp ht with rfl | later
    · rw [h.untouched t.position, Loader.placeAt_correct_self room, offset]
      intro u hu
      exact (first u hu).symm
    · exact h.corrected t later
  untouched := by
    intro p away
    rw [h.untouched p, Loader.placeAt_correct_apart room
      (away s List.mem_cons_self)]
    intro t ht
    exact away t (List.mem_cons_of_mem _ ht)

/-- A chain of places apart from each other is walked from the first to the
    last, and all of them are corrected. -/
theorem IsChain.walk {a : Architecture} {image : Bytes} {head : Nat}
    {sites : List Site} (h : IsChain a image head sites) (address : Nat)
    (apart : Site.AllApart sites)
    (inside : ∀ s ∈ sites, s.position + siteSize ≤ image.length) :
    ∃ final, Loader.Walk a address head image (sites.map Site.position) final
      ∧ IsWalked a address sites image final := by
  induction sites generalizing head image with
  | nil =>
      cases h with
      | empty =>
          refine ⟨image, .stop image, rfl, ?_, ?_⟩
          · intro s hs
            cases hs
          · intro p _
            rfl
  | cons s rest ih =>
      cases h with
      | @link _ next _ here small fits stored linked =>
          obtain ⟨first, restApart⟩ := List.pairwise_cons.mp apart
          have room := inside s List.mem_cons_self
          obtain ⟨linkEq, offsetEq⟩ := Loader.link_eq small fits stored
          -- the rest of the chain is as it was, apart from this place
          have linked' : IsChain a
              (Loader.correct a address image s.position) next rest := by
            refine linked.frame ?_
            intro t ht
            exact Loader.placeAt_correct_apart room (first t ht)
          obtain ⟨final, walked, done⟩ := ih linked' restApart (by
            intro t ht
            rw [Loader.length_correct room]
            exact inside t (List.mem_cons_of_mem _ ht))
          refine ⟨final, .visit (Nat.ne_of_lt here) ?_,
            .cons room offsetEq first done⟩
          rw [linkEq]
          exact walked

/-! ## Walking all chains -/

/-- The places of a chain. -/
def Site.ofChain (chain : Nat) (sites : List Site) : List Site :=
  sites.filter fun s => s.chain = chain

theorem Site.mem_ofChain {chain : Nat} {sites : List Site} {s : Site} :
    s ∈ Site.ofChain chain sites ↔ s ∈ sites ∧ s.chain = chain := by
  simp [Site.ofChain]

theorem Site.ofChain_cons_self (s : Site) (sites : List Site) :
    Site.ofChain s.chain (s :: sites) = s :: Site.ofChain s.chain sites := by
  rw [Site.ofChain, List.filter_cons_of_pos (by simp)]
  rfl

theorem Site.ofChain_cons_ne {s : Site} {chain : Nat} (ne : s.chain ≠ chain)
    (sites : List Site) :
    Site.ofChain chain (s :: sites) = Site.ofChain chain sites := by
  rw [Site.ofChain, List.filter_cons_of_neg (by simpa using ne)]
  rfl

/-- Places of different chains are apart. -/
theorem Site.AllApart.apart_of_chain_ne {sites : List Site}
    (h : Site.AllApart sites) {s t : Site} (hs : s ∈ sites) (ht : t ∈ sites)
    (ne : s.chain ≠ t.chain) : Apart s.position t.position := by
  refine h.apart hs ht ?_
  rintro rfl
  exact ne rfl

/-- What is left of an image after all chains from `first` on were walked. -/
structure IsLoaded (a : Architecture) (addresses : Nat → Nat)
    (sites : List Site) (first count : Nat) (image : Bytes)
    (visits : List (List Nat)) (final : Bytes) : Prop where
  size : visits.length = count
  visited : ∀ i < count, visits[i]?
    = some ((Site.ofChain (first + i) sites).map Site.position)
  corrected : ∀ s ∈ sites, first ≤ s.chain → s.chain < first + count →
    placeAt final s.position
      = a.encode siteSize (addresses s.chain + s.offset)
  untouched : ∀ s ∈ sites, s.chain < first →
    placeAt final s.position = placeAt image s.position

section Chains

variable {a : Architecture} {sites : List Site} {image middle final : Bytes}
  {first : Nat}

/-- A walk along a chain leaves the places of the other chains as they are. -/
theorem IsWalked.placeAt_of_chain_ne {address : Nat}
    (h : IsWalked a address (Site.ofChain first sites) image middle)
    (apart : Site.AllApart sites) {s : Site} (hs : s ∈ sites)
    (ne : s.chain ≠ first) :
    placeAt middle s.position = placeAt image s.position := by
  refine h.untouched _ ?_
  intro t ht
  obtain ⟨member, rfl⟩ := Site.mem_ofChain.mp ht
  exact apart.apart_of_chain_ne member hs (Ne.symm ne)

/-- All chains are walked if the first one is and then the others. -/
theorem IsLoaded.cons {addresses : Nat → Nat} {count : Nat}
    {visits : List (List Nat)} (apart : Site.AllApart sites)
    (walked : IsWalked a (addresses first) (Site.ofChain first sites) image
      middle)
    (rest : IsLoaded a addresses sites (first + 1) count middle visits final) :
    IsLoaded a addresses sites first (count + 1) image
      ((Site.ofChain first sites).map Site.position :: visits) final where
  size := by rw [List.length_cons, rest.size]
  visited := by
    intro i hi
    cases i with
    | zero => rfl
    | succ i =>
        rw [List.getElem?_cons_succ, rest.visited i (Nat.lt_of_succ_lt_succ hi),
          Nat.add_right_comm, Nat.add_assoc]
  corrected := by
    intro s hs low high
    by_cases here : s.chain = first
    · rw [rest.untouched s hs (by omega), here]
      exact walked.corrected s (Site.mem_ofChain.mpr ⟨hs, here⟩)
    · exact rest.corrected s hs (by omega) (by omega)
  untouched := by
    intro s hs low
    rw [rest.untouched s hs (by omega),
      walked.placeAt_of_chain_ne apart hs (by omega)]

/-- Chains of places apart from each other are walked one after the other,
    each from its first place to its last. -/
theorem exists_load {heads : List Nat} (addresses : Nat → Nat)
    (apart : Site.AllApart sites)
    (inside : ∀ s ∈ sites, s.position + siteSize ≤ image.length)
    (chains : ∀ i (h : i < heads.length),
      IsChain a image heads[i] (Site.ofChain (first + i) sites)) :
    ∃ visits final, Loader.Load a addresses first heads image visits final
      ∧ IsLoaded a addresses sites first heads.length image visits final := by
  induction heads generalizing first image with
  | nil =>
      refine ⟨[], image, .done first image, rfl, ?_, ?_, ?_⟩
      · intro i hi
        cases hi
      · intro s _ low high
        exact absurd low (Nat.not_le_of_lt high)
      · intro s _ _
        rfl
  | cons head heads ih =>
      have chain : IsChain a image head (Site.ofChain first sites) :=
        chains 0 (Nat.zero_lt_succ _)
      obtain ⟨middle, walked, done⟩ :=
        chain.walk (addresses first) (apart.filter _) (by
          intro s hs
          exact inside s (Site.mem_ofChain.mp hs).1)
      -- the other chains are still linked after this walk
      have chains' : ∀ i (h : i < heads.length),
          IsChain a middle heads[i] (Site.ofChain (first + 1 + i) sites) := by
        intro i hi
        have before := chains (i + 1) (Nat.succ_lt_succ hi)
        rw [Nat.add_right_comm, Nat.add_assoc]
        refine before.frame ?_
        intro s hs
        obtain ⟨hs, number⟩ := Site.mem_ofChain.mp hs
        exact done.placeAt_of_chain_ne apart hs (by omega)
      obtain ⟨visits, final, loaded, rest⟩ :=
        ih (done.length ▸ inside) chains'
      exact ⟨_, final, .next walked loaded, .cons apart done rest⟩

end Chains

end Handheld
