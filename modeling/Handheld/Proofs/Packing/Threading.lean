import Handheld.Proofs.Packing.Loader

/-! # Threaded chains — what threading leaves in the data

    Threading goes through the relocations with an image in which earlier
    places are overwritten already.  As long as the places are apart from
    each other, that makes no difference:

    • `Layout.site_eq_ok_iff` says all of a place that is threaded; it only
      looks at the length of the image and at the place itself;
    • `IsThreaded` is the invariant: every chain is linked from its head on,
      latest place first, and what is apart from all places is as it was;
    • `IsThreaded.step` and `IsThreaded.foldl_step`: one relocation and a
      list of them keep it;
    • `isThreaded_threadAll` puts them together, and finds that each place
      was threaded for the word that was there at first. -/

namespace Handheld

/-! ## Single places -/

theorem Layout.sourceBase?_eq_some_iff {l : Layout} {r : Relocation}
    {base : Nat} :
    l.sourceBase? r = some base
      ↔ l.placement? r.container = some ⟨dataChain, base⟩ := by
  rw [sourceBase?]
  cases l.placement? r.container with
  | none => simp
  | some p =>
      obtain ⟨chain, start⟩ := p
      by_cases data : chain = dataChain
      · simp [data]
      · simp [data]

theorem Layout.target?_eq_some_iff {l : Layout} {r : Relocation} {index : Nat}
    {target : Placement} :
    l.target? r = some (index, target)
      ↔ r.targetSection? l.executable.symbols = some index
        ∧ l.placement? index = some target := by
  rw [target?]
  cases r.targetSection? l.executable.symbols with
  | none => simp
  | some i =>
      constructor
      · intro h
        obtain ⟨p, placed, pair⟩ := Option.map_eq_some_iff.mp h
        cases pair
        exact ⟨rfl, placed⟩
      · rintro ⟨same, placed⟩
        cases same
        exact Option.map_eq_some_iff.mpr ⟨target, placed, rfl⟩

/-- What has to hold of a relocation that is threaded: its place is at an
    offset in a section of the data that starts at `source`, and the word
    there points into the section `index`, which goes to `target`. -/
structure Layout.IsSite (l : Layout) (image : Bytes) (r : Relocation)
    (s : Site) (source index : Nat) (target : Placement) : Prop where
  type : r.type = .absolute32
  sourceBase : l.sourceBase? r = some source
  destination : l.target? r = some (index, target)
  position : s.position = source + r.offset
  inside : s.position + siteSize ≤ image.length
  linkable : s.position < endOfChain
  chain : s.chain = target.chain
  fits : s.offset < 2 ^ 16
  offset : s.offset + (l.executable.sectionAt index).address
    = l.word image s.position + target.base

theorem Layout.site_eq_ok_iff {l : Layout} {image : Bytes} {r : Relocation}
    {s : Site} :
    l.site image r = .ok s
      ↔ ∃ source index target, l.IsSite image r s source index target := by
  rw [site]
  constructor
  · intro h
    split at h
    case isTrue => cases h
    case isFalse type =>
      split at h
      case h_1 => cases h
      case h_2 source sourceBase =>
        dsimp only at h
        split at h
        case isTrue => cases h
        case isFalse range =>
          split at h
          case h_1 => cases h
          case h_2 index target found =>
            split at h
            case isFalse => cases h
            case isTrue fits =>
              cases h
              refine ⟨source, index, target, Decidable.not_not.mp type,
                sourceBase, found, rfl, ?_, ?_, rfl, ?_, ?_⟩
              all_goals dsimp only
              all_goals omega
  · rintro ⟨source, index, target, h⟩
    obtain ⟨position, chain, offset⟩ := s
    obtain ⟨type, sourceBase, found, rfl, inside, linkable, rfl, fits, eq⟩ := h
    dsimp only at inside linkable fits eq
    have range : ¬ (image.length < source + r.offset + siteSize
        ∨ endOfChain ≤ source + r.offset) := by omega
    have offset_eq : l.word image (source + r.offset) + target.base
        - (l.executable.sectionAt index).address = offset := by omega
    rw [if_neg (fun ne => ne type), sourceBase]
    simp only [if_neg range, found, offset_eq]
    rw [if_pos (by omega)]

/-- Whether a relocation is threaded, and where, only depends on the length
    of the image and on the word in its place. -/
theorem Layout.site_congr {l : Layout} {image other : Bytes} {r : Relocation}
    {s : Site} (h : l.site image r = .ok s)
    (length : other.length = image.length)
    (same : placeAt other s.position = placeAt image s.position) :
    l.site other r = .ok s := by
  obtain ⟨source, index, target, site⟩ := site_eq_ok_iff.mp h
  have word : l.word other s.position = l.word image s.position :=
    congrArg l.executable.architecture.value same
  refine site_eq_ok_iff.mpr ⟨source, index, target, ?_⟩
  exact { site with
    inside := length ▸ site.inside
    offset := word ▸ site.offset }

/-! ## Which relocations are threaded -/

/-- The relocations that are threaded, and where, from a state on. -/
def Layout.threadedFrom (l : Layout) (t : Threads) :
    List Relocation → List (Relocation × Site)
  | [] => []
  | r :: rest =>
      match l.site t.image r with
      | .ok s => (r, s) :: l.threadedFrom (t.step l r) rest
      | .error _ => l.threadedFrom (t.step l r) rest

/-- The relocations that are threaded into an image, in order, and where. -/
def Layout.threaded (l : Layout) (image : Bytes) (chains : Nat) :
    List (Relocation × Site) :=
  l.threadedFrom (.start image chains) l.executable.relocations

theorem Threads.sites_foldl_step (l : Layout) (rs : List Relocation)
    (t : Threads) :
    (rs.foldl (step l) t).sites
      = ((l.threadedFrom t rs).map Prod.snd).reverse ++ t.sites := by
  induction rs generalizing t with
  | nil => rfl
  | cons r rs ih =>
      rw [List.foldl_cons, ih, Layout.threadedFrom]
      cases h : l.site t.image r with
      | ok s =>
          have sites : (t.step l r).sites = s :: t.sites := by
            rw [step, h]
            rfl
          rw [sites]
          simp
      | error cause =>
          have sites : (t.step l r).sites = t.sites := by
            rw [step, h]
            rfl
          rw [sites]

/-- A relocation that is threaded is one of the list, and is threaded into
    what those before it have left. -/
theorem Layout.exists_of_mem_threadedFrom {l : Layout} {t : Threads}
    {rs : List Relocation} {x : Relocation × Site}
    (hx : x ∈ l.threadedFrom t rs) :
    ∃ before after, rs = before ++ x.1 :: after
      ∧ l.site (before.foldl (Threads.step l) t).image x.1 = .ok x.2 := by
  induction rs generalizing t with
  | nil => cases hx
  | cons r rs ih =>
      rw [threadedFrom] at hx
      have later (hx : x ∈ l.threadedFrom (t.step l r) rs) :
          ∃ before after, r :: rs = before ++ x.1 :: after
            ∧ l.site (before.foldl (Threads.step l) t).image x.1
              = .ok x.2 := by
        obtain ⟨before, after, rfl, site⟩ := ih hx
        exact ⟨r :: before, after, rfl, site⟩
      cases found : l.site t.image r with
      | error cause =>
          rw [found] at hx
          exact later hx
      | ok s =>
          rw [found] at hx
          rcases List.mem_cons.mp hx with rfl | rest
          · exact ⟨[], rs, rfl, found⟩
          · exact later rest

/-- The places are those of the relocations that are threaded, latest
    first. -/
theorem sites_threadAll (l : Layout) (image : Bytes) (chains : Nat) :
    (threadAll l image chains).sites
      = ((l.threaded image chains).map Prod.snd).reverse := by
  rw [threadAll, Threads.sites_foldl_step]
  exact List.append_nil _

/-- What is stored in a place of a chain that exists. -/
theorem Threads.image_thread_of_lt {a : Architecture} {t : Threads} {s : Site}
    (known : s.chain < t.heads.length) :
    (t.thread a s).image = Bytes.overwrite t.image s.position
      (a.encode 2 t.heads[s.chain] ++ a.encode 2 s.offset) := by
  rw [Threads.thread, List.getD_eq_getElem?_getD,
    List.getElem?_eq_getElem known, Option.getD_some]

/-! ## The invariant -/

/-- Chains in an image that come from threading places into an image: each is
    linked from its head on, latest place first, and what is apart from all
    places is as it was. -/
structure IsThreaded (a : Architecture) (image : Bytes) (chains : Nat)
    (t : Threads) : Prop where
  length : t.image.length = image.length
  heads : t.heads.length = chains
  chain : ∀ c (h : c < t.heads.length),
    IsChain a t.image t.heads[c] (Site.ofChain c t.sites)
  inside : ∀ s ∈ t.sites, s.position + siteSize ≤ image.length
  inChains : ∀ s ∈ t.sites, s.chain < chains
  untouched : ∀ p, (∀ s ∈ t.sites, Apart s.position p) →
    placeAt t.image p = placeAt image p

namespace IsThreaded

variable {a : Architecture} {image : Bytes} {chains : Nat} {t : Threads}

theorem start (image : Bytes) (chains : Nat) :
    IsThreaded a image chains (.start image chains) := by
  refine ⟨rfl, List.length_replicate, ?_, ?_, ?_, ?_⟩
  · intro c hc
    have head : (Threads.start image chains).heads[c] = endOfChain :=
      List.getElem_replicate _
    rw [head]
    exact .empty
  · intro s hs
    cases hs
  · intro s hs
    cases hs
  · intro p _
    rfl

/-! ### Threading a place -/

section Thread

variable {s : Site}

/-- A place is overwritten with the head of its chain and its offset. -/
theorem image_thread (h : IsThreaded a image chains t)
    (inChains : s.chain < chains) :
    ∃ known : s.chain < t.heads.length,
      (t.thread a s).image = Bytes.overwrite t.image s.position
        (a.encode 2 t.heads[s.chain] ++ a.encode 2 s.offset) :=
  ⟨h.heads ▸ inChains, Threads.image_thread_of_lt _⟩

theorem length_link (head offset : Nat) :
    (a.encode 2 head ++ a.encode 2 offset).length = siteSize := by
  rw [List.length_append, a.length_encode, a.length_encode]
  rfl

theorem placeAt_thread_self (h : IsThreaded a image chains t)
    (inside : s.position + siteSize ≤ image.length)
    (inChains : s.chain < chains) :
    ∃ known : s.chain < t.heads.length,
      placeAt (t.thread a s).image s.position
        = a.encode 2 t.heads[s.chain] ++ a.encode 2 s.offset := by
  obtain ⟨known, written⟩ := h.image_thread inChains
  refine ⟨known, ?_⟩
  rw [written]
  exact placeAt_overwrite_self (length_link _ _) (h.length ▸ inside)

theorem placeAt_thread_apart (h : IsThreaded a image chains t)
    (inside : s.position + siteSize ≤ image.length)
    (inChains : s.chain < chains) {p : Nat} (away : Apart s.position p) :
    placeAt (t.thread a s).image p = placeAt t.image p := by
  obtain ⟨_, written⟩ := h.image_thread inChains
  rw [written]
  exact placeAt_overwrite_apart (length_link _ _) (h.length ▸ inside) away

theorem length_thread (h : IsThreaded a image chains t)
    (inside : s.position + siteSize ≤ image.length)
    (inChains : s.chain < chains) :
    (t.thread a s).image.length = image.length := by
  obtain ⟨_, written⟩ := h.image_thread inChains
  rw [written, length_overwrite_place (length_link _ _) (h.length ▸ inside),
    h.length]

/-- The chain of a threaded place starts with it, and the others are as they
    were. -/
theorem chain_thread (h : IsThreaded a image chains t)
    (apart : Site.AllApart (s :: t.sites))
    (inside : s.position + siteSize ≤ image.length)
    (linkable : s.position < endOfChain) (fits : s.offset < 2 ^ 16)
    (inChains : s.chain < chains) (c : Nat)
    (hc : c < (t.thread a s).heads.length) :
    IsChain a (t.thread a s).image (t.thread a s).heads[c]
      (Site.ofChain c (t.thread a s).sites) := by
  obtain ⟨first, _⟩ := List.pairwise_cons.mp apart
  have hc' : c < t.heads.length := by
    rwa [Threads.thread, List.length_set] at hc
  -- the places threaded before are apart from the new one
  have frame : IsChain a (t.thread a s).image t.heads[c]
      (Site.ofChain c t.sites) := by
    refine (h.chain c hc').frame ?_
    intro u hu
    exact h.placeAt_thread_apart inside inChains
      (first u (Site.mem_ofChain.mp hu).1)
  have sites : (t.thread a s).sites = s :: t.sites := rfl
  by_cases same : s.chain = c
  · subst same
    have newHead : (t.thread a s).heads[s.chain] = s.position :=
      List.getElem_set_self _
    obtain ⟨known, stored⟩ := h.placeAt_thread_self inside inChains
    rw [newHead, sites, Site.ofChain_cons_self]
    exact .link linkable (h.chain s.chain known).head_le fits stored frame
  · have oldHead : (t.thread a s).heads[c] = t.heads[c] :=
      List.getElem_set_ne same _
    rw [oldHead, sites, Site.ofChain_cons_ne same]
    exact frame

/-- Threading a place that is apart from all others keeps the invariant. -/
theorem thread (h : IsThreaded a image chains t)
    (apart : Site.AllApart (s :: t.sites))
    (inside : s.position + siteSize ≤ image.length)
    (linkable : s.position < endOfChain) (fits : s.offset < 2 ^ 16)
    (inChains : s.chain < chains) :
    IsThreaded a image chains (t.thread a s) where
  length := h.length_thread inside inChains
  heads := by
    show (t.heads.set s.chain s.position).length = chains
    rw [List.length_set, h.heads]
  chain := h.chain_thread apart inside linkable fits inChains
  inside := by
    intro u hu
    rcases List.mem_cons.mp hu with rfl | earlier
    · exact inside
    · exact h.inside u earlier
  inChains := by
    intro u hu
    rcases List.mem_cons.mp hu with rfl | earlier
    · exact inChains
    · exact h.inChains u earlier
  untouched := by
    intro p away
    rw [h.placeAt_thread_apart inside inChains (away s List.mem_cons_self)]
    refine h.untouched p ?_
    intro u hu
    exact away u (List.mem_cons_of_mem _ hu)

end Thread

/-- Leaving a relocation out keeps the invariant. -/
theorem skip (h : IsThreaded a image chains t) (r : Relocation) (cause : Skip) :
    IsThreaded a image chains (t.skip r cause) :=
  ⟨h.length, h.heads, h.chain, h.inside, h.inChains, h.untouched⟩

end IsThreaded

/-! ## Runs -/

/-- A layout whose sections go to some of the first `chains` resources. -/
def Layout.InChains (l : Layout) (chains : Nat) : Prop :=
  ∀ index placement, l.placement? index = some placement →
    placement.chain < chains

/-- Relocations are threaded into these chains. -/
theorem Layout.IsSite.chain_lt {l : Layout} {image : Bytes} {r : Relocation}
    {s : Site} {source index chains : Nat} {target : Placement}
    (h : l.IsSite image r s source index target)
    (inChains : l.InChains chains) : s.chain < chains := by
  rw [h.chain]
  exact inChains index target (target?_eq_some_iff.mp h.destination).2

/-- What holds of the places in the end, each with those before it, held of
    the places so far. -/
theorem Threads.pairwise_of_foldl_step {l : Layout} {t : Threads}
    {rs : List Relocation} {R : Site → Site → Prop}
    (h : (rs.foldl (step l) t).sites.Pairwise R) : t.sites.Pairwise R := by
  rw [sites_foldl_step] at h
  exact (List.pairwise_append.mp h).2.1

namespace IsThreaded

variable {l : Layout} {image : Bytes} {chains : Nat} {t : Threads}

/-- A relocation that is threaded is threaded for the word that was in its
    place at first. -/
theorem site_eq (h : IsThreaded l.executable.architecture image chains t)
    {r : Relocation} {s : Site} (site : l.site t.image r = .ok s)
    (apart : Site.AllApart (s :: t.sites)) : l.site image r = .ok s := by
  obtain ⟨first, _⟩ := List.pairwise_cons.mp apart
  refine Layout.site_congr site h.length.symm (h.untouched _ ?_).symm
  intro u hu
  exact (first u hu).symm

/-- One relocation keeps the invariant, if the places are apart after it. -/
theorem step (h : IsThreaded l.executable.architecture image chains t)
    (inChains : l.InChains chains) {r : Relocation}
    (apart : Site.AllApart (t.step l r).sites) :
    IsThreaded l.executable.architecture image chains (t.step l r) := by
  rw [Threads.step] at apart ⊢
  cases site : l.site t.image r with
  | error cause => exact h.skip r cause
  | ok s =>
      rw [site] at apart
      obtain ⟨source, index, target, facts⟩ := Layout.site_eq_ok_iff.mp site
      exact h.thread apart (h.length ▸ facts.inside) facts.linkable facts.fits
        (facts.chain_lt inChains)

/-- Relocations keep the invariant, if all their places are apart in the
    end, and are threaded for the words that were there at first. -/
theorem foldl_step (h : IsThreaded l.executable.architecture image chains t)
    (inChains : l.InChains chains) {rs : List Relocation}
    (apart : Site.AllApart (rs.foldl (Threads.step l) t).sites) :
    IsThreaded l.executable.architecture image chains
        (rs.foldl (Threads.step l) t)
      ∧ ∀ x ∈ l.threadedFrom t rs, l.site image x.1 = .ok x.2 := by
  induction rs generalizing t with
  | nil =>
      refine ⟨h, ?_⟩
      intro x hx
      cases hx
  | cons r rs ih =>
      rw [List.foldl_cons] at apart ⊢
      have now : Site.AllApart (t.step l r).sites :=
        Threads.pairwise_of_foldl_step apart
      obtain ⟨after, later⟩ := ih (h.step inChains now) apart
      refine ⟨after, ?_⟩
      rw [Layout.threadedFrom]
      cases site : l.site t.image r with
      | error cause => exact later
      | ok s =>
          intro x hx
          rcases List.mem_cons.mp hx with rfl | rest
          · rw [Threads.step, site] at now
            exact h.site_eq site now
          · exact later x rest

end IsThreaded

/-- Threading all relocations links the chains of their places, if these are
    apart, and threads each for the word that was in its place at first. -/
theorem isThreaded_threadAll {l : Layout} {image : Bytes} {chains : Nat}
    (inChains : l.InChains chains)
    (apart : Site.AllApart (threadAll l image chains).sites) :
    IsThreaded l.executable.architecture image chains
        (threadAll l image chains)
      ∧ ∀ x ∈ l.threaded image chains, l.site image x.1 = .ok x.2 :=
  (IsThreaded.start image chains).foldl_step inChains apart

end Handheld
