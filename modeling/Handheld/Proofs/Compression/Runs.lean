import Handheld.Proofs.Compression.Tiling

/-! # Runs — the scan finds all maximal runs of zeros

    `runs_zeroRuns` says that what the scan finds are runs of zeros.  Here it
    is shown that they are the maximal ones of at least eight zeros, and that
    it finds all of these (`mem_zeroRuns_iff`):

    • a run is maximal if no zero precedes or follows it, so that any run that
      overlaps it is a part of it (`IsMaximalRun.contains`);
    • a run that is closed is maximal, because the scan has kept that no zero
      precedes it and sees that none follows it;
    • `Finds` is what the scan keeps: all long runs up to a limit are found,
      and nothing else is. -/

namespace Handheld.Compression

namespace Span

/-! ## Maximal runs -/

/-- A position is one of the span. -/
def Holds (s : Span) (p : Nat) : Prop :=
  s.start ≤ p ∧ p < s.stop

instance (s : Span) (p : Nat) : Decidable (s.Holds p) :=
  inferInstanceAs (Decidable (_ ∧ _))

/-- A run that no zero precedes or follows. -/
structure IsMaximalRun (s : Span) (image : Bytes) : Prop
    extends s.IsRun image where
  before : ∀ p, p + 1 = s.start → image[p]? ≠ some 0
  after : image[s.stop]? ≠ some 0

/-- A maximal run that is long enough to be left out. -/
structure IsLongRun (s : Span) (image : Bytes) : Prop
    extends s.IsMaximalRun image where
  long : minOmittedRun ≤ s.length

variable {r s : Span} {image : Bytes} {p : Nat}

/-- There are zeros at the positions of a run. -/
theorem IsRun.getElem?_eq (run : s.IsRun image) (here : s.Holds p) :
    image[p]? = some 0 := by
  obtain ⟨first, last⟩ := here
  have inside : p - s.start < s.length := by
    rw [length]
    omega
  have read : (s.cut image)[p - s.start]? = image[p]? := by
    rw [cut, Bytes.slice, List.getElem?_take_of_lt inside, List.getElem?_drop,
      Nat.add_sub_cancel' first]
  rw [← read, run.zero, List.getElem?_replicate_of_lt inside]

/-- A run that overlaps a maximal one is a part of it. -/
theorem IsMaximalRun.contains (maximal : s.IsMaximalRun image)
    (run : r.IsRun image) (here : r.Holds p) (there : s.Holds p) :
    s.start ≤ r.start ∧ r.stop ≤ s.stop := by
  obtain ⟨first, last⟩ := here
  obtain ⟨first', last'⟩ := there
  constructor
  · -- otherwise the zero before the maximal run is one of the other run
    refine Nat.le_of_not_lt fun earlier => ?_
    refine maximal.before (s.start - 1) (by omega) (run.getElem?_eq ?_)
    exact ⟨by omega, by omega⟩
  · refine Nat.le_of_not_lt fun later => ?_
    exact maximal.after (run.getElem?_eq ⟨by omega, later⟩)

/-- Maximal runs that overlap are the same. -/
theorem IsMaximalRun.eq_of_holds (first : r.IsMaximalRun image)
    (second : s.IsMaximalRun image) (here : r.Holds p) (there : s.Holds p) :
    r = s := by
  obtain ⟨start, stop⟩ := second.contains first.toIsRun here there
  obtain ⟨start', stop'⟩ := first.contains second.toIsRun there here
  cases r
  cases s
  congr
  · exact Nat.le_antisymm start' start
  · exact Nat.le_antisymm stop stop'

/-- The middle one of three pieces is a maximal run if it is made of zeros and
    the others do not go on with zeros. -/
theorem isMaximalRun_middle {front rest : Bytes} {run : Nat} (pos : 0 < run)
    (h : image = front ++ (List.replicate run 0 ++ rest))
    (before : front.getLast? ≠ some 0) (after : rest.head? ≠ some 0) :
    (Span.mk front.length (front.length + run)).IsMaximalRun image := by
  refine ⟨isRun_middle pos h, ?_, ?_⟩
  · intro p last
    change p + 1 = front.length at last
    rw [h, List.getElem?_append_left (by omega)]
    rwa [List.getLast?_eq_getElem?, ← last, Nat.add_sub_cancel] at before
  · show image[front.length + run]? ≠ some 0
    rw [h, List.getElem?_append_right (Nat.le_add_right _ _),
      Nat.add_sub_cancel_left, List.getElem?_append_right (by simp),
      List.length_replicate, Nat.sub_self]
    rwa [List.head?_eq_getElem?] at after

end Span

/-! ## The scan -/

/-- The spans are the long runs that end at a limit or before it. -/
def Finds (image : Bytes) (limit : Nat) (found : List Span) : Prop :=
  ∀ s, s ∈ found ↔ s.IsLongRun image ∧ s.stop ≤ limit

variable {image front rest : Bytes} {run limit : Nat} {found : List Span}

/-- No run ends after a byte that is no zero. -/
theorem Finds.next {b : UInt8} (finds : Finds image limit found)
    (here : image[limit]? = some b) (other : b ≠ 0) :
    Finds image (limit + 1) found := by
  intro s
  rw [finds s]
  constructor
  · rintro ⟨long, below⟩
    exact ⟨long, Nat.le_succ_of_le below⟩
  · rintro ⟨long, below⟩
    refine ⟨long, Nat.le_of_not_lt fun beyond => other ?_⟩
    have nonempty := long.nonempty
    have zero := long.getElem?_eq (p := limit) ⟨by omega, beyond⟩
    exact Option.some.inj (here.symm.trans zero)

/-- Closing a maximal run finds it, if it is long enough. -/
theorem Finds.closeRun (finds : Finds image front.length found)
    (h : image = front ++ (List.replicate run 0 ++ rest))
    (before : front.getLast? ≠ some 0) (after : rest.head? ≠ some 0) :
    Finds image (front.length + run)
      (closeRun (front.length + run) run found) := by
  -- a maximal run that ends here shares its last zero with the one closed
  have new : ∀ s : Span, s.IsMaximalRun image → s.stop ≤ front.length + run →
      ¬ s.stop ≤ front.length → s = ⟨front.length, front.length + run⟩ := by
    intro s maximal below beyond
    have nonempty := maximal.nonempty
    have closed := Span.isMaximalRun_middle (by omega) h before after
    refine maximal.eq_of_holds (p := s.stop - 1) closed ?_ ?_
    · exact ⟨by omega, by omega⟩
    · show front.length ≤ s.stop - 1 ∧ s.stop - 1 < front.length + run
      omega
  intro s
  rw [Compression.closeRun]
  split
  · next long =>
      have pos : 0 < run := Nat.lt_of_lt_of_le (by decide) long
      rw [Nat.add_sub_cancel, List.mem_cons, finds s]
      constructor
      · rintro (rfl | ⟨old, below⟩)
        · refine ⟨⟨Span.isMaximalRun_middle pos h before after, ?_⟩,
            Nat.le_refl _⟩
          rwa [Span.length, Nat.add_sub_cancel_left]
        · exact ⟨old, Nat.le_trans below (Nat.le_add_right _ _)⟩
      · rintro ⟨isLong, below⟩
        by_cases old : s.stop ≤ front.length
        · exact Or.inr ⟨isLong, old⟩
        · exact Or.inl (new s isLong.toIsMaximalRun below old)
  · next short =>
      rw [finds s]
      constructor
      · rintro ⟨old, below⟩
        exact ⟨old, Nat.le_trans below (Nat.le_add_right _ _)⟩
      · rintro ⟨isLong, below⟩
        refine ⟨isLong, Decidable.byContradiction fun beyond => short ?_⟩
        have long := isLong.long
        rwa [new s isLong.toIsMaximalRun below beyond, Span.length,
          Nat.add_sub_cancel_left] at long

/-- The scan finds all long runs: `front` is what precedes the zeros right
    before the position, and does not end with a zero. -/
theorem finds_scanRuns (finds : Finds image front.length found)
    (h : image = front ++ (List.replicate run 0 ++ rest))
    (before : front.getLast? ≠ some 0) :
    Finds image image.length
      (scanRuns (front.length + run) run found rest) := by
  induction rest generalizing front run found with
  | nil =>
      have limit : front.length + run = image.length := by simp [h]
      rw [scanRuns, ← limit]
      exact finds.closeRun h before (Option.some_ne_none 0).symm
  | cons b rest ih =>
      rw [scanRuns]
      split
      · next zero =>
          rw [Nat.add_assoc]
          refine ih finds ?_ before
          rw [h, zero, List.replicate_succ']
          simp
      · next other =>
          have limit : (front ++ List.replicate run 0 ++ [b]).length
              = front.length + run + 1 := by simp [Nat.add_assoc]
          have seen : image = (front ++ List.replicate run 0 ++ [b])
              ++ (List.replicate 0 0 ++ rest) := by simp [h]
          have here : image[front.length + run]? = some b := by
            simp [h]
          have differs : (b :: rest).head? ≠ some 0 :=
            fun zero => other (Option.some.inj zero)
          have closed := (finds.closeRun h before differs).next here other
          rw [← limit] at closed ⊢
          refine ih closed seen ?_
          rw [List.getLast?_concat]
          exact fun zero => other (Option.some.inj zero)

/-- **What the scan finds** are the maximal runs of at least eight zeros. -/
theorem mem_zeroRuns_iff {s : Span} : s ∈ zeroRuns image ↔ s.IsLongRun image := by
  have none : Finds image ([] : Bytes).length [] := by
    intro s
    refine ⟨nofun, fun ⟨long, below⟩ => ?_⟩
    exact absurd long.nonempty (by rw [List.length_nil] at below; omega)
  have found : Finds image image.length (scanRuns 0 0 [] image) :=
    finds_scanRuns none
      (show image = [] ++ (List.replicate 0 0 ++ image) from rfl) nofun
  rw [zeroRuns, List.mem_reverse, found s]
  exact ⟨fun long => long.1, fun long => ⟨long, long.inside⟩⟩

end Handheld.Compression
