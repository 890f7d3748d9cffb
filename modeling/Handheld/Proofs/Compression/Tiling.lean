import Handheld.Compression.Split

/-! # Tiling — the spans that are written leave out zeros only

    The spans of an image that become passes are in order, end with the
    image, and have nothing but zeros between them (`tiles_pieces`).  The
    argument follows the way in which they are found:

    • the scan keeps that the runs found so far are runs of zeros, one after
      the other (`Runs`);
    • whichever two of them are picked, they do not overlap, so that in the
      order of the image one ends before the other starts;
    • the spans around them tile the image. -/

namespace Handheld.Compression

/-! ## Zeros in an image -/

namespace Span

/-- The bytes of an image at these positions are zeros. -/
def IsZero (s : Span) (image : Bytes) : Prop :=
  s.cut image = List.replicate s.length 0

/-- The bytes up to the end of a span are those before it and its own. -/
theorem take_stop {s : Span} (image : Bytes) (h : s.start ≤ s.stop) :
    image.take s.stop = image.take s.start ++ s.cut image := by
  rw [cut, Bytes.slice, length, ← List.take_add]
  congr 1
  omega

/-- A run of zeros: some positions of an image that hold zeros. -/
structure IsRun (s : Span) (image : Bytes) : Prop where
  nonempty : s.start < s.stop
  inside : s.stop ≤ image.length
  zero : s.IsZero image

/-- The middle one of three pieces is a run if it is made of zeros. -/
theorem isRun_middle {image front rest : Bytes} {run : Nat} (pos : 0 < run)
    (h : image = front ++ (List.replicate run 0 ++ rest)) :
    (Span.mk front.length (front.length + run)).IsRun image := by
  refine ⟨?_, ?_, ?_⟩
  · show front.length < front.length + run
    omega
  · simp [h]
  · simp [IsZero, cut, Bytes.slice, length, h]

end Span

/-! ## Runs that are found -/

/-- Runs of zeros that end before a limit, latest first. -/
structure Runs (image : Bytes) (limit : Nat) (found : List Span) : Prop where
  run : ∀ r ∈ found, r.IsRun image
  below : ∀ r ∈ found, r.stop ≤ limit
  apart : found.Pairwise fun later earlier => earlier.stop ≤ later.start

theorem Runs.mono {image : Bytes} {limit limit' : Nat} {found : List Span}
    (runs : Runs image limit found) (h : limit ≤ limit') :
    Runs image limit' found where
  run := runs.run
  below r hr := Nat.le_trans (runs.below r hr) h
  apart := runs.apart

/-- Closing a run adds a run. -/
theorem Runs.closeRun {image front rest : Bytes} {run : Nat}
    {found : List Span} (runs : Runs image front.length found)
    (h : image = front ++ (List.replicate run 0 ++ rest)) :
    Runs image (front.length + run)
      (closeRun (front.length + run) run found) := by
  unfold Compression.closeRun
  split
  · next long =>
      have pos : 0 < run := Nat.lt_of_lt_of_le (by decide) long
      have start : front.length + run - run = front.length :=
        Nat.add_sub_cancel _ _
      rw [start]
      refine ⟨?_, ?_, ?_⟩
      · intro r hr
        rcases List.mem_cons.mp hr with rfl | old
        · exact Span.isRun_middle pos h
        · exact runs.run r old
      · intro r hr
        rcases List.mem_cons.mp hr with rfl | old
        · exact Nat.le_refl _
        · exact Nat.le_trans (runs.below r old) (Nat.le_add_right _ _)
      · exact List.pairwise_cons.mpr ⟨runs.below, runs.apart⟩
  · exact runs.mono (Nat.le_add_right _ _)

/-- The scan finds runs: `front` is what precedes the zeros right before
    the position. -/
theorem runs_scanRuns {image front rest : Bytes} {run : Nat}
    {found : List Span} (runs : Runs image front.length found)
    (h : image = front ++ (List.replicate run 0 ++ rest)) :
    Runs image image.length
      (scanRuns (front.length + run) run found rest) := by
  induction rest generalizing front run found with
  | nil =>
      have limit : front.length + run = image.length := by simp [h]
      rw [scanRuns, ← limit]
      exact runs.closeRun h
  | cons b rest ih =>
      rw [scanRuns]
      split
      · next zero =>
          rw [Nat.add_assoc]
          refine ih runs ?_
          rw [h, zero, List.replicate_succ']
          simp
      · -- the run ends, and the scan goes on with all of it in front
        have limit : (front ++ List.replicate run 0 ++ [b]).length
            = front.length + run + 1 := by simp [Nat.add_assoc]
        have closed : Runs image
            (front ++ List.replicate run 0 ++ [b]).length
            (closeRun (front.length + run) run found) :=
          (runs.closeRun h).mono (by omega)
        have seen : image = (front ++ List.replicate run 0 ++ [b])
            ++ (List.replicate 0 0 ++ rest) := by simp [h]
        rw [← limit]
        exact ih closed seen

/-- The runs of an image are runs, and each ends before the next starts. -/
theorem runs_zeroRuns (image : Bytes) :
    (∀ r ∈ zeroRuns image, r.IsRun image)
      ∧ (zeroRuns image).Pairwise fun r s => r.stop ≤ s.start := by
  have none : Runs image ([] : Bytes).length [] :=
    ⟨by simp, by simp, List.Pairwise.nil⟩
  have found : Runs image image.length (scanRuns 0 0 [] image) :=
    runs_scanRuns none (show image = [] ++ (List.replicate 0 0 ++ image) from rfl)
  refine ⟨fun r hr => found.run r (List.mem_reverse.mp hr), ?_⟩
  exact List.pairwise_reverse.mpr found.apart

/-! ## The runs that are left out -/

/-- One of two spans ends before the other starts. -/
def Span.Disjoint (r s : Span) : Prop :=
  r.stop ≤ s.start ∨ s.stop ≤ r.start

/-- The runs that are picked are runs, at most two, in order and apart. -/
theorem longestTwo_zeroRuns (image : Bytes) :
    (longestTwo (zeroRuns image)).length ≤ 2
      ∧ (∀ r ∈ longestTwo (zeroRuns image), r.IsRun image)
      ∧ (longestTwo (zeroRuns image)).Pairwise
          fun r s => r.stop ≤ s.start := by
  obtain ⟨runs, ordered⟩ := runs_zeroRuns image
  have picked := List.take_sublist 2
    ((zeroRuns image).mergeSort Span.isPreferred)
  -- sorting by length loses the order, but not that no two runs overlap
  have apart : ((zeroRuns image).mergeSort Span.isPreferred).Pairwise
      Span.Disjoint :=
    (ordered.imp Or.inl).perm (List.mergeSort_perm _ _).symm Or.symm
  have isRun : ∀ r ∈ longestTwo (zeroRuns image), r.IsRun image := by
    intro r hr
    have old := picked.subset ((List.mergeSort_perm _ _).mem_iff.mp hr)
    exact runs r ((List.mergeSort_perm _ _).mem_iff.mp old)
  have disjoint : (longestTwo (zeroRuns image)).Pairwise Span.Disjoint :=
    (apart.sublist picked).perm (List.mergeSort_perm _ _).symm Or.symm
  have sorted : (longestTwo (zeroRuns image)).Pairwise
      fun r s => decide (r.start ≤ s.start) = true :=
    List.pairwise_mergeSort (by simp; omega) (by simp; omega) _
  refine ⟨?_, isRun, ?_⟩
  · rw [longestTwo, List.length_mergeSort]
    exact List.length_take_le 2 _
  · refine (disjoint.and sorted).imp_of_mem ?_
    rintro r s - hs ⟨either, before⟩
    have before := of_decide_eq_true before
    have nonempty := (isRun s hs).nonempty
    rcases either with done | impossible
    · exact done
    · omega

/-! ## Spans that tile an image -/

/-- The spans follow each other from a position to the end of the image,
    and what lies between them is zeros. -/
inductive Tiles (image : Bytes) : Nat → List Span → Prop where
  | done : Tiles image image.length []
  | span {position : Nat} {s : Span} {rest : List Span} :
      position ≤ s.start → s.start ≤ s.stop → s.stop ≤ image.length →
      (Span.mk position s.start).IsZero image →
      Tiles image s.stop rest → Tiles image position (s :: rest)

/-- No bytes are zeros. -/
theorem isZero_empty (image : Bytes) (position : Nat) :
    (Span.mk position position).IsZero image := by
  simp [Span.IsZero, Span.cut, Bytes.slice, Span.length]

/-- The empty span at the end tiles nothing. -/
theorem Tiles.atEnd {image : Bytes} {rest : List Span}
    (h : Tiles image image.length rest) :
    Tiles image image.length (⟨image.length, image.length⟩ :: rest) :=
  .span (Nat.le_refl _) (Nat.le_refl _) (Nat.le_refl _)
    (isZero_empty image _) h

/-- The spans around at most two runs tile the image. -/
theorem tiles_spansAround {image : Bytes} {runs : List Span}
    (few : runs.length ≤ 2) (isRun : ∀ r ∈ runs, r.IsRun image)
    (ordered : runs.Pairwise fun r s => r.stop ≤ s.start) :
    Tiles image 0 (spansAround image.length runs) := by
  match runs, few with
  | [], _ =>
      exact .span (Nat.le_refl _) (Nat.zero_le _) (Nat.le_refl _)
        (isZero_empty image 0) (Tiles.atEnd (Tiles.atEnd .done))
  | [r], _ =>
      have run := isRun r (by simp)
      have startInside := Nat.le_trans (Nat.le_of_lt run.nonempty) run.inside
      exact .span (Nat.le_refl _) (Nat.zero_le _) startInside
        (isZero_empty image 0)
        (.span (Nat.le_of_lt run.nonempty) run.inside (Nat.le_refl _)
          run.zero (Tiles.atEnd .done))
  | [r, s], _ =>
      have first := isRun r (by simp)
      have second := isRun s (by simp)
      have before : r.stop ≤ s.start := by simpa using ordered
      have startInside :=
        Nat.le_trans (Nat.le_of_lt first.nonempty) first.inside
      have gapInside :=
        Nat.le_trans (Nat.le_of_lt second.nonempty) second.inside
      exact .span (Nat.le_refl _) (Nat.zero_le _) startInside
        (isZero_empty image 0)
        (.span (Nat.le_of_lt first.nonempty) before gapInside first.zero
          (.span (Nat.le_of_lt second.nonempty) second.inside
            (Nat.le_refl _) second.zero .done))

/-- Whether or not runs are left out, the spans that are written tile the
    image. -/
theorem tiles_pieces (splits : Bool) (image : Bytes) :
    Tiles image 0 (pieces splits image) := by
  cases splits with
  | false => exact tiles_spansAround (by simp) (by simp) List.Pairwise.nil
  | true =>
      obtain ⟨few, isRun, ordered⟩ := longestTwo_zeroRuns image
      exact tiles_spansAround few isRun ordered

/-- There is a span for each pass. -/
theorem length_pieces (splits : Bool) (image : Bytes) :
    (pieces splits image).length = 3 := by
  unfold pieces spansAround
  split <;> rfl

end Handheld.Compression
