import Mathlib
import Handheld.Compression.Encoding
import Handheld.Proofs.Compression.Runs

/-! # Omission — the longest runs are left out, and all else is written

    Of the long runs of an image, those are left out that come first in the
    order "longer first, earlier first among equals":

    • `IsRanking` are all long runs in this order; there is one such list
      (`IsRanking.unique`), and sorting by preference gives it;
    • `sum_map_le_sum_take`: in descending order, the first elements of a list
      have the largest sum;
    • `IsCovered` says that spans and omitted runs share out the positions of
      an image, as the spans around at most two runs do;
    • `pieces_outcome` puts this together. -/

namespace Handheld.Compression

/-! ## The ranking of runs -/

/-- A span comes before another one: it is longer, or as long and earlier. -/
def Span.Outranks (s t : Span) : Prop :=
  t.length < s.length ∨ (t.length = s.length ∧ s.start < t.start)

/-- All long runs of an image, each before those that it outranks. -/
structure IsRanking (image : Bytes) (ranking : List Span) : Prop where
  mem_iff : ∀ s, s ∈ ranking ↔ s.IsLongRun image
  ordered : ranking.Pairwise Span.Outranks

variable {image : Bytes} {ranking : List Span}

theorem Span.Outranks.asymm {s t : Span} (h : s.Outranks t) :
    ¬ t.Outranks s := by
  rw [Outranks] at h ⊢
  omega

/-- No run is listed twice. -/
theorem IsRanking.nodup (h : IsRanking image ranking) : ranking.Nodup :=
  h.ordered.imp fun outranks same => (same ▸ outranks).asymm (same ▸ outranks)

/-- There is only one ranking. -/
theorem IsRanking.unique {other : List Span} (h : IsRanking image ranking)
    (h' : IsRanking image other) : other = ranking := by
  have perm : other.Perm ranking :=
    (List.perm_ext_iff_of_nodup h'.nodup h.nodup).mpr fun s =>
      (h'.mem_iff s).trans (h.mem_iff s).symm
  refine perm.eq_of_pairwise ?_ h'.ordered h.ordered
  intro s t _ _ first second
  exact absurd second first.asymm

/-- The scan finds no run twice. -/
theorem nodup_zeroRuns (image : Bytes) : (zeroRuns image).Nodup := by
  obtain ⟨runs, apart⟩ := runs_zeroRuns image
  refine apart.imp_of_mem ?_
  rintro s _ member - before rfl
  exact Nat.not_lt.mpr before (runs s member).nonempty

/-- A run that is preferred to another one outranks it. -/
theorem Span.IsRun.outranks {s t : Span} (first : s.IsRun image)
    (second : t.IsRun image) (differ : s ≠ t)
    (preferred : s.isPreferred t = true) : s.Outranks t := by
  have preferred : t.length < s.length
      ∨ (t.length = s.length ∧ s.start ≤ t.start) := of_decide_eq_true preferred
  refine preferred.imp_right fun ⟨same, earlier⟩ => ⟨same, ?_⟩
  refine Nat.lt_of_le_of_ne earlier fun start => differ ?_
  -- as long and as early, they are one run
  have nonempty := first.nonempty
  have nonempty' := second.nonempty
  rw [length, length] at same
  cases s
  cases t
  simp only [mk.injEq] at start same nonempty nonempty' ⊢
  omega

/-- Sorting the runs by preference ranks them. -/
theorem isRanking_mergeSort (image : Bytes) :
    IsRanking image ((zeroRuns image).mergeSort Span.isPreferred) where
  mem_iff s := List.mem_mergeSort.trans mem_zeroRuns_iff
  ordered := by
    have nodup : ((zeroRuns image).mergeSort Span.isPreferred).Nodup :=
      (List.mergeSort_perm _ _).nodup_iff.mpr (nodup_zeroRuns image)
    have preferred : ((zeroRuns image).mergeSort Span.isPreferred).Pairwise
        fun s t => s.isPreferred t = true :=
      List.pairwise_mergeSort (by simp [Span.isPreferred]; omega)
        (by simp [Span.isPreferred]; omega) _
    have runs : ∀ s ∈ (zeroRuns image).mergeSort Span.isPreferred,
        s.IsRun image := fun s member =>
      (runs_zeroRuns image).1 s (List.mem_mergeSort.mp member)
    refine (nodup.and preferred).imp_of_mem ?_
    rintro s t first second ⟨differ, before⟩
    exact (runs s first).outranks (runs t second) differ before

/-- The runs that are picked are the first two of the ranking. -/
theorem IsRanking.longestTwo_perm (h : IsRanking image ranking) :
    (longestTwo (zeroRuns image)).Perm (ranking.take 2) := by
  rw [← h.unique (isRanking_mergeSort image)]
  exact List.mergeSort_perm _ _

/-! ## The largest sum -/

/-- In descending order, no choice of at most `n` elements has a larger sum
    than the first `n`. -/
theorem sum_map_le_sum_take {α : Type} {f : α → Nat} {l choice : List α}
    (descending : l.Pairwise fun a b => f b ≤ f a) (nodup : choice.Nodup)
    (listed : ∀ a ∈ choice, a ∈ l) {n : Nat} (few : choice.length ≤ n) :
    (choice.map f).sum ≤ ((l.take n).map f).sum := by
  classical
  induction l generalizing choice n with
  | nil =>
      obtain rfl : choice = [] := List.eq_nil_iff_forall_not_mem.mpr
        fun a member => List.not_mem_nil (listed a member)
      exact Nat.zero_le _
  | cons head l ih =>
      obtain ⟨largest, descending⟩ := List.pairwise_cons.mp descending
      cases choice with
      | nil => exact Nat.zero_le _
      | cons other choice =>
          obtain ⟨n, rfl⟩ : ∃ m, n = m + 1 :=
            Nat.exists_eq_succ_of_ne_zero (by
              rw [List.length_cons] at few
              omega)
          -- the head takes the place of itself, or of any element
          obtain ⟨a, picked, le, rest⟩ : ∃ a ∈ other :: choice, f a ≤ f head
              ∧ ∀ b ∈ (other :: choice).erase a, b ∈ l := by
            by_cases chosen : head ∈ other :: choice
            · refine ⟨head, chosen, Nat.le_refl _, fun b member => ?_⟩
              obtain ⟨differ, member⟩ := (nodup.mem_erase_iff).mp member
              exact (List.mem_cons.mp (listed b member)).resolve_left differ
            · have inRest : ∀ b ∈ other :: choice, b ∈ l := fun b member =>
                (List.mem_cons.mp (listed b member)).resolve_left
                  fun same => chosen (same ▸ member)
              exact ⟨other, List.mem_cons_self,
                largest other (inRest other List.mem_cons_self),
                fun b member => inRest b (List.mem_of_mem_erase member)⟩
          have shorter : ((other :: choice).erase a).length ≤ n := by
            rw [List.length_erase_of_mem picked]
            exact Nat.sub_le_of_le_add few
          have bound := ih descending (nodup.erase a) rest shorter
          rw [((List.perm_cons_erase picked).map f).sum_eq, List.map_cons,
            List.sum_cons, List.take_succ_cons, List.map_cons, List.sum_cons]
          exact Nat.add_le_add le bound

/-! ## Covering an image -/

/-- How many of the spans hold a position. -/
def cover (spans : List Span) (p : Nat) : Nat :=
  spans.countP fun s => decide (s.Holds p)

theorem cover_nil (p : Nat) : cover [] p = 0 := rfl

theorem cover_cons (s : Span) (spans : List Span) (p : Nat) :
    cover (s :: spans) p
      = cover spans p + if s.start ≤ p ∧ p < s.stop then 1 else 0 := by
  rw [cover, List.countP_cons, cover]
  simp only [decide_eq_true_eq]
  rfl

theorem cover_append (spans others : List Span) (p : Nat) :
    cover (spans ++ others) p = cover spans p + cover others p :=
  List.countP_append

/-- Spans that are written and runs that are omitted share out the positions
    of an image; where there are fewer than two runs, empty spans at the end
    stand in. -/
structure IsCovered (image : Bytes) (omitted spans : List Span) : Prop where
  inside : ∀ s ∈ spans, s.start ≤ s.stop ∧ s.stop ≤ image.length
  ordered : spans.Pairwise fun s t => s.stop ≤ t.start
  once : ∀ p < image.length, cover (spans ++ omitted) p = 1
  total : (spans.map Span.length).sum + (omitted.map Span.length).sum
    = image.length
  standIns : ∃ written : List Span, written.length = omitted.length + 1
    ∧ spans = written
      ++ List.replicate (2 - omitted.length) ⟨image.length, image.length⟩

variable {omitted spans : List Span}

/-- The order of the omitted runs does not matter. -/
theorem IsCovered.perm {others : List Span}
    (h : IsCovered image omitted spans) (perm : omitted.Perm others) :
    IsCovered image others spans where
  inside := h.inside
  ordered := h.ordered
  once p inside := ((perm.append_left spans).countP_eq _).symm.trans
    (h.once p inside)
  total := (perm.map Span.length).sum_eq ▸ h.total
  standIns := perm.length_eq ▸ h.standIns

/-- Where no span is, an omitted run is. -/
theorem IsCovered.getElem?_eq_zero (h : IsCovered image omitted spans)
    (runs : ∀ r ∈ omitted, r.IsRun image) {p : Nat} (inside : p < image.length)
    (outside : ∀ s ∈ spans, ¬ s.Holds p) : image[p]? = some 0 := by
  have none : cover spans p = 0 :=
    List.countP_eq_zero.mpr fun s member holds =>
      outside s member (of_decide_eq_true holds)
  have once := h.once p inside
  rw [cover_append, none, Nat.zero_add] at once
  obtain ⟨r, omits, holds⟩ := List.countP_pos_iff.mp (once ▸ Nat.one_pos)
  exact (runs r omits).getElem?_eq (of_decide_eq_true holds)

/-- The whole image is covered by one span. -/
theorem isCovered_whole (image : Bytes) :
    IsCovered image [] (spansAround image.length []) where
  inside := by simp [spansAround]
  ordered := by simp [spansAround]
  once := by
    intro p inside
    simp only [spansAround, List.append_nil, cover_cons, cover_nil]
    split_ifs <;> omega
  total := by simp [spansAround, Span.length]
  standIns := ⟨[⟨0, image.length⟩], rfl, rfl⟩

/-- The spans around one run and the run cover the image. -/
theorem isCovered_one {r : Span} (run : r.IsRun image) :
    IsCovered image [r] (spansAround image.length [r]) := by
  have nonempty := run.nonempty
  have inside := run.inside
  refine ⟨?_, ?_, ?_, ?_, [⟨0, r.start⟩, ⟨r.stop, image.length⟩], rfl, rfl⟩
  · simp [spansAround]
    omega
  · simp [spansAround]
    omega
  · intro p before
    simp only [spansAround, List.cons_append, List.nil_append, cover_cons,
      cover_nil]
    split_ifs <;> omega
  · simp [spansAround, Span.length]
    omega

/-- The spans around two runs and the runs cover the image. -/
theorem isCovered_two {r s : Span} (first : r.IsRun image)
    (second : s.IsRun image) (apart : r.stop ≤ s.start) :
    IsCovered image [r, s] (spansAround image.length [r, s]) := by
  have nonempty := first.nonempty
  have nonempty' := second.nonempty
  have inside := second.inside
  refine ⟨?_, ?_, ?_, ?_, spansAround image.length [r, s], rfl,
    (List.append_nil _).symm⟩
  · simp [spansAround]
    omega
  · simp [spansAround]
    omega
  · intro p before
    simp only [spansAround, List.cons_append, List.nil_append, cover_cons,
      cover_nil]
    split_ifs <;> omega
  · simp [spansAround, Span.length]
    omega

/-- The spans around at most two runs and the runs cover the image. -/
theorem isCovered_spansAround {runs : List Span} (few : runs.length ≤ 2)
    (isRun : ∀ r ∈ runs, r.IsRun image)
    (ordered : runs.Pairwise fun r s => r.stop ≤ s.start) :
    IsCovered image runs (spansAround image.length runs) := by
  rcases runs with _ | ⟨r, _ | ⟨s, _ | ⟨t, rest⟩⟩⟩
  · exact isCovered_whole image
  · exact isCovered_one (isRun r (by simp))
  · exact isCovered_two (isRun r (by simp)) (isRun s (by simp))
      (by simpa using ordered)
  · simp at few

/-- **Which zeros are left out.**  At every level that splits, the first two
    runs of the ranking are, or all of them if there are fewer.  The three
    spans that are written and these runs cover the image, so that only zeros
    are not written, and no other choice of at most two long runs leaves out
    more. -/
theorem pieces_outcome {effort : Effort} (splits : effort.splitsOnZeros = true)
    (image : Bytes) :
    ∃ ranking : List Span, IsRanking image ranking
      ∧ (∀ other, IsRanking image other → other = ranking)
      ∧ (pieces effort.splitsOnZeros image).length = 3
      ∧ IsCovered image (ranking.take 2) (pieces effort.splitsOnZeros image)
      ∧ (∀ p < image.length,
        (∀ s ∈ pieces effort.splitsOnZeros image, ¬ s.Holds p) →
          image[p]? = some 0)
      ∧ ∀ choice : List Span, choice.Nodup → choice.length ≤ 2 →
        (∀ s ∈ choice, s.IsLongRun image) →
        (choice.map Span.length).sum
          ≤ ((ranking.take 2).map Span.length).sum := by
  have ranked := isRanking_mergeSort image
  obtain ⟨few, isRun, ordered⟩ := longestTwo_zeroRuns image
  have covered : IsCovered image (longestTwo (zeroRuns image))
      (pieces effort.splitsOnZeros image) := by
    rw [pieces, if_pos splits]
    exact isCovered_spansAround few isRun ordered
  refine ⟨_, ranked, fun other => ranked.unique, length_pieces _ image,
    covered.perm ranked.longestTwo_perm,
    fun p => covered.getElem?_eq_zero isRun, ?_⟩
  intro choice nodup atMost long
  refine sum_map_le_sum_take ?_ nodup
    (fun s member => (ranked.mem_iff s).mpr (long s member)) atMost
  exact ranked.ordered.imp fun outranks =>
    outranks.elim Nat.le_of_lt fun same => Nat.le_of_eq same.1

/-- An image with runs of the same length at both ends and a longer one
    between them. -/
def evenEnds : Bytes :=
  List.replicate 8 0 ++ 1 :: List.replicate 9 0 ++ 2 :: List.replicate 8 0

theorem pieces_outcome_evenEnds :
    (⟨4⟩ : Effort).splitsOnZeros = true
      ∧ IsCovered evenEnds [⟨9, 18⟩, ⟨0, 8⟩] (pieces true evenEnds) := by
  have splits : (⟨4⟩ : Effort).splitsOnZeros = true := rfl
  obtain ⟨_, _, unique, _, covered, _⟩ := pieces_outcome splits evenEnds
  have sorted : (zeroRuns evenEnds).mergeSort Span.isPreferred
      = [⟨9, 18⟩, ⟨0, 8⟩, ⟨19, 27⟩] := by cbv
  rw [← unique _ (isRanking_mergeSort evenEnds), sorted] at covered
  exact ⟨splits, covered⟩

end Handheld.Compression
