import Handheld.Proofs.Database.Guarded
import Handheld.Proofs.Database.RoundTrip

/-! # The verdict on an image — which images are read, and why others are not

    An image may have several flaws.  The reader reports the one that comes
    first in a fixed order:

    • `Flaw`: the flaws, each with its rank in this order and its error.
      Among slots whose data are misplaced it is the last one that counts,
      among slots that repeat a key the first one;
    • `IsSound`: what images without flaws are like;
    • `parse_outcome`: the error is that of the first flaw, and images are
      read exactly if they are sound. -/

namespace Handheld.Image

variable {k : Kind}

/-! ## Misplaced data -/

/-- Where the data of slot `i` start; those of the last slot end at
    `stop`. -/
def boundary (slots : List (Slot k)) (stop i : Nat) : Nat :=
  (slots[i]?.map fun slot => slot.offset.toNat).getD stop

/-- The data of slot `i` are said to start before `lower`, or after those of
    the next slot. -/
def IsMisplaced (lower stop : Nat) (slots : List (Slot k)) (i : Nat) : Prop :=
  i < slots.length ∧ (boundary slots stop i < lower
    ∨ boundary slots stop (i + 1) < boundary slots stop i)

/-- The last slot whose data are misplaced. -/
def IsLastMisplaced (lower stop : Nat) (slots : List (Slot k)) (i : Nat) :
    Prop :=
  IsMisplaced lower stop slots i
    ∧ ∀ j, i < j → ¬ IsMisplaced lower stop slots j

private theorem boundary_concat {slots : List (Slot k)} {slot : Slot k}
    {stop i : Nat} (h : i ≤ slots.length) :
    boundary (slots ++ [slot]) stop i
      = boundary slots slot.offset.toNat i := by
  rcases Nat.lt_or_eq_of_le h with before | rfl
  · rw [boundary, boundary, List.getElem?_append_left before,
      List.getElem?_eq_getElem before]
    rfl
  · rw [boundary, boundary, List.getElem?_concat_length,
      List.getElem?_eq_none (Nat.le_refl _)]
    rfl

private theorem boundary_concat_end {slots : List (Slot k)} {slot : Slot k}
    {stop : Nat} :
    boundary (slots ++ [slot]) stop (slots.length + 1) = stop := by
  rw [boundary, List.getElem?_eq_none (by simp)]
  rfl

/-- Behind the last slot nothing is misplaced, and before it what was
    misplaced before. -/
private theorem isMisplaced_concat_iff {lower stop i : Nat}
    {slots : List (Slot k)} {slot : Slot k} :
    IsMisplaced lower stop (slots ++ [slot]) i
      ↔ IsMisplaced lower slot.offset.toNat slots i
        ∨ i = slots.length
          ∧ ¬ (lower ≤ slot.offset.toNat ∧ slot.offset.toNat ≤ stop) := by
  rw [IsMisplaced, IsMisplaced, List.length_append, List.length_singleton]
  rcases Nat.lt_trichotomy i slots.length with before | rfl | after
  · rw [boundary_concat (Nat.le_of_lt before), boundary_concat before]
    constructor
    · rintro ⟨-, wrong⟩
      exact .inl ⟨before, wrong⟩
    · rintro (⟨-, wrong⟩ | ⟨same, -⟩)
      · exact ⟨Nat.lt_succ_of_lt before, wrong⟩
      · omega
  · have start : boundary slots slot.offset.toNat slots.length
        = slot.offset.toNat := by
      rw [boundary, List.getElem?_eq_none (Nat.le_refl _)]
      rfl
    rw [boundary_concat (Nat.le_refl _), start, boundary_concat_end]
    omega
  · omega

/-- Measuring fails at the last misplaced slot, and only if there is
    one. -/
theorem measure_verdict (lower stop : Nat) (measured : List (Slot k × Nat))
    (slots : List (Slot k)) :
    (∃ i, IsLastMisplaced lower stop slots i
        ∧ measure lower stop measured slots.reverse
          = .error (.corrupt (boundary slots stop i) lower
              (boundary slots stop (i + 1))))
      ∨ (∀ i, ¬ IsMisplaced lower stop slots i)
        ∧ ∃ result, measure lower stop measured slots.reverse
          = .ok result := by
  induction slots using List.reverseRecOn generalizing stop measured with
  | nil => exact .inr ⟨fun i h => absurd h.1 (Nat.not_lt_zero i), _, rfl⟩
  | append_singleton slots slot ih =>
      rw [List.reverse_concat, measure]
      by_cases inside : lower ≤ slot.offset.toNat ∧ slot.offset.toNat ≤ stop
      · -- the slots before it are measured as if the image ended at its data
        rw [if_pos inside]
        rcases ih slot.offset.toNat ((slot, stop - slot.offset.toNat) :: measured)
          with ⟨i, ⟨wrong, last⟩, fails⟩ | ⟨right, measures⟩
        · refine .inl ⟨i, ⟨isMisplaced_concat_iff.mpr (.inl wrong), ?_⟩, ?_⟩
          · intro j later misplaced
            rcases isMisplaced_concat_iff.mp misplaced with front | ⟨-, out⟩
            · exact last j later front
            · exact out inside
          · rw [boundary_concat (Nat.le_of_lt wrong.1),
              boundary_concat wrong.1]
            exact fails
        · refine .inr ⟨fun i misplaced => ?_, measures⟩
          rcases isMisplaced_concat_iff.mp misplaced with front | ⟨-, out⟩
          · exact right i front
          · exact out inside
      · rw [if_neg inside]
        refine .inl ⟨slots.length, ⟨isMisplaced_concat_iff.mpr
          (.inr ⟨rfl, inside⟩), ?_⟩, ?_⟩
        · intro j later misplaced
          have bound := misplaced.1
          rw [List.length_append, List.length_singleton] at bound
          omega
        · rw [boundary_concat (Nat.le_refl _), boundary_concat_end, boundary,
            List.getElem?_eq_none (Nat.le_refl _)]
          rfl

/-! ## Repeated keys -/

/-- The key at `i` is also at an earlier position. -/
def IsRepeated {α : Type} (keys : List α) (i : Nat) (key : α) : Prop :=
  keys[i]? = some key ∧ key ∈ keys.take i

/-- The first key that is at an earlier position as well. -/
def IsFirstRepeated {α : Type} (keys : List α) (i : Nat) (key : α) : Prop :=
  IsRepeated keys i key ∧ ∀ j < i, ∀ other, ¬ IsRepeated keys j other

private theorem not_isRepeated_of_nodup {α : Type} {keys : List α}
    (h : keys.Nodup) (i : Nat) (key : α) : ¬ IsRepeated keys i key := by
  rintro ⟨found, earlier⟩
  obtain ⟨bound, rfl⟩ := List.getElem?_eq_some_iff.mp found
  obtain ⟨j, before, same⟩ := List.mem_take_iff_getElem.mp earlier
  have equal := h.getElem_inj_iff.mp same
  omega

private theorem isRepeated_concat_iff {α : Type} {keys : List α} {last key : α}
    {i : Nat} :
    IsRepeated (keys ++ [last]) i key
      ↔ IsRepeated keys i key
        ∨ i = keys.length ∧ key = last ∧ last ∈ keys := by
  rw [IsRepeated, IsRepeated]
  rcases Nat.lt_trichotomy i keys.length with before | rfl | after
  · rw [List.getElem?_append_left before,
      List.take_append_of_le_length (Nat.le_of_lt before)]
    have differ : i ≠ keys.length := Nat.ne_of_lt before
    simp [differ]
  · rw [List.getElem?_concat_length, List.take_left,
      List.getElem?_eq_none (Nat.le_refl _)]
    constructor
    · rintro ⟨found, member⟩
      cases found
      exact .inr ⟨rfl, rfl, member⟩
    · rintro (⟨found, -⟩ | ⟨-, rfl, member⟩)
      · cases found
      · exact ⟨rfl, member⟩
  · have differ : i ≠ keys.length := Nat.ne_of_gt after
    rw [List.getElem?_eq_none (by simp; omega),
      List.getElem?_eq_none (Nat.le_of_lt after)]
    simp [differ]

private theorem IsFirstRepeated.concat {α : Type} {keys : List α}
    {i : Nat} {key : α} (h : IsFirstRepeated keys i key) (last : α) :
    IsFirstRepeated (keys ++ [last]) i key := by
  refine ⟨isRepeated_concat_iff.mpr (.inl h.1), fun j before other again => ?_⟩
  rcases isRepeated_concat_iff.mp again with front | ⟨rfl, -⟩
  · exact h.2 j before other front
  · have bound := (List.getElem?_eq_some_iff.mp h.1.1).1
    omega

private theorem index_concat (entries : Entries k)
    (list : List (k.Key × k.Value)) (last : k.Key × k.Value) :
    index entries (list ++ [last]) = (index entries list).bind fun entries =>
      if entries.contains last.1 then
        .error (.duplicateKey (k.keyText last.1))
      else .ok (entries.insert last.1 last.2) := by
  induction list generalizing entries with
  | nil => rfl
  | cons entry list ih =>
      rw [List.cons_append, index, index]
      split
      · rfl
      · exact ih _

/-- Entries fail to be indexed at the first repeated key, and only if there
    is one. -/
theorem index_verdict (list : List (k.Key × k.Value)) :
    (∃ i key, IsFirstRepeated (list.map Prod.fst) i key
        ∧ index ∅ list = .error (.duplicateKey (k.keyText key)))
      ∨ (list.map Prod.fst).Nodup
        ∧ ∃ entries, index ∅ list = .ok entries := by
  induction list using List.reverseRecOn with
  | nil => exact .inr ⟨List.nodup_nil, _, rfl⟩
  | append_singleton list last ih =>
      rw [List.map_append, index_concat]
      rcases ih with ⟨i, key, first, fails⟩ | ⟨nodup, entries, indexed⟩
      · rw [fails]
        exact .inl ⟨i, key, first.concat last.1, rfl⟩
      · have found : entries.contains last.1 = true
            ↔ last.1 ∈ list.map Prod.fst := by
          have keys := ((index_eq_ok_iff.mp indexed).2.map Prod.fst).mem_iff
            (a := last.1)
          rw [← keys, Std.ExtTreeMap.map_fst_toList_eq_keys,
            Std.ExtTreeMap.mem_keys, Std.ExtTreeMap.contains_iff_mem]
        rw [indexed]
        dsimp only [Except.bind]
        split
        case isTrue again =>
          have member := found.mp again
          refine .inl ⟨(list.map Prod.fst).length, last.1, ⟨?_, ?_⟩, rfl⟩
          · exact isRepeated_concat_iff.mpr (.inr ⟨rfl, rfl, member⟩)
          · intro j before other repeated
            rcases isRepeated_concat_iff.mp repeated with front | ⟨rfl, -⟩
            · exact not_isRepeated_of_nodup nodup j other front
            · exact absurd before (Nat.lt_irrefl _)
        case isFalse new =>
          refine .inr ⟨?_, _, rfl⟩
          refine List.nodup_append.mpr
            ⟨nodup, List.nodup_singleton _, fun a ha b hb same => ?_⟩
          rw [List.map_singleton, List.mem_singleton] at hb
          exact new (found.mpr (hb ▸ same ▸ ha))

/-! ## Flaws -/

/-- The flaws of an image, each with its rank and its error. -/
inductive Flaw (k : Kind) (image : Bytes) : Nat → FormatError → Prop where
  | noHeader (short : image.length < Header.size) :
      Flaw k image 0 (.truncated Header.size image.length)
  | furtherDirectory (further : (RawHeader.ofBytes image).nextDirectory ≠ 0) :
      Flaw k image 1
        (.furtherDirectory (RawHeader.ofBytes image).nextDirectory)
  | wrongKind
      (other : (RawHeader.ofBytes image).header.isResource ≠ k.isResource) :
      Flaw k image 2 (.wrongKind k.isResource)
  | noCount (short : image.length < Header.size + Slot.countSize) :
      Flaw k image 3
        (.truncated (Header.size + Slot.countSize) image.length)
  | noDirectory (short : image.length < directoryEnd k image) :
      Flaw k image 4 (.truncated (directoryEnd k image) image.length)
  | misplaced (i : Nat)
      (last : IsLastMisplaced (directoryEnd k image) image.length
        (directory k image) i) :
      Flaw k image 5
        (.corrupt (boundary (directory k image) image.length i)
          (directoryEnd k image)
          (boundary (directory k image) image.length (i + 1)))
  | repeated (i : Nat) (key : k.Key)
      (first : IsFirstRepeated ((directory k image).map Slot.key) i key) :
      Flaw k image 6 (.duplicateKey (k.keyText key))

/-- An image without flaws of a rank below this one. -/
def IsClear (k : Kind) (image : Bytes) (rank : Nat) : Prop :=
  ∀ earlier < rank, ∀ e, ¬ Flaw k image earlier e

/-- The error of the first flaw of an image. -/
def IsFirstFlaw (k : Kind) (image : Bytes) (e : FormatError) : Prop :=
  ∃ rank, Flaw k image rank e ∧ IsClear k image rank

/-- An image with a whole header and directory of the kind, whose data start
    in order, after the directory and before the end, and whose keys are
    distinct. -/
structure IsSound (k : Kind) (image : Bytes) : Prop where
  opened : IsOpened k image
  placed : ∀ i < (directory k image).length,
    directoryEnd k image ≤ boundary (directory k image) image.length i
      ∧ boundary (directory k image) image.length i
        ≤ boundary (directory k image) image.length (i + 1)
  distinct : ((directory k image).map Slot.key).Nodup

variable {image : Bytes}

theorem isClear_zero : IsClear k image 0 :=
  fun earlier before => absurd before (Nat.not_lt_zero earlier)

theorem IsClear.succ {rank : Nat} (h : IsClear k image rank)
    (none : ∀ e, ¬ Flaw k image rank e) : IsClear k image (rank + 1) := by
  intro earlier before
  rcases Nat.lt_succ_iff_lt_or_eq.mp before with lower | rfl
  · exact h earlier lower
  · exact none

/-- A sound image has no flaw. -/
theorem IsSound.not_flaw (h : IsSound k image) (rank : Nat)
    (e : FormatError) : ¬ Flaw k image rank e := by
  have size : Header.size + Slot.countSize ≤ directoryEnd k image :=
    Nat.add_le_add_left (Nat.le_add_right _ _) _
  have inside := h.opened.inside
  intro flaw
  cases flaw with
  | noHeader short => omega
  | furtherDirectory further => exact further h.opened.noFurther
  | wrongKind other => exact other h.opened.isResource
  | noCount short => omega
  | noDirectory short => omega
  | misplaced i last =>
      obtain ⟨⟨bound, wrong⟩, -⟩ := last
      have right := h.placed i bound
      omega
  | repeated i key first =>
      exact not_isRepeated_of_nodup h.distinct i key first.1

/-- There is only one first number with a property. -/
private theorem first_unique {P : Nat → Prop} {i j : Nat} (hi : P i)
    (firstI : ∀ m < i, ¬ P m) (hj : P j) (firstJ : ∀ m < j, ¬ P m) : i = j := by
  rcases Nat.lt_trichotomy i j with before | same | after
  · exact absurd hi (firstJ i before)
  · exact same
  · exact absurd hj (firstI j after)

/-- There is only one last number with a property. -/
private theorem last_unique {P : Nat → Prop} {i j : Nat} (hi : P i)
    (lastI : ∀ m, i < m → ¬ P m) (hj : P j) (lastJ : ∀ m, j < m → ¬ P m) :
    i = j := by
  rcases Nat.lt_trichotomy i j with before | same | after
  · exact absurd hj (lastI j before)
  · exact same
  · exact absurd hi (lastJ i after)

/-- Flaws of one rank have one error. -/
theorem Flaw.unique {rank : Nat} {e e' : FormatError}
    (h : Flaw k image rank e) (h' : Flaw k image rank e') : e = e' := by
  cases h with
  | noHeader => cases h'; rfl
  | furtherDirectory => cases h'; rfl
  | wrongKind => cases h'; rfl
  | noCount => cases h'; rfl
  | noDirectory => cases h'; rfl
  | misplaced i last =>
      cases h' with
      | misplaced j last' =>
          obtain rfl := last_unique last.1 last.2 last'.1 last'.2
          rfl
  | repeated i key first =>
      cases h' with
      | repeated j key' first' =>
          have none : ∀ {n key}, IsFirstRepeated
              ((directory k image).map Slot.key) n key → ∀ m < n,
                ¬ ∃ other, IsRepeated ((directory k image).map Slot.key) m
                  other :=
            fun h m before again => again.elim (h.2 m before)
          obtain rfl := first_unique ⟨key, first.1⟩ (none first)
            ⟨key', first'.1⟩ (none first')
          have same := first.1.1.symm.trans first'.1.1
          cases same
          rfl

theorem IsFirstFlaw.unique {e e' : FormatError}
    (h : IsFirstFlaw k image e) (h' : IsFirstFlaw k image e') : e = e' := by
  obtain ⟨rank, flaw, clear⟩ := h
  obtain ⟨rank', flaw', clear'⟩ := h'
  have none : ∀ {n}, IsClear k image n →
      ∀ m < n, ¬ ∃ e, Flaw k image m e :=
    fun h m before some => some.elim (h m before)
  obtain rfl := first_unique ⟨e, flaw⟩ (none clear) ⟨e', flaw'⟩ (none clear')
  exact flaw.unique flaw'

/-! ## The verdict -/

/-- The beginning of an image is read unless one of the first five flaws is
    there. -/
theorem openDirectory_verdict (k : Kind) (image : Bytes) :
    (∃ e, IsFirstFlaw k image e ∧ openDirectory k image = .error e)
      ∨ IsClear k image 5 ∧ IsOpened k image := by
  rw [openDirectory, RawHeader.read]
  by_cases header : image.length < Header.size
  · rw [if_pos header]
    exact .inl ⟨_, ⟨0, .noHeader header, isClear_zero⟩, rfl⟩
  have clear₁ : IsClear k image 1 := isClear_zero.succ fun e flaw => by
    cases flaw with
    | noHeader short => exact header short
  rw [if_neg header]
  dsimp only
  by_cases further : (RawHeader.ofBytes image).nextDirectory ≠ 0
  · rw [if_pos further]
    exact .inl ⟨_, ⟨1, .furtherDirectory further, clear₁⟩, rfl⟩
  have clear₂ : IsClear k image 2 := clear₁.succ fun e flaw => by
    cases flaw with
    | furtherDirectory some => exact further some
  rw [if_neg further]
  by_cases other : (RawHeader.ofBytes image).header.isResource ≠ k.isResource
  · rw [if_pos other]
    exact .inl ⟨_, ⟨2, .wrongKind other, clear₂⟩, rfl⟩
  have clear₃ : IsClear k image 3 := clear₂.succ fun e flaw => by
    cases flaw with
    | wrongKind differs => exact other differs
  rw [if_neg other]
  by_cases count : image.length < Header.size + Slot.countSize
  · rw [if_pos count]
    exact .inl ⟨_, ⟨3, .noCount count, clear₃⟩, rfl⟩
  have clear₄ : IsClear k image 4 := clear₃.succ fun e flaw => by
    cases flaw with
    | noCount short => exact count short
  rw [if_neg count]
  by_cases slots : image.length < directoryEnd k image
  · exact .inl ⟨_, ⟨4, .noDirectory slots, clear₄⟩, if_pos slots⟩
  have clear₅ : IsClear k image 5 := clear₄.succ fun e flaw => by
    cases flaw with
    | noDirectory short => exact slots short
  exact .inr ⟨clear₅, Nat.le_of_not_lt slots, Decidable.not_not.mp further,
    Decidable.not_not.mp other⟩

/-- The data of an image are found unless one of the first six flaws is
    there. -/
theorem plan_verdict (k : Kind) (image : Bytes) :
    (∃ e, IsFirstFlaw k image e ∧ plan k image = .error e)
      ∨ IsClear k image 6 ∧ IsOpened k image
        ∧ (∀ i, ¬ IsMisplaced (directoryEnd k image) image.length
            (directory k image) i)
        ∧ ∃ p, plan k image = .ok p := by
  rw [plan]
  rcases openDirectory_verdict k image with ⟨e, first, fails⟩ | ⟨clear, opened⟩
  · rw [fails]
    exact .inl ⟨e, first, rfl⟩
  rw [openDirectory_eq_ok_iff.mpr ⟨opened, rfl⟩]
  dsimp only [opening]
  rw [decodeAll_eq_reverse_directory]
  rcases measure_verdict (directoryEnd k image) image.length []
      (directory k image) with ⟨i, last, fails⟩ | ⟨placed, m, measures⟩
  · rw [fails]
    exact .inl ⟨_, ⟨5, .misplaced i last, clear⟩, rfl⟩
  rw [measures]
  refine .inr ⟨clear.succ fun e flaw => ?_, opened, placed, _, rfl⟩
  cases flaw with
  | misplaced i last => exact placed i last.1

/-- The entries have the keys of the slots. -/
theorem keys_entries {image : Bytes} {p : Plan k} (h : plan k image = .ok p) :
    (p.entries image).map Prod.fst = (directory k image).map Slot.key := by
  obtain ⟨-, -, slots, -⟩ := plan_eq_ok_iff.mp h
  rw [Plan.entries, deal_eq, List.reverse_nil, List.nil_append, ← slots,
    keys_entriesOf]
  rw [Bytes.length_fields, List.length_map, List.length_map]

/-- Either an image is refused for its first flaw, or it is sound and
    read. -/
theorem parse_verdict (k : Kind) (image : Bytes) :
    (∃ e, IsFirstFlaw k image e ∧ parse k image = .error e)
      ∨ IsSound k image ∧ ∃ d, parse k image = .ok d := by
  rw [parse]
  rcases plan_verdict k image with
    ⟨e, first, fails⟩ | ⟨clear, opened, placed, p, planned⟩
  · rw [fails]
    exact .inl ⟨e, first, rfl⟩
  rw [planned]
  dsimp only
  rcases index_verdict (p.entries image)
    with ⟨i, key, first, fails⟩ | ⟨nodup, entries, indexed⟩
  · rw [keys_entries planned] at first
    rw [fails]
    exact .inl ⟨_, ⟨6, .repeated i key first, clear⟩, rfl⟩
  · rw [keys_entries planned] at nodup
    rw [indexed]
    refine .inr ⟨⟨opened, fun i bound => ?_, nodup⟩, _, rfl⟩
    have right := placed i
    rw [IsMisplaced] at right
    omega

theorem parse_eq_error_iff {e : FormatError} :
    parse k image = .error e ↔ IsFirstFlaw k image e := by
  rcases parse_verdict k image with ⟨e', first, fails⟩ | ⟨sound, d, reads⟩
  · rw [fails, Except.error.injEq]
    constructor
    · rintro rfl
      exact first
    · exact first.unique
  · rw [reads]
    constructor
    · intro error
      cases error
    · rintro ⟨rank, flaw, -⟩
      exact absurd flaw (sound.not_flaw rank e)

theorem exists_parse_eq_ok_iff :
    (∃ d, parse k image = .ok d) ↔ IsSound k image := by
  rcases parse_verdict k image with ⟨e, first, fails⟩ | ⟨sound, d, reads⟩
  · constructor
    · rintro ⟨d, reads⟩
      rw [fails] at reads
      cases reads
    · intro sound
      obtain ⟨rank, flaw, -⟩ := first
      exact absurd flaw (sound.not_flaw rank e)
  · exact ⟨fun _ => sound, fun _ => ⟨d, reads⟩⟩

/-! ## Readers that go by the header -/

/-- The kind that the resource flag of an image tells. -/
def namedKind (image : Bytes) : Kind :=
  Kind.ofIsResource (RawHeader.ofBytes image).header.isResource

private theorem isResource_namedKind (image : Bytes) :
    (namedKind image).isResource
      = (RawHeader.ofBytes image).header.isResource := by
  rw [namedKind]
  cases (RawHeader.ofBytes image).header.isResource <;> rfl

/-- A reader that goes by the header is the one for the kind it names. -/
theorem parseAny_eq (image : Bytes) :
    parseAny image
      = (parse (namedKind image) image).map Database.toAny := by
  by_cases short : image.length < Header.size
  · have refused : ∀ k, parse k image
        = .error (.truncated Header.size image.length) := fun k =>
      parse_eq_error_iff.mpr ⟨0, .noHeader short, isClear_zero⟩
    rw [parseAny, kind, RawHeader.read, if_pos short,
      refused (namedKind image)]
    rfl
  · have named : kind image = .ok (namedKind image) := by
      rw [kind, RawHeader.read, if_neg short]
      rfl
    rw [parseAny, named]
    cases namedKind image <;> rfl

theorem parseAny_ne_wrongKind (image : Bytes) (expected : Bool) :
    parseAny image ≠ .error (.wrongKind expected) := by
  rw [parseAny_eq]
  intro wrong
  have refused : parse (namedKind image) image
      = .error (.wrongKind expected) := by
    cases h : parse (namedKind image) image with
    | error e =>
        rw [h] at wrong
        cases wrong
        rfl
    | ok d =>
        rw [h] at wrong
        cases wrong
  obtain ⟨rank, flaw, -⟩ := parse_eq_error_iff.mp refused
  cases flaw with
  | wrongKind other => exact other (isResource_namedKind image).symm

/-- **What becomes of an image.**  No read leaves it and no difference is
    below zero, as the guarded reader shows.  The error is that of its first
    flaw, and exactly the sound images are read.  Readers that go by the
    header have the outcome of the kind that it names, and so never find the
    wrong one. -/
theorem parse_outcome (k : Kind) (image : Bytes) :
    Guarded.parse k image = (parse k image).mapError .refused
      ∧ (∀ e, parse k image = .error e ↔ IsFirstFlaw k image e)
      ∧ ((∃ d, parse k image = .ok d) ↔ IsSound k image)
      ∧ parseAny image = (parse (namedKind image) image).map Database.toAny
      ∧ ∀ expected, parseAny image ≠ .error (.wrongKind expected) :=
  ⟨Guarded.parse_eq k image, fun _ => parse_eq_error_iff,
    exists_parse_eq_ok_iff, parseAny_eq image, parseAny_ne_wrongKind image⟩

end Handheld.Image
