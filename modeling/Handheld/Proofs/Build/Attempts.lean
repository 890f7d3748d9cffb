import Handheld.Proofs.Build.Ranking

/-! # Attempts — what any sources in any order make of a setting

    Sources may come in any order and more than once.  One that is below the
    source that set the value last fails, unless it repeats the value, and
    leaves the setting as it is in either case:

    • `Setting.attempt` is one attempt, and `attemptAll` a run of attempts
      whose failures are passed over;
    • `IsDecisive` says which attempt of a run decides: the last one by the
      highest source;
    • `IsSettled.attempt` is one step: the setting has what the decisive
      attempt gave it, before and after;
    • `attemptAll_outcome` puts this together for a run from a setting that
      nothing has set, and says what every attempt in it does. -/

namespace Handheld

/-- A value, and the source that tries to give it to a setting. -/
structure Attempt (α : Type) where
  value : α
  priority : Priority
deriving DecidableEq

variable {α : Type}

/-- The attempt that decides: no attempt is by a higher source, and none
    after it is by the same one. -/
structure IsDecisive (attempts : List (Attempt α)) (a : Attempt α) : Prop where
  highest : ∀ b ∈ attempts, b.priority.rank ≤ a.priority.rank
  last : ∃ before after, attempts = before ++ a :: after
    ∧ ∀ b ∈ after, b.priority ≠ a.priority

/-- An attempt that is not below the decisive one decides in its place. -/
theorem IsDecisive.replaced {attempts : List (Attempt α)} {a b : Attempt α}
    (h : IsDecisive attempts a)
    (reaches : a.priority.rank ≤ b.priority.rank) :
    IsDecisive (attempts ++ [b]) b := by
  refine ⟨?_, attempts, [], rfl, fun _ none => absurd none List.not_mem_nil⟩
  intro c hc
  rcases List.mem_append.mp hc with earlier | this
  · exact (h.highest c earlier).trans reaches
  · rw [List.mem_singleton.mp this]

/-- One that is below it does not. -/
theorem IsDecisive.kept {attempts : List (Attempt α)} {a b : Attempt α}
    (h : IsDecisive attempts a)
    (below : b.priority.rank < a.priority.rank) :
    IsDecisive (attempts ++ [b]) a := by
  obtain ⟨before, after, rfl, others⟩ := h.last
  refine ⟨?_, before, after ++ [b], List.append_assoc .., ?_⟩
  · intro c hc
    rcases List.mem_append.mp hc with earlier | this
    · exact h.highest c earlier
    · rw [List.mem_singleton.mp this]
      exact Nat.le_of_lt below
  · intro c hc
    rcases List.mem_append.mp hc with earlier | this
    · exact others c earlier
    · rw [List.mem_singleton.mp this]
      intro same
      exact absurd below (same ▸ Nat.lt_irrefl _)

namespace Setting

/-- A setting that nothing has set. -/
def unset (standard : α) : Setting α := ⟨standard, none⟩

/-- How much the source counts that set the value last; it counts less than
    any source if there was none. -/
def level (s : Setting α) : Nat :=
  s.source.elim 0 fun p => p.rank + 1

variable [DecidableEq α]

/-- The setting after an attempt, which changes nothing if it fails. -/
def attempt (s : Setting α) (a : Attempt α) : Setting α :=
  (s.trySet a.value a.priority).getD s

/-- The setting after several attempts. -/
def attemptAll (s : Setting α) (attempts : List (Attempt α)) : Setting α :=
  attempts.foldl attempt s

theorem attemptAll_concat (s : Setting α) (attempts : List (Attempt α))
    (a : Attempt α) :
    s.attemptAll (attempts ++ [a]) = (s.attemptAll attempts).attempt a := by
  rw [attemptAll, List.foldl_append]
  rfl

/-! ## One attempt -/

/-- A lower source changes nothing, whether it fails or agrees. -/
theorem attempt_of_outranks {s : Setting α} {a : Attempt α}
    (h : s.outranks a.priority = true) : s.attempt a = s := by
  rw [attempt, trySet_of_outranks a.value h]
  split
  case isTrue => rfl
  case isFalse => rfl

/-- Any other source sets the value. -/
theorem attempt_of_not_outranks {s : Setting α} {a : Attempt α}
    (h : ¬ s.outranks a.priority = true) :
    s.attempt a = ⟨a.value, some a.priority⟩ := by
  rw [attempt, trySet_of_not_outranks a.value h]
  rfl

/-- The source that is recorded never gives way to a lower one. -/
theorem level_le_attempt (s : Setting α) (a : Attempt α) :
    s.level ≤ (s.attempt a).level := by
  by_cases outranked : s.outranks a.priority = true
  · rw [attempt_of_outranks outranked]
  · rw [attempt_of_not_outranks outranked, level]
    cases recorded : s.source with
    | none => exact Nat.zero_le _
    | some incumbent =>
        refine Nat.succ_le_succ (Nat.le_of_not_lt fun below => outranked ?_)
        exact (s.outranks_iff a.priority).mpr ⟨incumbent, recorded, below⟩

theorem level_le_attemptAll (s : Setting α) (attempts : List (Attempt α)) :
    s.level ≤ (s.attemptAll attempts).level := by
  induction attempts generalizing s with
  | nil => exact Nat.le_refl _
  | cons a attempts ih => exact (level_le_attempt s a).trans (ih (s.attempt a))

/-! ## Several attempts -/

/-- A setting is as the decisive one of some attempts left it, and unset if
    there were none. -/
def IsSettled (standard : α) (attempts : List (Attempt α))
    (s : Setting α) : Prop :=
  (attempts = [] ∧ s = unset standard)
    ∨ ∃ a, IsDecisive attempts a ∧ s = ⟨a.value, some a.priority⟩

/-- One more attempt. -/
theorem IsSettled.attempt {standard : α} {attempts : List (Attempt α)}
    {s : Setting α} (h : IsSettled standard attempts s) (b : Attempt α) :
    IsSettled standard (attempts ++ [b]) (s.attempt b) := by
  rcases h with ⟨rfl, rfl⟩ | ⟨a, decides, rfl⟩
  · refine .inr ⟨b, ⟨?_, [], [], rfl, ?_⟩, ?_⟩
    · intro c hc
      rw [List.mem_singleton.mp hc]
    · exact fun _ none => absurd none List.not_mem_nil
    · exact attempt_of_not_outranks Bool.false_ne_true
  · by_cases below : b.priority.rank < a.priority.rank
    · refine .inr ⟨a, decides.kept below, attempt_of_outranks ?_⟩
      exact (outranks_iff _ _).mpr ⟨a.priority, rfl, below⟩
    · refine .inr ⟨b, decides.replaced (Nat.le_of_not_lt below),
        attempt_of_not_outranks fun outranked => ?_⟩
      obtain ⟨_, recorded, lower⟩ := (outranks_iff _ _).mp outranked
      cases recorded
      exact below lower

theorem isSettled_attemptAll (standard : α) (attempts : List (Attempt α)) :
    IsSettled standard attempts ((unset standard).attemptAll attempts) := by
  induction attempts using List.reverseRecOn with
  | nil => exact .inl ⟨rfl, rfl⟩
  | append_singleton attempts a ih =>
      rw [attemptAll_concat]
      exact ih.attempt a

/-- **What a run of attempts comes to.**  A setting that nothing has set is,
    after any attempts, as the last one by the highest source left it, and
    still unset if there were none.  On the way the recorded source never
    gives way to a lower one.  An attempt fails exactly if it is by a lower
    source than the recorded one and of another value; by a lower source, it
    changes nothing also if it succeeds. -/
theorem attemptAll_outcome (standard : α) (attempts : List (Attempt α)) :
    IsSettled standard attempts ((unset standard).attemptAll attempts)
      ∧ (∀ before after, attempts = before ++ after →
        ((unset standard).attemptAll before).level
          ≤ ((unset standard).attemptAll attempts).level)
      ∧ ∀ before a after, attempts = before ++ a :: after →
        let s := (unset standard).attemptAll before
        (s.trySet a.value a.priority = none
            ↔ ∃ incumbent, s.source = some incumbent
              ∧ a.priority.rank < incumbent.rank ∧ a.value ≠ s.value)
          ∧ ∀ incumbent, s.source = some incumbent →
            a.priority.rank < incumbent.rank → s.attempt a = s := by
  refine ⟨isSettled_attemptAll standard attempts, ?_, ?_⟩
  · rintro before after rfl
    rw [attemptAll, attemptAll, List.foldl_append]
    exact level_le_attemptAll _ after
  · intro before a after _ s
    constructor
    · rw [trySet_eq_none_iff]
      constructor
      · rintro ⟨incumbent, refuses⟩
        exact ⟨incumbent, refuses.source, refuses.below, refuses.differs⟩
      · rintro ⟨incumbent, source, below, differs⟩
        exact ⟨incumbent, source, below, differs⟩
    · intro incumbent source below
      exact attempt_of_outranks
        ((outranks_iff s a.priority).mpr ⟨incumbent, source, below⟩)

/-- A weaker source that agrees does not lower the rank, and one that does
    not agree fails. -/
example :
    (unset 1).attemptAll [⟨5, .project⟩, ⟨3, .commandLine⟩, ⟨3, .target⟩,
      ⟨4, .positional⟩] = ⟨3, some .commandLine⟩ := by
  decide

end Setting

end Handheld
