import Handheld.Proofs.Compression.Choice

/-! # Matching — the tightest pattern for the beginning of an input

    The search for a pattern tests bytes at positions; what patterns stand for
    is laid out elsewhere, with fixed and variable bytes that overlap: each
    short trap is a long one too.

    • `Pattern.tightened` is the pattern that is found for what a pattern
      stands for, if one is;
    • `matching?_of_begins`: it is what the search finds in any input that
      begins with this, so that all patterns that begin one input are
      tightened to the same one;
    • `choose?_onesRun`: the one kind of input for which no pattern is found
      although one begins it is left to a run;
    • `matching_outcome` puts this together. -/

namespace Handheld.Compression

open Instruction

namespace Pattern

/-! ## The form that is found -/

/-- The pattern that is found for what a pattern stands for.  A word after
    which `FF` is repeated is left to a run. -/
def tightened : Pattern → Option Pattern
  | .onesWord a b => if a = 0xFF then none else some (.onesWord a b)
  | .zeroOnesWord a b => some (.zeroOnesWord a b)
  | .shortTrap a b c => some (.shortTrap a b c)
  | .longTrap a b c d =>
      if a = 0x00 then some (.shortTrap b c d) else some (.longTrap a b c d)

/-- Whatever follows it, what a pattern stands for is recognized. -/
theorem matching?_expansion_append (p : Pattern) (rest : Bytes) :
    matching? (p.expansion ++ rest) = p.tightened := by
  cases p with
  | onesWord a b => rfl
  | zeroOnesWord a b => rfl
  | shortTrap a b c => rfl
  | longTrap a b c d =>
      rw [tightened, matching?, expansion]
      simp only [List.cons_append, matchingTrap?]
      split <;> rfl

/-- The search finds the tightened form of any pattern that begins the
    input. -/
theorem matching?_of_begins {p : Pattern} {input : Bytes}
    (begins : p.expansion <+: input) : matching? input = p.tightened := by
  obtain ⟨rest, rfl⟩ := begins
  exact matching?_expansion_append p rest

/-- A tightened pattern that is another one takes fewer bytes. -/
theorem length_encode_tightened {p q : Pattern}
    (h : q.tightened = some p) (other : q ≠ p) :
    (Instruction.pattern p).encode.length
      < (Instruction.pattern q).encode.length := by
  cases q with
  | onesWord a b =>
      rw [tightened] at h
      split at h
      · cases h
      · exact absurd (Option.some.inj h) other
  | zeroOnesWord a b => exact absurd (Option.some.inj h) other
  | shortTrap a b c => exact absurd (Option.some.inj h) other
  | longTrap a b c d =>
      rw [tightened] at h
      split at h
      · cases h
        exact Nat.lt_succ_self _
      · exact absurd (Option.some.inj h) other

/-! ## Runs of `FF` -/

/-- What an input begins with that is left to a run of `FF`s. -/
def onesRun : Bytes := [0xFF, 0xFF, 0xFF]

/-- Only patterns that begin such an input have no tightened form. -/
theorem tightened_eq_none_iff {p : Pattern} {input : Bytes}
    (begins : p.expansion <+: input) :
    p.tightened = none ↔ onesRun <+: input := by
  obtain ⟨rest, rfl⟩ := begins
  cases p with
  | onesWord a b =>
      have third : onesRun <+: (onesWord a b).expansion ++ rest ↔ a = 0xFF := by
        simp [onesRun, expansion, List.cons_prefix_cons, eq_comm]
      rw [third, tightened]
      split
      · next ones => exact iff_of_true rfl ones
      · next other => exact iff_of_false (Option.some_ne_none _) other
  | zeroOnesWord a b =>
      have apart : ¬ onesRun <+: (zeroOnesWord a b).expansion ++ rest := by
        simp [onesRun, expansion, List.cons_prefix_cons]
      exact iff_of_false (Option.some_ne_none _) apart
  | shortTrap a b c =>
      have apart : ¬ onesRun <+: (shortTrap a b c).expansion ++ rest := by
        simp [onesRun, expansion, List.cons_prefix_cons]
      exact iff_of_false (Option.some_ne_none _) apart
  | longTrap a b c d =>
      have apart : ¬ onesRun <+: (longTrap a b c d).expansion ++ rest := by
        simp [onesRun, expansion, List.cons_prefix_cons]
      have found : (longTrap a b c d).tightened ≠ none := by
        rw [tightened]
        split <;> exact Option.some_ne_none _
      exact iff_of_false found apart

/-- No pattern is found in an input that is left to a run. -/
theorem matching?_onesRun {input : Bytes} (ones : onesRun <+: input) :
    matching? input = none := by
  cases found : matching? input with
  | none => rfl
  | some p =>
      have begins := matching?_begins found
      rw [matching?_of_begins begins, (tightened_eq_none_iff begins).mpr ones]
        at found
      cases found

end Pattern

/-- A run of three `FF`s at least is chosen instead. -/
theorem choose?_onesRun {effort : Effort} (runs : effort.usesRuns = true)
    {input : Bytes} (ones : Pattern.onesRun <+: input) :
    ∃ count, 3 ≤ count ∧ choose? effort input = some (.fillOnes count) := by
  have noPattern : (if effort.usesPatterns then Pattern.matching? input
      else none) = none := by
    rw [Pattern.matching?_onesRun ones, ite_self]
  rw [choose?, if_pos runs, noPattern]
  obtain ⟨rest, rfl⟩ := ones
  -- no more of the input is looked at than one instruction takes
  have window : (Pattern.onesRun ++ rest).take maxSkip
      = 0xFF :: 0xFF :: 0xFF :: rest.take 61 := rfl
  have three : 3 ≤ runLength (0xFF :: 0xFF :: 0xFF :: rest.take 61) := by
    simp [runLength]
  have noZeros : ¬ ((0xFF : UInt8) = 0x00
      ∧ 2 ≤ runLength (0xFF :: 0xFF :: 0xFF :: rest.take 61)) :=
    fun zeros => absurd zeros.1 (by decide)
  refine ⟨_, Nat.le_min.mpr ⟨three, (by decide : 3 ≤ maxFillOnes)⟩, ?_⟩
  dsimp only
  rw [runInstruction?, window]
  dsimp only
  rw [if_neg noZeros, if_pos ⟨rfl, Nat.le_of_succ_le three⟩]

namespace Pattern

/-! ## The outcome -/

/-- The pattern stands for the beginning of the input, in as many bytes as it
    accounts for, and every other pattern that begins the input is stored in
    more bytes. -/
structure IsTightest (p : Pattern) (input : Bytes) : Prop where
  begins : p.expansion <+: input
  length_eq : p.expansion.length = p.outputLength
  shortest : ∀ q : Pattern, q.expansion <+: input → q ≠ p →
    (Instruction.pattern p).encode.length
      < (Instruction.pattern q).encode.length

/-- What is found is the tightest. -/
theorem isTightest_of_matching? {p : Pattern} {input : Bytes}
    (found : matching? input = some p) : p.IsTightest input where
  begins := matching?_begins found
  length_eq := p.length_expansion
  shortest _ begins other :=
    length_encode_tightened ((matching?_of_begins begins).symm.trans found)
      other

/-- **Which pattern is found in an input.**  One is found just if some pattern
    begins the input, unless the input begins with three `FF`s; it is the one
    that is stored in the fewest bytes.  Three `FF`s are left to a run, if runs
    are used at all. -/
theorem matching_outcome (input : Bytes) :
    ((matching? input).isSome
        ↔ (∃ p : Pattern, p.expansion <+: input) ∧ ¬ onesRun <+: input)
      ∧ (∀ p, matching? input = some p → p.IsTightest input)
      ∧ (onesRun <+: input → ∀ effort : Effort, effort.usesRuns = true →
        ∃ count, 3 ≤ count
          ∧ choose? effort input = some (.fillOnes count)) := by
  refine ⟨⟨?_, ?_⟩, fun p => isTightest_of_matching?,
    fun ones effort runs => choose?_onesRun runs ones⟩
  · intro some
    obtain ⟨p, found⟩ := Option.isSome_iff_exists.mp some
    refine ⟨⟨p, matching?_begins found⟩, fun ones => ?_⟩
    rw [matching?_onesRun ones] at found
    cases found
  · rintro ⟨⟨p, begins⟩, noRun⟩
    rw [matching?_of_begins begins, Option.isSome_iff_ne_none]
    exact mt (tightened_eq_none_iff begins).mp noRun

/-- A trap of either length is stored as a short one, if it can be. -/
example : matching? (longTrap 0x00 1 2 3).expansion = some (.shortTrap 1 2 3) :=
  rfl

end Pattern

end Handheld.Compression
