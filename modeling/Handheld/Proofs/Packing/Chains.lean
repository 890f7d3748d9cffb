import Mathlib
import Handheld.Packing.DataImage

/-! # Chains — how many of them can be counted

    The chains are counted up in sixteen bits, one for each further section.
    There is a number for each as long as there are not more than `maxExtra`
    of these sections.

    • `foldlM_nextChain`: what is counted from a number on;
    • `exists_countChains`, `countChains_eq_error_iff`: all chains are counted,
      unless there are too many. -/

namespace Handheld

/-- How many chains there are for these further sections. -/
def chainCount (extra : List (Section × Nat)) : Nat :=
  firstExtraChain + extra.length

/-- The most further sections whose chains can be counted. -/
def maxExtra : Nat := 0xFFFF - firstExtraChain

/-- Counting goes on to the sum, or stops where that is too large. -/
theorem foldlM_nextChain (extra : List (Section × Nat)) (count : UInt16) :
    extra.foldlM (fun count _ => nextChain count) count
      = if count.toNat + extra.length ≤ 0xFFFF
        then .ok (UInt16.ofNat (count.toNat + extra.length))
        else .error (.standstill .chainOverflow) := by
  induction extra generalizing count with
  | nil =>
      have small : count.toNat + ([] : List (Section × Nat)).length ≤ 0xFFFF :=
        Nat.le_of_lt_succ count.toNat_lt
      rw [if_pos small]
      exact congrArg Except.ok UInt16.ofNat_toNat.symm
  | cons s extra ih =>
      rw [List.foldlM_cons, nextChain, List.length_cons]
      by_cases last : count = 0xFFFF
      · have full : count.toNat = 0xFFFF := congrArg UInt16.toNat last
        rw [if_pos last, if_neg (by omega)]
        rfl
      · have next : (count + 1).toNat = count.toNat + 1 := by
          have room : count.toNat ≠ 0xFFFF := fun same =>
            last (UInt16.toNat_inj.mp same)
          have small := count.toNat_lt
          have one : (1 : UInt16).toNat = 1 := rfl
          rw [UInt16.toNat_add, one]
          exact Nat.mod_eq_of_lt (by omega)
        rw [if_neg last]
        refine (ih (count + 1)).trans ?_
        rw [next, Nat.add_assoc, Nat.add_comm 1]

/-- The sum is too large exactly if there are too many further sections. -/
theorem chainCount_le_iff {extra : List (Section × Nat)} :
    chainCount extra ≤ 0xFFFF ↔ extra.length ≤ maxExtra := by
  have two : firstExtraChain = 2 := rfl
  have most : maxExtra = 65533 := rfl
  rw [chainCount]
  omega

/-- All chains are counted, if there are not too many further sections. -/
theorem exists_countChains {extra : List (Section × Nat)}
    (few : extra.length ≤ maxExtra) :
    ∃ chains, countChains extra = .ok chains
      ∧ chains.toNat = chainCount extra := by
  have small : chainCount extra ≤ 0xFFFF := chainCount_le_iff.mpr few
  refine ⟨_, (foldlM_nextChain extra _).trans (if_pos small), ?_⟩
  exact UInt16.toNat_ofNat_of_lt (Nat.lt_succ_of_le small)

/-- Only too many of them are not. -/
theorem countChains_eq_error_iff {extra : List (Section × Nat)}
    {e : PackError} :
    countChains extra = .error e
      ↔ maxExtra < extra.length ∧ e = .standstill .chainOverflow := by
  rcases Nat.lt_or_ge maxExtra extra.length with many | few
  · have large : ¬ chainCount extra ≤ 0xFFFF :=
      mt chainCount_le_iff.mp (Nat.not_le_of_lt many)
    have stopped : countChains extra = .error (.standstill .chainOverflow) :=
      (foldlM_nextChain extra _).trans (if_neg large)
    rw [stopped, Except.error.injEq, and_iff_right many, eq_comm]
  · obtain ⟨chains, counted, -⟩ := exists_countChains few
    rw [counted]
    exact iff_of_false nofun fun h => absurd h.1 (Nat.not_lt.mpr few)

/-- What is counted is the number of the chains. -/
theorem countChains_eq_ok {extra : List (Section × Nat)} {chains : UInt16}
    (h : countChains extra = .ok chains) :
    extra.length ≤ maxExtra ∧ chains.toNat = chainCount extra := by
  have few : extra.length ≤ maxExtra := by
    refine Nat.le_of_not_lt fun many => ?_
    cases h.symm.trans (countChains_eq_error_iff.mpr ⟨many, rfl⟩)
  obtain ⟨other, counted, number⟩ := exists_countChains few
  cases h.symm.trans counted
  exact ⟨few, number⟩

/-- Chains that are counted have numbers of sixteen bits. -/
theorem chainCount_lt {extra : List (Section × Nat)}
    (few : extra.length ≤ maxExtra) : chainCount extra < 2 ^ 16 :=
  Nat.lt_succ_of_le (chainCount_le_iff.mpr few)

end Handheld
