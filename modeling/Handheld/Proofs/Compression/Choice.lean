import Handheld.Proofs.Compression.Execution

/-! # Choice — the code that is chosen for a piece

    Whatever the effort, the code for a piece stands for the bytes of the
    piece and can be written:

    • each way of choosing an instruction gives one whose content is the
      beginning of the input (`choose?_fits`);
    • `codeFrom` keeps that the code so far, the pending bytes and the input
      are the piece (`contentOf_codeFrom`), and that the pending bytes fit
      into one literal (`isStep_of_mem_codeFrom`). -/

namespace Handheld.Compression

open Instruction

/-! ## Instructions for the beginning of an input -/

/-- An instruction that may stand for the beginning of an input. -/
structure Instruction.Fits (i : Instruction) (input : Bytes) : Prop where
  step : i.IsStep
  begins : i.content <+: input
  pos : 0 < i.outputLength

theorem matchingTrap?_begins {input : Bytes} {p : Pattern}
    (h : Pattern.matchingTrap? input = some p) : p.expansion <+: input := by
  unfold Pattern.matchingTrap? at h
  split at h
  · next a b c d rest =>
      split at h
      · next zero =>
          cases h
          rw [zero]
          exact ⟨rest, rfl⟩
      · cases h
        exact ⟨rest, rfl⟩
  · cases h

theorem matchingWord?_begins {input : Bytes} {p : Pattern}
    (h : Pattern.matchingWord? input = some p) : p.expansion <+: input := by
  unfold Pattern.matchingWord? at h
  split at h
  · next rest =>
      cases h
      exact ⟨rest, rfl⟩
  · next rest =>
      split at h
      · cases h
      · cases h
        exact ⟨rest, rfl⟩
  · cases h

/-- A pattern that is found stands for the beginning of the input. -/
theorem matching?_begins {input : Bytes} {p : Pattern}
    (h : Pattern.matching? input = some p) : p.expansion <+: input := by
  rcases Option.or_eq_some_iff.mp h with trap | ⟨-, word⟩
  · exact matchingTrap?_begins trap
  · exact matchingWord?_begins word

/-- The run at the beginning of an input. -/
theorem replicate_runLength_begins (b : UInt8) (bytes : Bytes) :
    List.replicate (runLength (b :: bytes)) b <+: b :: bytes := by
  have all := List.all_eq_true.mp
    (List.all_takeWhile (p := (· == b)) (l := bytes))
  have same : bytes.takeWhile (· == b)
      = List.replicate (bytes.takeWhile (· == b)).length b :=
    List.eq_replicate_iff.mpr ⟨rfl, fun c hc => eq_of_beq (all c hc)⟩
  rw [runLength, List.replicate_succ, ← same]
  exact (List.prefix_cons_inj b).mpr (List.takeWhile_prefix _)

/-- Less of a run than there is begins the input too. -/
theorem replicate_begins {b : UInt8} {bytes input : Bytes} {count : Nat}
    (window : b :: bytes <+: input) (h : count ≤ runLength (b :: bytes)) :
    List.replicate count b <+: input := by
  have part : List.replicate count b
      <+: List.replicate (runLength (b :: bytes)) b :=
    List.prefix_replicate_iff.mpr ⟨by simpa using h, by simp⟩
  exact (part.trans (replicate_runLength_begins b bytes)).trans window

/-- A run that is found stands for the beginning of the input. -/
theorem runInstruction?_fits {input : Bytes} {i : Instruction}
    (h : runInstruction? input = some i) : i.Fits input := by
  unfold runInstruction? at h
  split at h
  · cases h
  · next b bytes window =>
      have begins : b :: bytes <+: input := window ▸ List.take_prefix _ _
      dsimp only at h
      split at h
      · next zeros =>
          cases h
          obtain ⟨rfl, two⟩ := zeros
          have pos : 1 ≤ min (runLength (0x00 :: bytes)) maxSkip :=
            Nat.le_min.mpr ⟨by omega, by decide⟩
          exact
            { step := ⟨⟨pos, Nat.min_le_right _ _⟩, nofun⟩
              begins := replicate_begins begins (Nat.min_le_left _ _)
              pos := pos }
      · split at h
        · next ones =>
            cases h
            obtain ⟨rfl, two⟩ := ones
            have pos : 1 ≤ min (runLength (0xFF :: bytes)) maxFillOnes :=
              Nat.le_min.mpr ⟨by omega, by decide⟩
            exact
              { step := ⟨⟨pos, Nat.min_le_right _ _⟩, nofun⟩
                begins := replicate_begins begins (Nat.min_le_left _ _)
                pos := pos }
        · split at h
          · next three =>
              cases h
              have two : minFill ≤ min (runLength (b :: bytes)) maxFill :=
                Nat.le_min.mpr ⟨Nat.le_of_succ_le three, by decide⟩
              exact
                { step := ⟨⟨two, Nat.min_le_right _ _⟩, nofun⟩
                  begins := replicate_begins begins (Nat.min_le_left _ _)
                  pos := Nat.lt_of_lt_of_le (by decide) two }
          · cases h

/-- Whatever is chosen stands for the beginning of the input. -/
theorem choose?_fits {effort : Effort} {input : Bytes} {i : Instruction}
    (h : choose? effort input = some i) : i.Fits input := by
  unfold choose? at h
  split at h
  · split at h
    · next shape found =>
        cases h
        split at found
        · exact
            { step := ⟨trivial, nofun⟩
              begins := matching?_begins found
              pos := by cases shape <;> exact Nat.zero_lt_succ _ }
        · cases found
    · exact runInstruction?_fits h
  · cases h

/-- What a chosen instruction stands for, and what is left of the input,
    are the input. -/
theorem Instruction.Fits.content_append {i : Instruction} {b : UInt8}
    {rest : Bytes} (fits : i.Fits (b :: rest)) :
    i.content ++ rest.drop (i.outputLength - 1) = b :: rest := by
  obtain ⟨after, e⟩ := fits.begins
  have left : (b :: rest).drop i.outputLength = after := by
    rw [← e, ← i.length_content, List.drop_left]
  obtain ⟨n, hn⟩ := Nat.exists_eq_add_one.mpr fits.pos
  rw [hn, List.drop_succ_cons] at left
  rw [hn, Nat.add_sub_cancel, left, e]

/-! ## The code for a piece -/

theorem contentOf_append (code more : List Instruction) :
    contentOf (code ++ more) = contentOf code ++ contentOf more :=
  List.flatMap_append

theorem contentOf_reverse_cons (i : Instruction) (code : List Instruction) :
    contentOf (i :: code).reverse = contentOf code.reverse ++ i.content := by
  rw [List.reverse_cons, contentOf_append]
  simp [contentOf]

/-- Pending bytes become content. -/
theorem contentOf_flush (pending : Bytes) (code : List Instruction) :
    contentOf (flush pending code).reverse
      = contentOf code.reverse ++ pending.reverse := by
  cases pending with
  | nil => simp [flush]
  | cons b pending => exact contentOf_reverse_cons _ code

/-- Few enough pending bytes become one literal. -/
theorem isStep_of_mem_flush {pending : Bytes} {code : List Instruction}
    (few : pending.length ≤ maxLiteral) (steps : ∀ i ∈ code, i.IsStep) :
    ∀ i ∈ flush pending code, i.IsStep := by
  cases pending with
  | nil => exact steps
  | cons b pending =>
      intro i hi
      rcases List.mem_cons.mp hi with rfl | old
      · refine ⟨⟨?_, ?_⟩, nofun⟩
        · simp
        · simpa using few
      · exact steps i old

/-- The code so far, the pending bytes and the input stay the same bytes. -/
theorem contentOf_codeFrom (effort : Effort) (pending : Bytes)
    (code : List Instruction) (input : Bytes) :
    contentOf (codeFrom effort pending code input).reverse
      = contentOf code.reverse ++ pending.reverse ++ input := by
  -- what is chosen moves from the input to the code, and a byte for which
  -- nothing is chosen moves to the pending ones
  fun_induction codeFrom effort pending code input with
  | case1 pending code => simp [contentOf_flush]
  | case2 pending code b rest i chosen ih =>
      rw [ih, contentOf_reverse_cons, contentOf_flush, List.reverse_nil,
        List.append_nil, List.append_assoc,
        (choose?_fits chosen).content_append]
  | case3 pending code b rest chosen full ih =>
      rw [ih, contentOf_flush]
      simp
  | case4 pending code b rest chosen room ih =>
      rw [ih]
      simp

/-- All code consists of steps, as long as fewer bytes are pending than one
    literal takes. -/
theorem isStep_of_mem_codeFrom {effort : Effort} {pending : Bytes}
    {code : List Instruction} {input : Bytes}
    (few : pending.length < maxLiteral) (steps : ∀ i ∈ code, i.IsStep) :
    ∀ i ∈ codeFrom effort pending code input, i.IsStep := by
  fun_induction codeFrom effort pending code input with
  | case1 pending code => exact isStep_of_mem_flush (by omega) steps
  | case2 pending code b rest i chosen ih =>
      refine ih (by decide) (fun j hj => ?_)
      rcases List.mem_cons.mp hj with rfl | old
      · exact (choose?_fits chosen).step
      · exact isStep_of_mem_flush (by omega) steps j old
  | case3 pending code b rest chosen full ih =>
      -- the literal is full, and nothing is pending after it
      exact ih (by decide)
        (isStep_of_mem_flush (by rw [List.length_cons]; omega) steps)
  | case4 pending code b rest chosen room ih =>
      exact ih (by rw [List.length_cons]; omega) steps

/-- The code for a piece stands for the piece. -/
theorem contentOf_codeFor (effort : Effort) (piece : Bytes) :
    contentOf (codeFor effort piece) = piece := by
  rw [codeFor, contentOf_codeFrom]
  rfl

theorem isStep_of_mem_codeFor {effort : Effort} {piece : Bytes} :
    ∀ i ∈ codeFor effort piece, i.IsStep := by
  intro i hi
  refine isStep_of_mem_codeFrom (by decide) (fun j hj => ?_) i
    (List.mem_reverse.mp hi)
  cases hj

end Handheld.Compression
