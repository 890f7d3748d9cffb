import Handheld.Proofs.Compression.RoundTrip

/-! # Length — what compressing costs at most

    A literal costs one tag for up to 128 bytes.  An instruction that is
    chosen instead of a literal cuts the pending one off, after which a
    further tag may be needed, and a run that is left out does the same.  Each
    of them saves at least the byte of that tag:

    • `literalLength` is the length of the literals for a number of bytes, and
      `literalLength_replaced_le` says that putting something shorter into
      their midst never makes them longer;
    • `choose?_saves` is what a chosen instruction saves;
    • `codeLength_codeFrom_le` follows the choice of the code, and
      `literalLengths_pieces_le` the choice of the pieces;
    • `length_compress_le` is the statement on compressed data. -/

namespace Handheld.Compression

open Instruction

/-! ## Literals -/

/-- The number of bytes that the literals for `count` bytes take: the bytes,
    and a tag for each literal. -/
def literalLength (count : Nat) : Nat :=
  count + (count + (maxLiteral - 1)) / maxLiteral

theorem literalLength_eq (count : Nat) :
    literalLength count = count + (count + 127) / 128 := rfl

/-- Fewer bytes in the place of some of those that literals stand for do not
    make the whole longer: the literals before and after them may need one
    more tag, and no more than that. -/
theorem literalLength_replaced_le {cost count : Nat} (saves : cost < count)
    (before after : Nat) :
    literalLength before + cost + literalLength after
      ≤ literalLength (before + count + after) := by
  simp only [literalLength_eq]
  omega

/-- A full literal in front adds its bytes and its tag. -/
theorem literalLength_full (count : Nat) :
    literalLength (maxLiteral + count)
      = literalLength maxLiteral + literalLength count := by
  simp only [literalLength_eq, maxLiteral]
  omega

/-! ## Instructions -/

/-- The number of bytes of code. -/
def codeLength (code : List Instruction) : Nat :=
  (code.map fun i => i.encode.length).sum

theorem codeLength_nil : codeLength [] = 0 := rfl

theorem codeLength_cons (i : Instruction) (code : List Instruction) :
    codeLength (i :: code) = i.encode.length + codeLength code := rfl

theorem codeLength_reverse (code : List Instruction) :
    codeLength code.reverse = codeLength code := by
  rw [codeLength, List.map_reverse, List.sum_reverse, codeLength]

theorem length_flatMap_encode (code : List Instruction) :
    (code.flatMap Instruction.encode).length = codeLength code :=
  List.length_flatMap

/-- A run that is found saves a byte. -/
theorem runInstruction?_saves {input : Bytes} {i : Instruction}
    (h : runInstruction? input = some i) :
    i.encode.length < i.outputLength := by
  unfold runInstruction? at h
  split at h
  · cases h
  · next b bytes window =>
      dsimp only at h
      split at h
      · next zeros =>
          cases h
          exact Nat.lt_min.mpr ⟨zeros.2, (by decide : 1 < maxSkip)⟩
      · split at h
        · next ones =>
            cases h
            exact Nat.lt_min.mpr ⟨ones.2, (by decide : 1 < maxFillOnes)⟩
        · split at h
          · next three =>
              cases h
              exact Nat.lt_min.mpr ⟨three, (by decide : 2 < maxFill)⟩
          · cases h

/-- A pattern saves a byte. -/
theorem pattern_saves (shape : Pattern) :
    (pattern shape).encode.length < (pattern shape).outputLength := by
  cases shape with
  | onesWord a b => exact Nat.lt_succ_self 3
  | zeroOnesWord a b => exact (by decide : 3 < 6)
  | shortTrap a b c => exact (by decide : 4 < 8)
  | longTrap a b c d => exact (by decide : 5 < 8)

/-- Whatever is chosen saves a byte. -/
theorem choose?_saves {effort : Effort} {input : Bytes} {i : Instruction}
    (h : choose? effort input = some i) :
    i.encode.length < i.outputLength := by
  unfold choose? at h
  split at h
  · split at h
    · cases h
      exact pattern_saves _
    · exact runInstruction?_saves h
  · cases h

/-! ## The code for a piece -/

/-- Pending bytes that fit into one literal take what literals take. -/
theorem codeLength_flush {pending : Bytes} (few : pending.length ≤ maxLiteral)
    (code : List Instruction) :
    codeLength (flush pending code)
      = literalLength pending.length + codeLength code := by
  cases pending with
  | nil => exact (Nat.zero_add _).symm
  | cons b pending =>
      have tag : (literal (b :: pending).reverse).encode.length
          = literalLength (b :: pending).length := by
        rw [encode, List.length_cons, List.length_reverse, literalLength_eq]
        rw [maxLiteral, List.length_cons] at few
        rw [List.length_cons]
        omega
      rw [flush, codeLength_cons, tag]

/-- A full literal with the byte that completes it takes what literals take
    for its bytes. -/
theorem codeLength_flush_full {b : UInt8} {pending : Bytes}
    (full : pending.length + 1 = maxLiteral) (code : List Instruction)
    (rest : Bytes) :
    codeLength (flush (b :: pending) code) + literalLength rest.length
      = codeLength code + literalLength (pending.length + (b :: rest).length) := by
  have whole : (b :: pending).length = maxLiteral := full
  have moved : pending.length + (b :: rest).length
      = maxLiteral + rest.length := by
    rw [List.length_cons, ← full]
    omega
  rw [codeLength_flush (Nat.le_of_eq whole), whole, moved,
    literalLength_full]
  omega

/-- The code so far becomes longer by no more than literals for the pending
    bytes and the input. -/
theorem codeLength_codeFrom_le (effort : Effort) {pending : Bytes}
    (code : List Instruction) (input : Bytes)
    (few : pending.length < maxLiteral) :
    codeLength (codeFrom effort pending code input)
      ≤ codeLength code + literalLength (pending.length + input.length) := by
  fun_induction codeFrom effort pending code input with
  | case1 pending code =>
      rw [codeLength_flush (Nat.le_of_lt few), Nat.add_comm]
      exact Nat.le_refl _
  | case2 pending code b rest i chosen ih =>
      -- the instruction takes the place of the bytes that it stands for
      have later := ih (by decide)
      have replaced := literalLength_replaced_le (choose?_saves chosen)
        pending.length (rest.drop (i.outputLength - 1)).length
      have bytes : i.outputLength + (rest.drop (i.outputLength - 1)).length
          = (b :: rest).length := by
        rw [← (choose?_fits chosen).content_append, List.length_append,
          length_content]
      rw [codeLength_cons, codeLength_flush (Nat.le_of_lt few),
        List.length_nil, Nat.zero_add] at later
      rw [Nat.add_assoc pending.length, bytes] at replaced
      omega
  | case3 pending code b rest none full ih =>
      have later := ih (by decide)
      rwa [List.length_nil, Nat.zero_add, codeLength_flush_full full] at later
  | case4 pending code b rest none room ih =>
      have later := ih (Nat.lt_of_le_of_ne few room)
      rwa [List.length_cons, Nat.add_right_comm] at later

/-- Without runs and patterns, the code becomes longer by just the literals
    for the pending bytes and the input. -/
theorem codeLength_codeFrom_literals {effort : Effort}
    (plain : effort.usesRuns = false) {pending : Bytes}
    (code : List Instruction) (input : Bytes)
    (few : pending.length < maxLiteral) :
    codeLength (codeFrom effort pending code input)
      = codeLength code + literalLength (pending.length + input.length) := by
  fun_induction codeFrom effort pending code input with
  | case1 pending code =>
      rw [codeLength_flush (Nat.le_of_lt few), Nat.add_comm]
      rfl
  | case2 pending code b rest i chosen ih =>
      rw [choose?, plain] at chosen
      cases chosen
  | case3 pending code b rest none full ih =>
      have later := ih (by decide)
      rwa [List.length_nil, Nat.zero_add, codeLength_flush_full full] at later
  | case4 pending code b rest none room ih =>
      have later := ih (Nat.lt_of_le_of_ne few room)
      rwa [List.length_cons, Nat.add_right_comm] at later

theorem codeLength_codeFor_le (effort : Effort) (piece : Bytes) :
    codeLength (codeFor effort piece) ≤ literalLength piece.length := by
  have few : ([] : Bytes).length < maxLiteral := by decide
  have le := codeLength_codeFrom_le effort [] piece few
  rw [codeFor, codeLength_reverse]
  rwa [List.length_nil, Nat.zero_add, codeLength_nil, Nat.zero_add] at le

theorem codeLength_codeFor_literals {effort : Effort}
    (plain : effort.usesRuns = false) (piece : Bytes) :
    codeLength (codeFor effort piece) = literalLength piece.length := by
  have few : ([] : Bytes).length < maxLiteral := by decide
  have eq := codeLength_codeFrom_literals plain [] piece few
  rw [codeFor, codeLength_reverse]
  rwa [List.length_nil, Nat.zero_add, codeLength_nil, Nat.zero_add] at eq

/-! ## The pieces of an image -/

/-- What literals take for spans of an image. -/
def literalLengths (image : Bytes) (spans : List Span) : Nat :=
  (spans.map fun s => literalLength (s.cut image).length).sum

theorem literalLengths_nil (image : Bytes) : literalLengths image [] = 0 := rfl

theorem literalLengths_cons (image : Bytes) (s : Span) (spans : List Span) :
    literalLengths image (s :: spans)
      = literalLength (s.cut image).length + literalLengths image spans := rfl

/-- The empty span at the end takes nothing. -/
theorem literalLength_cut_atEnd (image : Bytes) :
    literalLength ((Span.mk image.length image.length).cut image).length
      = 0 := by
  rw [length_cut (Nat.le_refl _), Nat.sub_self]
  rfl

/-- The span over the whole image takes what literals take for the image. -/
theorem literalLength_cut_whole (image : Bytes) :
    literalLength ((Span.mk 0 image.length).cut image).length
      = literalLength image.length := by
  rw [length_cut (Nat.le_refl _), Nat.sub_zero]

/-- The spans before and after a run that is left out take no more than the
    span over all three. -/
theorem literalLength_cut_around_le {image : Bytes} {start stop : Nat}
    {r : Span} (run : r.IsRun image) (before : start ≤ r.start)
    (after : r.stop ≤ stop) (inside : stop ≤ image.length) :
    literalLength ((Span.mk start r.start).cut image).length
        + literalLength ((Span.mk r.stop stop).cut image).length
      ≤ literalLength ((Span.mk start stop).cut image).length := by
  have nonempty := run.nonempty
  have replaced := literalLength_replaced_le (Nat.sub_pos_of_lt nonempty)
    (r.start - start) (stop - r.stop)
  have whole : r.start - start + (r.stop - r.start) + (stop - r.stop)
      = stop - start := by omega
  rw [whole, Nat.add_zero] at replaced
  rw [length_cut (s := ⟨start, r.start⟩)
      (Nat.le_trans (Nat.le_of_lt nonempty) run.inside),
    length_cut (s := ⟨r.stop, stop⟩) inside,
    length_cut (s := ⟨start, stop⟩) inside]
  exact replaced

/-- The spans around at most two runs take no more than the whole image. -/
theorem literalLengths_spansAround_le {image : Bytes} {runs : List Span}
    (few : runs.length ≤ 2) (isRun : ∀ r ∈ runs, r.IsRun image)
    (ordered : runs.Pairwise fun r s => r.stop ≤ s.start) :
    literalLengths image (spansAround image.length runs)
      ≤ literalLength image.length := by
  have whole := literalLength_cut_whole image
  have atEnd := literalLength_cut_atEnd image
  rcases runs with _ | ⟨r, _ | ⟨s, _ | ⟨t, runs⟩⟩⟩
  · simp only [spansAround, literalLengths_cons, literalLengths_nil, whole,
      atEnd]
    exact Nat.le_refl _
  · have run := isRun r (by simp)
    have around := literalLength_cut_around_le run (Nat.zero_le _) run.inside
      (Nat.le_refl _)
    simp only [spansAround, literalLengths_cons, literalLengths_nil, atEnd]
    omega
  · have first := isRun r (by simp)
    have second := isRun s (by simp)
    have before : r.stop ≤ s.start := by simpa using ordered
    -- the first run is left out of what precedes the second one
    have front := literalLength_cut_around_le first (Nat.zero_le _) before
      (Nat.le_trans (Nat.le_of_lt second.nonempty) second.inside)
    have around := literalLength_cut_around_le second (Nat.zero_le _)
      second.inside (Nat.le_refl _)
    simp only [spansAround, literalLengths_cons, literalLengths_nil]
    omega
  · simp at few

/-- The pieces of an image take no more than the whole of it. -/
theorem literalLengths_pieces_le (splits : Bool) (image : Bytes) :
    literalLengths image (pieces splits image)
      ≤ literalLength image.length := by
  cases splits with
  | false =>
      exact literalLengths_spansAround_le (by simp) (by simp)
        List.Pairwise.nil
  | true =>
      obtain ⟨few, isRun, ordered⟩ := longestTwo_zeroRuns image
      exact literalLengths_spansAround_le few isRun ordered

/-- Without runs to leave out, the pieces take what the image takes. -/
theorem literalLengths_pieces_whole (image : Bytes) :
    literalLengths image (pieces false image)
      = literalLength image.length := by
  have whole := literalLength_cut_whole image
  have atEnd := literalLength_cut_atEnd image
  show literalLengths image (spansAround image.length []) = _
  simp only [spansAround, literalLengths_cons, literalLengths_nil, whole,
    atEnd]
  rfl

/-! ## Compressed data -/

/-- The number of bytes of a pass beside its code: its start, the end mark
    and the byte after it. -/
def passOverhead : Nat := 6

theorem length_encode_pass (pass : Pass) :
    pass.encode.length = passOverhead + codeLength pass.code := by
  simp only [Pass.encode, List.length_append, Bytes.length_bigEndian,
    length_flatMap_encode, passOverhead, encode, List.length_cons,
    List.length_nil]
  omega

/-- The length of the passes for spans. -/
theorem length_encodePasses (effort : Effort) (image : Bytes)
    (spans : List Span) :
    (encodePasses effort image spans []).length
      = passOverhead * spans.length
        + (spans.map fun s => codeLength (codeFor effort (s.cut image))).sum := by
  induction spans with
  | nil => rfl
  | cons s spans ih =>
      rw [encodePasses_cons, List.length_append, ih, length_encode_pass,
        List.map_cons, List.sum_cons, List.length_cons, Nat.mul_succ, passFor]
      dsimp only
      omega

/-- Compressed data have the length of three passes. -/
theorem length_of_compress {image data : Bytes} {effort : Effort}
    (h : compress image effort = .ok data) :
    data.length = 18 + ((pieces effort.splitsOnZeros image).map fun s =>
      codeLength (codeFor effort (s.cut image))).sum := by
  rw [(compress_eq_ok h).1, length_encodePasses, length_pieces]
  rfl

/-- Compressed data are no longer than literals for the image. -/
theorem length_le_of_compress {image data : Bytes} {effort : Effort}
    (h : compress image effort = .ok data) :
    data.length ≤ 18 + literalLength image.length := by
  rw [length_of_compress h]
  refine Nat.add_le_add_left (Nat.le_trans ?_
    (literalLengths_pieces_le effort.splitsOnZeros image)) 18
  exact List.sum_le_sum fun s _ => codeLength_codeFor_le effort _

/-- Without runs, compressed data are literals for the image. -/
theorem length_eq_of_compress {image data : Bytes} {effort : Effort}
    (plain : effort.level = 0) (h : compress image effort = .ok data) :
    data.length = 18 + literalLength image.length := by
  have noRuns : effort.usesRuns = false := by
    rw [Effort.usesRuns, plain]
    rfl
  have noSplit : effort.splitsOnZeros = false := by
    rw [Effort.splitsOnZeros, plain]
    rfl
  rw [length_of_compress h, noSplit, ← literalLengths_pieces_whole image]
  exact congrArg (18 + List.sum ·)
    (List.map_congr_left fun s _ => codeLength_codeFor_literals noRuns _)

/-- **No effort costs more than literals.**  Compressed data are at most as
    long as three passes with literals for all of the image, which take one
    tag for every 128 bytes or part of them, and without any effort they are
    just that long.  So they are never longer than those of the lowest
    level.  Every image whose positions have 32 bits has compressed data. -/
theorem length_compress_le (image : Bytes) :
    (∀ effort, image.length < 2 ^ 32 →
      ∃ data, compress image effort = .ok data)
    ∧ (∀ effort data, compress image effort = .ok data →
      data.length ≤ 18 + image.length + (image.length + 127) / 128)
    ∧ (∀ data, compress image ⟨0⟩ = .ok data →
      data.length = 18 + image.length + (image.length + 127) / 128)
    ∧ ∀ effort data literals, compress image effort = .ok data →
      compress image ⟨0⟩ = .ok literals → data.length ≤ literals.length := by
  have sum : 18 + literalLength image.length
      = 18 + image.length + (image.length + 127) / 128 := by
    rw [literalLength_eq, Nat.add_assoc]
  refine ⟨fun effort small => exists_compress effort small, ?_, ?_, ?_⟩
  · intro effort data compressed
    exact sum ▸ length_le_of_compress compressed
  · intro data compressed
    exact sum ▸ length_eq_of_compress rfl compressed
  · intro effort data literals compressed plain
    rw [length_eq_of_compress rfl plain]
    exact length_le_of_compress compressed

theorem length_compress_le_sample :
    sampleImage.length < 2 ^ 32
      ∧ ∃ data literals, compress sampleImage ⟨4⟩ = .ok data
        ∧ compress sampleImage ⟨0⟩ = .ok literals
        ∧ data.length ≤ 18 + 15 + 1 ∧ literals.length = 18 + 15 + 1
        ∧ data.length ≤ literals.length := by
  have small : sampleImage.length < 2 ^ 32 := by decide
  obtain ⟨total, atMost, exactly, compared⟩ := length_compress_le sampleImage
  obtain ⟨data, compressed⟩ := total ⟨4⟩ small
  obtain ⟨literals, plain⟩ := total ⟨0⟩ small
  exact ⟨small, data, literals, compressed, plain, atMost _ _ compressed,
    exactly _ plain, compared _ _ _ compressed plain⟩

end Handheld.Compression
