import Handheld.Compression.DataResource
import Handheld.Proofs.Compression.Choice
import Handheld.Proofs.Compression.Tiling
import Mathlib

/-! # Round trip — expanding what was compressed

    The passes of an image restore it, into any output that has room for it:

    • one step: if the output holds the image up to a position and zeros
      after it, then the pass for the next span moves the position to the
      end of the span;
    • by induction on the spans, the passes restore the image, or leave an
      output that is too small (`runPasses_tiles`);
    • the statements on compressed data follow. -/

namespace Handheld.Compression

/-! ## One span after the other -/

/-- The output of `size` bytes that holds the image up to a position. -/
def Restored (image : Bytes) (size position : Nat) (output : Array UInt8) :
    Prop :=
  output.toList = image.take position ++ List.replicate (size - position) 0

/-- The pass for a span of an image. -/
def passFor (effort : Effort) (image : Bytes) (s : Span) : Pass :=
  ⟨s.start, codeFor effort (s.cut image)⟩

theorem isSound_passFor {effort : Effort} {image : Bytes} {s : Span}
    (h : s.start < wordLimit) : (passFor effort image s).IsSound where
  start_lt := h
  steps := isStep_of_mem_codeFor

/-- Zeros are restored before anything is written. -/
theorem Restored.skip {image : Bytes} {size position : Nat}
    {output : Array UInt8} {s : Span}
    (restored : Restored image size position output)
    (order : position ≤ s.start) (fits : s.start ≤ size)
    (zero : (Span.mk position s.start).IsZero image) :
    Restored image size s.start output := by
  have gap := Span.take_stop (s := ⟨position, s.start⟩) image order
  have zeros : List.replicate (size - position) (0 : UInt8)
      = List.replicate (s.start - position) 0
        ++ List.replicate (size - s.start) 0 := by
    rw [List.replicate_append_replicate]
    congr 1
    omega
  have cut : (Span.mk position s.start).cut image
      = List.replicate (s.start - position) 0 := zero
  rw [Restored, restored, zeros, gap, cut, List.append_assoc]

theorem Restored.size_eq {image : Bytes} {size position : Nat}
    {output : Array UInt8} (restored : Restored image size position output)
    (inside : position ≤ image.length) (fits : position ≤ size) :
    output.size = size := by
  rw [← Array.length_toList, restored, List.length_append,
    List.length_take, List.length_replicate]
  omega

/-- A span has as many bytes as it says. -/
theorem length_cut {image : Bytes} {s : Span} (inside : s.stop ≤ image.length) :
    (s.cut image).length = s.stop - s.start := by
  rw [Span.cut, Bytes.slice, List.length_take, List.length_drop, Span.length]
  omega

theorem contentOf_passFor (effort : Effort) (image : Bytes) (s : Span) :
    contentOf (passFor effort image s).code = s.cut image :=
  contentOf_codeFor effort (s.cut image)

/-- The pass for a span restores the bytes of the span. -/
theorem runPass_restores (effort : Effort) {image : Bytes} {s : Span}
    {size : Nat} {output : Array UInt8} (total : Nat) (rest : Bytes)
    (restored : Restored image size s.start output)
    (start : s.start < wordLimit) (order : s.start ≤ s.stop)
    (inside : s.stop ≤ image.length) (fits : s.stop ≤ size) :
    ∃ after, runPass total ((passFor effort image s).encode ++ rest) output
        = .ok (rest, after)
      ∧ Restored image size s.stop after := by
  have length := length_cut inside
  have content := contentOf_passFor effort image s
  have before : (passFor effort image s).start
      = (image.take s.start).length := by
    rw [List.length_take, Nat.min_eq_left (Nat.le_trans order inside)]
    rfl
  have room : (contentOf (passFor effort image s).code).length
      ≤ size - s.start := by
    rw [content, length]
    omega
  obtain ⟨after, ran, written⟩ :=
    runPass_on_zeros (isSound_passFor start) total rest restored before room
  have left : size - s.start - (s.stop - s.start) = size - s.stop := by
    omega
  refine ⟨after, ran, ?_⟩
  rw [Restored, written, content, length, left, Span.take_stop image order]

/-- The pass for a span leaves an output that ends before the span does. -/
theorem runPass_passFor_overrun (effort : Effort) {image : Bytes} {s : Span}
    {output : Array UInt8} (total : Nat) (rest : Bytes)
    (start : s.start < wordLimit) (order : s.start ≤ s.stop)
    (inside : s.stop ≤ image.length) (h : output.size < s.stop) :
    ∃ position length,
      runPass total ((passFor effort image s).encode ++ rest) output
        = .error (.outputOverrun position length output.size) := by
  refine runPass_overrun (isSound_passFor start) total rest ?_
  rw [contentOf_passFor, length_cut inside]
  show output.size < s.start + (s.stop - s.start)
  omega

/-! ## All passes -/

/-- The passes for spans that tile the image from a position on. -/
def encodePasses (effort : Effort) (image : Bytes) (spans : List Span)
    (rest : Bytes) : Bytes :=
  (spans.map (passFor effort image)).flatMap Pass.encode ++ rest

theorem encodePasses_cons (effort : Effort) (image : Bytes) (s : Span)
    (spans : List Span) (rest : Bytes) :
    encodePasses effort image (s :: spans) rest
      = (passFor effort image s).encode
        ++ encodePasses effort image spans rest := by
  simp [encodePasses]

theorem encodePasses_append (effort : Effort) (image : Bytes)
    (spans : List Span) (rest : Bytes) :
    encodePasses effort image spans [] ++ rest
      = encodePasses effort image spans rest := by
  simp [encodePasses]

/-- The passes for a tiling restore the image, with zeros up to the end of
    an output that is longer. -/
theorem runPasses_tiles (effort : Effort) {image : Bytes} {spans : List Span}
    {size position : Nat} {output : Array UInt8} (total : Nat) (rest : Bytes)
    (tiles : Tiles image position spans) (fits : image.length ≤ size)
    (starts : ∀ s ∈ spans, s.start < wordLimit)
    (restored : Restored image size position output) :
    ∃ after, runPasses total spans.length
        (encodePasses effort image spans rest) output = .ok (rest, after)
      ∧ Restored image size image.length after := by
  -- the invariant is `Restored`: zeros in front of a span need no pass, and
  -- the pass for the span restores it
  induction tiles generalizing output with
  | done => exact ⟨output, rfl, restored⟩
  | @span position s spans before order inside zero tiles ih =>
      obtain ⟨middle, ran, later⟩ :=
        runPass_restores effort total
          (encodePasses effort image spans rest)
          (restored.skip before (by omega) zero) (starts s (by simp)) order
          inside (by omega)
      obtain ⟨after, finished, done⟩ :=
        ih (fun r hr => starts r (by simp [hr])) later
      refine ⟨after, ?_, done⟩
      rw [encodePasses_cons, List.length_cons, runPasses, ran]
      exact finished

/-- The passes for a tiling leave an output that is too short. -/
theorem runPasses_tiles_overrun (effort : Effort) {image : Bytes}
    {spans : List Span} {size position : Nat} {output : Array UInt8}
    (total : Nat) (rest : Bytes) (tiles : Tiles image position spans)
    (short : size < image.length) (soFar : position ≤ size)
    (starts : ∀ s ∈ spans, s.start < wordLimit)
    (restored : Restored image size position output) :
    ∃ place length, runPasses total spans.length
        (encodePasses effort image spans rest) output
      = .error (.outputOverrun place length size) := by
  induction tiles generalizing output with
  | done => omega
  | @span position s spans before order inside zero tiles ih =>
      have size_eq := restored.size_eq (by omega) soFar
      have start := starts s (by simp)
      rw [encodePasses_cons, List.length_cons, runPasses]
      -- the first span that does not fit is refused
      by_cases fits : s.stop ≤ size
      · obtain ⟨middle, ran, later⟩ :=
          runPass_restores effort total
            (encodePasses effort image spans rest)
            (restored.skip before (by omega) zero) start order inside fits
        rw [ran]
        exact ih fits (fun r hr => starts r (by simp [hr])) later
      · obtain ⟨place, length, overran⟩ :=
          runPass_passFor_overrun effort total
            (encodePasses effort image spans rest) start order inside
            (by rw [size_eq]; omega)
        rw [overran, size_eq]
        exact ⟨place, length, rfl⟩

/-! ## Compressed data -/

/-- What compressing gives, if it gives anything: the passes for a tiling of
    the image. -/
theorem compress_eq_ok {image data : Bytes} {effort : Effort}
    (h : compress image effort = .ok data) :
    data = encodePasses effort image
        (pieces effort.splitsOnZeros image) []
      ∧ ∀ s ∈ pieces effort.splitsOnZeros image, s.start < wordLimit := by
  simp only [compress] at h
  split at h
  · next fits =>
      cases h
      refine ⟨(List.append_nil _).symm, fun s hs => ?_⟩
      have all := List.all_eq_true.mp fits (passFor effort image s)
        (List.mem_map_of_mem hs)
      exact of_decide_eq_true all
  · cases h

/-- All spans of a tiling are in the image. -/
theorem Tiles.start_le {image : Bytes} {position : Nat} {spans : List Span}
    (tiles : Tiles image position spans) :
    ∀ s ∈ spans, s.start ≤ image.length := by
  induction tiles with
  | done => simp
  | span before order inside zero tiles ih =>
      intro r hr
      rcases List.mem_cons.mp hr with rfl | later
      · exact Nat.le_trans order inside
      · exact ih r later

/-- An image whose positions have 32 bits can be compressed. -/
theorem exists_compress {image : Bytes} (effort : Effort)
    (small : image.length < wordLimit) :
    ∃ data, compress image effort = .ok data := by
  unfold compress
  rw [if_pos]
  · exact ⟨_, rfl⟩
  · refine List.all_eq_true.mpr fun pass hp => ?_
    obtain ⟨s, hs, rfl⟩ := List.mem_map.mp hp
    have inside := (tiles_pieces effort.splitsOnZeros image).start_le s hs
    exact decide_eq_true (Nat.lt_of_le_of_lt inside small)

/-- An output of zeros is restored up to the beginning of the image. -/
theorem restored_zeros (image : Bytes) (size : Nat) :
    Restored image size 0 (Array.replicate size 0) := by
  simp [Restored]

/-- Expanding compressed data into an output that has room restores the
    image, reads all of the data and nothing of what follows. -/
theorem expand_compress {image data : Bytes} {effort : Effort} {size : Nat}
    (h : compress image effort = .ok data) (fits : image.length ≤ size)
    (rest : Bytes) :
    expand (data ++ rest) size
      = .ok (image ++ List.replicate (size - image.length) 0,
          data.length) := by
  obtain ⟨e, starts⟩ := compress_eq_ok h
  obtain ⟨after, ran, restored⟩ :=
    runPasses_tiles effort (data ++ rest).length rest
      (tiles_pieces effort.splitsOnZeros image) fits starts
      (restored_zeros image size)
  rw [length_pieces, ← encodePasses_append, ← e] at ran
  rw [Restored, List.take_length] at restored
  rw [expand, ran]
  simp [restored]

/-- Expanding compressed data into an output without room is refused,
    whatever follows the data. -/
theorem expand_compress_overrun {image data : Bytes} {effort : Effort}
    {size : Nat} (h : compress image effort = .ok data)
    (short : size < image.length) (rest : Bytes) :
    ∃ position length, expand (data ++ rest) size
      = .error (.outputOverrun position length size) := by
  obtain ⟨e, starts⟩ := compress_eq_ok h
  obtain ⟨position, length, overran⟩ :=
    runPasses_tiles_overrun effort (data ++ rest).length rest
      (tiles_pieces effort.splitsOnZeros image) short (Nat.zero_le _) starts
      (restored_zeros image size)
  rw [length_pieces, ← encodePasses_append, ← e] at overran
  exact ⟨position, length, by rw [expand, overran]⟩

/-- **Compressed data restores its image.**  Every image whose positions
    have 32 bits can be compressed with any effort.  Expanding the data gives
    the image, with zeros after it in a longer output; a shorter output is
    refused as too short, and in no other way. -/
theorem decompress_compress (image : Bytes) (effort : Effort) (size : Nat)
    (small : image.length < 2 ^ 32) :
    ∃ data, compress image effort = .ok data
      ∧ decompress data image.length = .ok image
      ∧ (image.length ≤ size → decompress data size
          = .ok (image ++ List.replicate (size - image.length) 0))
      ∧ (size < image.length → ∃ position length, decompress data size
          = .error (.outputOverrun position length size)) := by
  obtain ⟨data, h⟩ := exists_compress effort small
  have restores : ∀ n, image.length ≤ n → decompress data n
      = .ok (image ++ List.replicate (n - image.length) 0) := by
    intro n fits
    have expanded := expand_compress h fits []
    rw [List.append_nil] at expanded
    rw [decompress, expanded]
    rfl
  refine ⟨data, h, ?_, restores size, ?_⟩
  · simpa using restores image.length (Nat.le_refl _)
  · intro short
    obtain ⟨position, length, overran⟩ :=
      expand_compress_overrun h short []
    rw [List.append_nil] at overran
    exact ⟨position, length, by rw [decompress, overran]; rfl⟩

/-- An image with a run to leave out, which becomes two passes, and a
    pattern. -/
def sampleImage : Bytes :=
  [0x42] ++ List.replicate 9 0x00 ++ [0xFF, 0xFF, 0x12, 0x34, 0x7E]

theorem decompress_compress_sample :
    sampleImage.length < 2 ^ 32
      ∧ ∃ data, compress sampleImage ⟨4⟩ = .ok data
        ∧ decompress data sampleImage.length = .ok sampleImage
        ∧ (sampleImage.length ≤ 8 → decompress data 8
            = .ok (sampleImage
                ++ List.replicate (8 - sampleImage.length) 0))
        ∧ (8 < sampleImage.length → ∃ position length, decompress data 8
            = .error (.outputOverrun position length 8)) :=
  ⟨by decide, decompress_compress sampleImage ⟨4⟩ 8 (by decide)⟩

end Handheld.Compression
