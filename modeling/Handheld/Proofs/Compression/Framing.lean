import Handheld.Proofs.Compression.Consumption
import Handheld.Proofs.Compression.DataResource
import Handheld.Proofs.Compression.Length

/-! # Framing — what of a `data` resource decides what is read

    The pointer of a `data` resource decides where its passes end, and the
    passes decide it as well.  So the pointer can have one value only, and
    nothing after the passes matters:

    • `exists_encodeData`: there is a resource for every image whose literals
      leave room for the pointer;
    • `decodeData_frame_overrun` and `decodeData_frame_tail_eq`: too little
      room, and another trailer;
    • `decodeData_pointer_outside` and `decodeData_pointer_inside`: a pointer
      to somewhere else;
    • `decodeData_framing` is the statement on resources. -/

namespace Handheld.Compression

variable {image passes : Bytes} {effort : Effort}

/-! ## Resources that are made -/

/-- The literals for an image of this size are within reach of a pointer. -/
theorem pointer_lt_of_literals (small : image.length < 2 ^ 32 - 2 ^ 26) :
    pointerSize + (18 + literalLength image.length) < wordLimit := by
  rw [pointerSize, literalLength_eq, wordLimit]
  omega

/-- A `data` resource can be made of an image that is short enough. -/
theorem exists_encodeData (effort : Effort)
    (small : image.length < 2 ^ 32 - 2 ^ 26) :
    ∃ resource, encodeData image effort = .ok resource := by
  obtain ⟨passes, compressed⟩ := exists_compress effort
    (Nat.lt_of_lt_of_le small (Nat.sub_le _ _))
  have fits : pointerSize + passes.length < wordLimit :=
    Nat.lt_of_le_of_lt
      (Nat.add_le_add_left (length_le_of_compress compressed) _)
      (pointer_lt_of_literals small)
  refine ⟨Bytes.bigEndian pointerSize (pointerSize + passes.length) ++ passes
    ++ List.replicate trailerSize 0, ?_⟩
  rw [encodeData, compressed]
  exact if_pos fits

/-! ## Resources that are read -/

/-- Room for less than the image is refused. -/
theorem decodeData_frame_overrun
    (compressed : compress image effort = .ok passes)
    (small : pointerSize + passes.length < wordLimit) {tail : Bytes}
    (room : trailerSize ≤ tail.length) {size : Nat}
    (short : size < image.length) :
    ∃ position length, decodeData (frame passes tail) size
      = .error (.outputOverrun position length size) := by
  obtain ⟨position, length, overran⟩ :=
    expand_compress_overrun compressed short []
  rw [List.append_nil] at overran
  refine ⟨position, length, ?_⟩
  rw [decodeData, dataPasses_frame small room]
  simp only [overran]

/-- It does not matter what the trailer holds and what comes after it. -/
theorem decodeData_frame_tail_eq
    (small : pointerSize + passes.length < wordLimit) {tail tail' : Bytes}
    (room : trailerSize ≤ tail.length) (room' : trailerSize ≤ tail'.length)
    (size : Nat) :
    decodeData (frame passes tail') size = decodeData (frame passes tail) size := by
  rw [decodeData, decodeData, dataPasses_frame small room,
    dataPasses_frame small room']

/-- A pointer that leaves no room for its own four bytes or for the trailer is
    refused. -/
theorem decodeData_pointer_outside {pointer : Nat} (h : pointer < wordLimit)
    {body : Bytes} (outside : pointer < pointerSize
      ∨ pointerSize + body.length < pointer + trailerSize) (size : Nat) :
    decodeData (Bytes.bigEndian pointerSize pointer ++ body) size
      = .error (.badFraming .pointerOutOfRange) := by
  rw [decodeData, dataPasses_append h, if_neg (by omega)]

/-- A pointer into the passes cuts them off, and they are truncated there. -/
theorem decodeData_pointer_inside
    (compressed : compress image effort = .ok passes) {pointer : Nat}
    (h : pointer < wordLimit) (inside : pointerSize ≤ pointer)
    (before : pointer < pointerSize + passes.length) {tail : Bytes}
    (room : trailerSize ≤ tail.length) {size : Nat}
    (fits : image.length ≤ size) :
    decodeData (Bytes.bigEndian pointerSize pointer ++ (passes ++ tail)) size
      = .error (.truncated (pointer - pointerSize)) := by
  have framed : pointerSize ≤ pointer
      ∧ pointer + trailerSize ≤ pointerSize + (passes ++ tail).length := by
    rw [List.length_append]
    omega
  have cut : ((passes ++ tail).take (pointer - pointerSize)).length
      = pointer - pointerSize := by
    rw [List.length_take, List.length_append]
    omega
  have truncated := expand_of_lt (expand_compress compressed fits tail)
    (List.take_prefix (pointer - pointerSize) _) (by rw [cut]; omega)
  rw [cut] at truncated
  rw [decodeData, dataPasses_append h, if_pos framed]
  simp only [truncated]

/-! ## Resources that are changed -/

/-- The pointer of a frame is where its passes end. -/
theorem word_frame (small : pointerSize + passes.length < wordLimit)
    (tail : Bytes) :
    Bytes.word (frame passes tail) 0 pointerSize
      = pointerSize + passes.length :=
  Bytes.word_bigEndian_append small (passes ++ tail)

/-- Another pointer takes the place of the one that was there. -/
theorem overwrite_pointer (pointer : Nat) (passes tail : Bytes) :
    Bytes.overwrite (frame passes tail) 0 (Bytes.bigEndian pointerSize pointer)
      = Bytes.bigEndian pointerSize pointer ++ (passes ++ tail) :=
  @Bytes.overwrite_append [] _ _ _
    ((Bytes.length_bigEndian _ _).trans (Bytes.length_bigEndian _ _).symm)

/-- Another trailer takes the place of the one that was there. -/
theorem overwrite_trailer {tail trailer : Bytes}
    (same : trailer.length = tail.length) :
    Bytes.overwrite (frame passes tail)
        ((frame passes tail).length - tail.length) trailer
      = frame passes trailer := by
  have front : frame passes tail = (Bytes.bigEndian pointerSize
      (pointerSize + passes.length) ++ passes) ++ (tail ++ []) := by
    rw [frame, List.append_nil, List.append_assoc]
  rw [front, List.append_nil, List.length_append, Nat.add_sub_cancel,
    ← List.append_nil tail, Bytes.overwrite_append same, List.append_nil,
    List.append_assoc, frame]

/-! ## The framing of a resource -/

/-- **The framing of a `data` resource leaves no choice.**  A resource can be
    made of every image that is a little shorter than its pointer reaches.
    It is read as the image with zeros after it, and refused only in less room
    than the image needs.  Neither the eighteen bytes of its trailer nor what
    is appended to them changes what is read.  But its pointer has one value
    only: any other is out of range, or cuts the passes off before they end,
    so that none yields an image. -/
theorem decodeData_framing (image : Bytes) (effort : Effort)
    (small : image.length < 2 ^ 32 - 2 ^ 26) :
    ∃ resource, encodeData image effort = .ok resource
      ∧ (∀ size, image.length ≤ size → decodeData resource size
        = .ok (image ++ List.replicate (size - image.length) 0))
      ∧ (∀ size, size < image.length → ∃ position length,
        decodeData resource size
          = .error (.outputOverrun position length size))
      ∧ (∀ (more : Bytes) (size : Nat),
        decodeData (resource ++ more) size = decodeData resource size)
      ∧ (∀ (trailer more : Bytes) (size : Nat), trailer.length = 18 →
        decodeData (Bytes.overwrite resource (resource.length - 18) trailer
            ++ more) size
          = decodeData resource size)
      ∧ ∀ pointer size, pointer < 2 ^ 32 →
        pointer ≠ Bytes.word resource 0 4 → image.length ≤ size →
        decodeData (Bytes.overwrite resource 0 (Bytes.bigEndian 4 pointer)) size
          = .error (if 4 ≤ pointer ∧ pointer < Bytes.word resource 0 4
              then .truncated (pointer - 4)
              else .badFraming .pointerOutOfRange) := by
  obtain ⟨resource, made⟩ := exists_encodeData effort small
  refine ⟨resource, made, fun size fits => decodeData_encodeData made fits, ?_⟩
  obtain ⟨passes, compressed, inReach, rfl⟩ := encodeData_eq_ok made
  have room : trailerSize ≤ blankTrailer.length :=
    Nat.le_of_eq length_blankTrailer.symm
  have grown : ∀ (trailer more : Bytes), trailer.length = trailerSize →
      trailerSize ≤ (trailer ++ more).length := by
    intro trailer more size
    rw [List.length_append, size]
    exact Nat.le_add_right _ _
  refine ⟨?_, ?_, ?_, ?_⟩
  · intro size short
    exact decodeData_frame_overrun compressed inReach room short
  · intro more size
    rw [frame_append]
    exact decodeData_frame_tail_eq inReach room
      (grown _ more length_blankTrailer) size
  · intro trailer more size length
    have replaced : Bytes.overwrite (frame passes blankTrailer)
        ((frame passes blankTrailer).length - 18) trailer
          = frame passes trailer :=
      overwrite_trailer (length.trans length_blankTrailer.symm)
    rw [replaced, frame_append]
    exact decodeData_frame_tail_eq inReach room (grown trailer more length) size
  · intro pointer size word other fits
    have there : Bytes.word (frame passes blankTrailer) 0 4
        = pointerSize + passes.length := word_frame inReach blankTrailer
    have written : Bytes.overwrite (frame passes blankTrailer) 0
        (Bytes.bigEndian 4 pointer)
          = Bytes.bigEndian pointerSize pointer ++ (passes ++ blankTrailer) :=
      overwrite_pointer pointer passes blankTrailer
    rw [there] at other ⊢
    rw [written]
    split
    case isTrue inside =>
      exact decodeData_pointer_inside compressed word inside.1 inside.2 room
        fits
    case isFalse outside =>
      refine decodeData_pointer_outside word ?_ size
      rw [List.length_append, length_blankTrailer]
      have four : pointerSize = 4 := rfl
      omega

/-- The passes for one byte, at 0, and two empty ones. -/
def bytePasses : Bytes :=
  [0x00, 0x00, 0x00, 0x00, 0x80, 0x42, 0x00, 0x00,
    0x00, 0x00, 0x00, 0x01, 0x00, 0x00,
    0x00, 0x00, 0x00, 0x01, 0x00, 0x00]

/-- The resource for one byte, whose pointer is 24, with a byte after it, with
    another trailer, with a pointer to the last byte of its passes and with
    one into its trailer. -/
theorem decodeData_framing_byte :
    ([0x42] : Bytes).length < 2 ^ 32 - 2 ^ 26
      ∧ ∃ resource, encodeData [0x42] ⟨2⟩ = .ok resource
        ∧ decodeData resource 1 = .ok [0x42]
        ∧ decodeData (resource ++ [0x99]) 1 = .ok [0x42]
        ∧ decodeData (Bytes.overwrite resource (resource.length - 18)
            (List.replicate 18 0xEE) ++ [0x99]) 1 = .ok [0x42]
        ∧ decodeData (Bytes.overwrite resource 0 (Bytes.bigEndian 4 23)) 1
          = .error (.truncated 19)
        ∧ decodeData (Bytes.overwrite resource 0 (Bytes.bigEndian 4 25)) 1
          = .error (.badFraming .pointerOutOfRange) := by
  have small : ([0x42] : Bytes).length < 2 ^ 32 - 2 ^ 26 := by decide
  obtain ⟨resource, made, restored, -, appended, replaced, pointed⟩ :=
    decodeData_framing [0x42] ⟨2⟩ small
  have known : encodeData [0x42] ⟨2⟩
      = .ok (frame bytePasses blankTrailer) := by cbv
  obtain rfl := Except.ok.inj (known.symm.trans made)
  have read := restored 1 (Nat.le_refl 1)
  have pointer : Bytes.word (frame bytePasses blankTrailer) 0 4 = 24 :=
    word_frame (by decide) blankTrailer
  rw [pointer] at pointed
  refine ⟨small, _, made, read, ?_, ?_, ?_, ?_⟩
  · exact (appended [0x99] 1).trans read
  · exact (replaced (List.replicate 18 0xEE) [0x99] 1 (by decide)).trans read
  · exact pointed 23 1 (by decide) (by decide) (Nat.le_refl 1)
  · exact pointed 25 1 (by decide) (by decide) (Nat.le_refl 1)

end Handheld.Compression
