import Handheld.Proofs.Bytes
import Handheld.Proofs.Compression.RoundTrip

/-! # Data resources — an image between a pointer and a trailer

    A pointer and any bytes behind it are read by one rule
    (`dataPasses_append`), from which follows what a `data` resource holds:

    • `dataPasses_frame`: the passes, if the pointer is at their end and a
      trailer follows, whatever it holds and whatever comes after it;
    • `decodeData_encodeData`: the image is found again, with zeros after it
      if more room is given. -/

namespace Handheld.Compression

/-- The passes end where the pointer says, if there is room for a trailer
    after them. -/
theorem dataPasses_append {pointer : Nat} (h : pointer < wordLimit)
    (body : Bytes) :
    dataPasses (Bytes.bigEndian pointerSize pointer ++ body)
      = if pointerSize ≤ pointer
            ∧ pointer + trailerSize ≤ pointerSize + body.length then
          .ok (body.take (pointer - pointerSize))
        else .error (.badFraming .pointerOutOfRange) := by
  have size : (Bytes.bigEndian pointerSize pointer).length = pointerSize :=
    Bytes.length_bigEndian _ _
  have length : (Bytes.bigEndian pointerSize pointer ++ body).length
      = pointerSize + body.length := by
    rw [List.length_append, size]
  have read : Bytes.word (Bytes.bigEndian pointerSize pointer ++ body) 0
      pointerSize = pointer := Bytes.word_bigEndian_append h body
  rw [dataPasses, length, if_neg (Nat.not_lt.mpr (Nat.le_add_right _ _))]
  simp only [read, Bytes.slice, List.drop_left' size]

/-- Passes and what follows them, behind a pointer to where they end. -/
def frame (passes tail : Bytes) : Bytes :=
  Bytes.bigEndian pointerSize (pointerSize + passes.length) ++ (passes ++ tail)

theorem frame_append (passes tail more : Bytes) :
    frame passes tail ++ more = frame passes (tail ++ more) := by
  rw [frame, frame, List.append_assoc, List.append_assoc]

/-- The passes in a frame are found if there is a trailer after them. -/
theorem dataPasses_frame {passes tail : Bytes}
    (small : pointerSize + passes.length < wordLimit)
    (room : trailerSize ≤ tail.length) :
    dataPasses (frame passes tail) = .ok passes := by
  have framed : pointerSize ≤ pointerSize + passes.length
      ∧ pointerSize + passes.length + trailerSize
        ≤ pointerSize + (passes ++ tail).length := by
    rw [List.length_append]
    omega
  rw [frame, dataPasses_append small, if_pos framed, Nat.add_sub_cancel_left,
    List.take_left]

/-- The trailer as it is made. -/
def blankTrailer : Bytes :=
  List.replicate trailerSize 0

theorem length_blankTrailer : blankTrailer.length = trailerSize :=
  List.length_replicate

/-- A `data` resource is a frame around the passes. -/
theorem encodeData_eq_ok {image resource : Bytes} {effort : Effort}
    (h : encodeData image effort = .ok resource) :
    ∃ passes, compress image effort = .ok passes
      ∧ pointerSize + passes.length < wordLimit
      ∧ resource = frame passes blankTrailer := by
  rw [encodeData] at h
  split at h
  case h_1 => cases h
  case h_2 passes compressed =>
    dsimp only at h
    split at h
    case isFalse => cases h
    case isTrue small =>
      cases h
      exact ⟨passes, compressed, small, List.append_assoc _ _ _⟩

/-- The image in a `data` resource is found again. -/
theorem decodeData_encodeData {image resource : Bytes} {effort : Effort}
    (h : encodeData image effort = .ok resource) {size : Nat}
    (fits : image.length ≤ size) :
    decodeData resource size
      = .ok (image ++ List.replicate (size - image.length) 0) := by
  obtain ⟨passes, compressed, small, rfl⟩ := encodeData_eq_ok h
  have expanded := expand_compress compressed fits []
  rw [List.append_nil] at expanded
  rw [decodeData, dataPasses_frame small (Nat.le_of_eq length_blankTrailer.symm)]
  simp only [expanded, if_pos]

end Handheld.Compression
