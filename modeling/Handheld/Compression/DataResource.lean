import Handheld.Compression.Encoding
import Handheld.Compression.Expansion

/-! # The `data` resource — a pointer, three passes and a trailer

    A `data` resource holds the position of its trailer in 32 bits, the
    compressed passes, and a trailer of eighteen zeros that is kept for
    loaders to come. -/

namespace Handheld.Compression

/-- The size of the position in front of the passes. -/
def pointerSize : Nat := 4

/-- The size of the trailer. -/
def trailerSize : Nat := 18

/-- The `data` resource of an image. -/
def encodeData (image : Bytes) (effort : Effort) : Except Error Bytes :=
  match compress image effort with
  | .error e => .error e
  | .ok passes =>
      let trailer := pointerSize + passes.length
      if trailer < wordLimit then
        .ok (Bytes.bigEndian pointerSize trailer ++ passes
          ++ List.replicate trailerSize 0)
      else .error (.tooLarge image.length)

/-- What making a `data` resource reports. -/
def encodeDataEvents (image : Bytes) (effort : Effort) : List Event :=
  compressEvents image effort
    ++ match encodeData image effort with
      | .error _ => []
      | .ok resource =>
          [.debug s!"{image.length} bytes of data compressed at level {effort.text} into a {resource.length}-byte resource"]

/-- The passes of a `data` resource. -/
def dataPasses (resource : Bytes) : Except Error Bytes :=
  if resource.length < pointerSize then
    .error (.badFraming .pointerMissing)
  else
    let trailer := Bytes.word resource 0 pointerSize
    if pointerSize ≤ trailer ∧ trailer + trailerSize ≤ resource.length then
      .ok (Bytes.slice resource pointerSize (trailer - pointerSize))
    else .error (.badFraming .pointerOutOfRange)

/-- The image of `size` bytes that a `data` resource holds. -/
def decodeData (resource : Bytes) (size : Nat) : Except Error Bytes :=
  match dataPasses resource with
  | .error e => .error e
  | .ok passes =>
      match expand passes size with
      | .error e => .error e
      | .ok (image, consumed) =>
          if consumed = passes.length then .ok image
          else .error (.badFraming .passesEndElsewhere)

/-- What reading a `data` resource reports. -/
def decodeDataEvents (resource : Bytes) (size : Nat) : List Event :=
  match dataPasses resource with
  | .error _ => []
  | .ok passes => expandEvents passes size

end Handheld.Compression
