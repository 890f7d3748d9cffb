/-! # Byte strings — fields of fixed width and windows

    Every format of this library is a string of bytes with fields of fixed
    width.  A byte string is a list, so that all its lemmas are list lemmas:

    • `bigEndian` and `value` write and read a number, most significant
      byte first; `littleEndian` and `littleValue` the other way round;
    • `slice` is the window at an offset, `word` the number in a window;
    • `overwrite` replaces the bytes at a position;
    • `chunks` cuts a string into pieces of one length. -/

namespace Handheld

/-- A string of bytes. -/
abbrev Bytes := List UInt8

namespace Bytes

/-! ## Numbers -/

/-- The `width` lowest base-256 digits of a number, most significant
    first. -/
def bigEndian : Nat → Nat → Bytes
  | 0, _ => []
  | width + 1, n => bigEndian width (n / 256) ++ [n.toUInt8]

/-- The number whose base-256 digits these are, most significant first. -/
def value (digits : Bytes) : Nat :=
  digits.foldl (fun n digit => n * 256 + digit.toNat) 0

/-- The `width` lowest base-256 digits of a number, least significant
    first. -/
def littleEndian (width n : Nat) : Bytes :=
  (bigEndian width n).reverse

/-- The number whose base-256 digits these are, least significant first. -/
def littleValue (digits : Bytes) : Nat :=
  value digits.reverse

theorem length_bigEndian (width n : Nat) :
    (bigEndian width n).length = width := by
  induction width generalizing n with
  | zero => rfl
  | succ width ih => simp [bigEndian, ih]

theorem value_append_singleton (digits : Bytes) (digit : UInt8) :
    value (digits ++ [digit]) = value digits * 256 + digit.toNat := by
  simp [value]

/-- Reading back what was written keeps the lowest `width` bytes. -/
theorem value_bigEndian (width n : Nat) :
    value (bigEndian width n) = n % Nat.pow 256 width := by
  induction width generalizing n with
  | zero => simp [bigEndian, value, Nat.mod_one]
  | succ width ih =>
      rw [bigEndian, value_append_singleton, ih]
      have h := @Nat.mod_mul 256 (Nat.pow 256 width) n
      have e : Nat.pow 256 (width + 1) = 256 * Nat.pow 256 width :=
        Nat.mul_comm _ _
      rw [e, h]
      simp [Nat.toUInt8, UInt8.toNat_ofNat']
      omega

/-- Strings of one length that are the same number are the same. -/
theorem value_injective : ∀ (n : Nat) (a b : Bytes), a.length = n →
    b.length = n → value a = value b → a = b := by
  intro n
  induction n with
  | zero =>
      intro a b ha hb _
      rw [List.length_eq_zero_iff.mp ha, List.length_eq_zero_iff.mp hb]
  | succ n ih =>
      intro a b ha hb h
      rcases List.eq_nil_or_concat a with rfl | ⟨a', x, rfl⟩
      · simp at ha
      · rcases List.eq_nil_or_concat b with rfl | ⟨b', y, rfl⟩
        · simp at hb
        · rw [List.concat_eq_append] at ha h
          rw [List.concat_eq_append] at hb h
          rw [value_append_singleton, value_append_singleton] at h
          have hx := x.toNat_lt
          have hy := y.toNat_lt
          have hxy : x = y := UInt8.toNat_inj.mp (by omega)
          have hab := ih a' b' (by simpa using ha) (by simpa using hb)
            (by omega)
          rw [hab, hxy]

/-! ## Windows -/

/-- The byte at a position; past the end it reads as zero. -/
def byteAt (bytes : Bytes) (position : Nat) : UInt8 :=
  bytes.getD position 0

/-- The bytes from `offset` on, at most `length` of them. -/
def slice (bytes : Bytes) (offset length : Nat) : Bytes :=
  (bytes.drop offset).take length

/-- The big-endian number in the window of `width` bytes at `offset`. -/
def word (bytes : Bytes) (offset width : Nat) : Nat :=
  value (slice bytes offset width)

/-- The bytes with those from `position` on replaced by `new`. -/
def overwrite (bytes : Bytes) (position : Nat) (new : Bytes) : Bytes :=
  bytes.take position ++ new ++ bytes.drop (position + new.length)

/-- Cut or zero-padded to exactly `length` bytes. -/
def resize (bytes : Bytes) (length : Nat) : Bytes :=
  bytes.take length ++ List.replicate (length - bytes.length) 0

theorem length_resize (bytes : Bytes) (length : Nat) :
    (resize bytes length).length = length := by
  simp [resize]
  omega

/-! ## Pieces -/

/-- The next `count` pieces of `length` bytes, last one first, in front of
    those before them. -/
def chunksOnto (length : Nat) (before : List Bytes) : Nat → Bytes → List Bytes
  | 0, _ => before
  | count + 1, bytes =>
      chunksOnto length (bytes.take length :: before) count
        (bytes.drop length)

/-- The bytes in pieces of `length`, without an incomplete one at the
    end. -/
def chunks (length : Nat) (bytes : Bytes) : List Bytes :=
  (chunksOnto length [] (bytes.length / length) bytes).reverse

theorem length_chunksOnto (length : Nat) (before : List Bytes) (count : Nat)
    (bytes : Bytes) :
    (chunksOnto length before count bytes).length = before.length + count := by
  induction count generalizing before bytes with
  | zero => rfl
  | succ count ih =>
      rw [chunksOnto, ih, List.length_cons]
      omega

theorem length_chunks (length : Nat) (bytes : Bytes) :
    (chunks length bytes).length = bytes.length / length := by
  simp [chunks, length_chunksOnto]

/-! ## Text -/

/-- The bytes of a text in UTF-8. -/
def ofText (text : String) : Bytes :=
  text.toUTF8.data.toList

/-- The text that these bytes encode in UTF-8, if they encode one. -/
def toText? (bytes : Bytes) : Option String :=
  String.fromUTF8? ⟨bytes.toArray⟩

end Bytes

end Handheld
