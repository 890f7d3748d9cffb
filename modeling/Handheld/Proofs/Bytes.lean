import Handheld.Bytes
import Mathlib

/-! # Fields — a byte string as a row of fields

    A stored record is a row of fields of fixed width.  Cutting a string
    into fields and putting fields next to each other undo each other, and
    so do the two directions between a field and its number:

    • `flatten_fields` and `fields_flatten` for the row, `slice_eq_of_append`
      for one window of it;
    • `bigEndian_value` and `value_bigEndian_of_lt` for one number. -/

namespace Handheld.Bytes

/-! ## Numbers -/

/-- A number that fits its field is read back. -/
theorem value_bigEndian_of_lt {width n : Nat} (h : n < 256 ^ width) :
    value (bigEndian width n) = n := by
  rw [value_bigEndian]
  exact Nat.mod_eq_of_lt h

/-- The most significant digit comes first. -/
theorem bigEndian_succ_of_lt {width high n : Nat} (h : n < 256 ^ width) :
    bigEndian (width + 1) (high * 256 ^ width + n)
      = high.toUInt8 :: bigEndian width n := by
  induction width generalizing n with
  | zero =>
      obtain rfl : n = 0 := by omega
      rw [Nat.pow_zero, Nat.mul_one]
      rfl
  | succ width ih =>
      rw [Nat.pow_succ] at h
      have power : high * 256 ^ (width + 1) = 256 * (high * 256 ^ width) := by
        rw [Nat.pow_succ', Nat.mul_left_comm]
      have upper : (high * 256 ^ (width + 1) + n) / 256
          = high * 256 ^ width + n / 256 := by
        rw [power, Nat.mul_add_div (by decide)]
      have last : (high * 256 ^ (width + 1) + n).toUInt8 = n.toUInt8 := by
        rw [power, ← UInt8.toNat_inj, Nat.toUInt8_eq, Nat.toUInt8_eq,
          UInt8.toNat_ofNat', UInt8.toNat_ofNat', Nat.mul_add_mod]
      rw [bigEndian, upper, last, ih (by omega), List.cons_append]
      rfl

/-- Further digits are worth less than one of the last digit before
    them. -/
private theorem foldl_value_lt (digits : Bytes) (n : Nat) :
    digits.foldl (fun n digit => n * 256 + digit.toNat) n
      < (n + 1) * 256 ^ digits.length := by
  induction digits generalizing n with
  | nil => simp
  | cons digit digits ih =>
      have small := digit.toNat_lt
      have next : n * 256 + digit.toNat + 1 ≤ (n + 1) * 256 := by omega
      rw [List.foldl_cons, List.length_cons, Nat.pow_succ', ← Nat.mul_assoc]
      exact Nat.lt_of_lt_of_le (ih _) (Nat.mul_le_mul_right _ next)

/-- Digits write a number below the next power. -/
theorem value_lt (digits : Bytes) : value digits < 256 ^ digits.length := by
  have h := foldl_value_lt digits 0
  rwa [Nat.zero_add, Nat.one_mul] at h

/-- A field is written back as it was read. -/
theorem bigEndian_value {digits : Bytes} {width : Nat}
    (h : digits.length = width) : bigEndian width (value digits) = digits := by
  refine value_injective width _ _ (length_bigEndian _ _) h ?_
  exact value_bigEndian_of_lt (h ▸ value_lt digits)

/-! ## Windows -/

/-- The window of the middle one of three pieces. -/
theorem slice_eq_of_append {bytes a b c : Bytes} {offset width : Nat}
    (h : bytes = a ++ (b ++ c)) (start : a.length = offset)
    (size : b.length = width) : slice bytes offset width = b := by
  rw [h, ← start, ← size, slice, List.drop_left, List.take_left]

/-- A number in front of other bytes is read back. -/
theorem word_bigEndian_append {width n : Nat} (h : n < 256 ^ width)
    (rest : Bytes) : word (bigEndian width n ++ rest) 0 width = n := by
  have field : slice (bigEndian width n ++ rest) 0 width = bigEndian width n :=
    List.take_left' (length_bigEndian _ _)
  rw [word, field, value_bigEndian_of_lt h]

theorem length_slice {bytes : Bytes} {offset width : Nat}
    (h : offset + width ≤ bytes.length) :
    (slice bytes offset width).length = width := by
  rw [slice, List.length_take, List.length_drop]
  omega

/-- A window begins with the byte at its position. -/
theorem slice_succ {bytes : Bytes} {position : Nat} (width : Nat)
    (h : position < bytes.length) :
    slice bytes position (width + 1)
      = byteAt bytes position :: slice bytes (position + 1) width := by
  have first : bytes[position]? = some (byteAt bytes position) := by
    rw [byteAt, List.getD_eq_getElem?_getD, List.getElem?_eq_getElem h,
      Option.getD_some]
  rw [slice, List.drop_eq_getElem?_toList_append, first]
  rfl

/-- A window and what follows it. -/
theorem slice_append_drop (bytes : Bytes) (offset width : Nat) :
    slice bytes offset width ++ bytes.drop (offset + width)
      = bytes.drop offset := by
  rw [slice, ← List.drop_drop, List.take_append_drop]

/-- The beginning of a window. -/
theorem take_slice (bytes : Bytes) (offset : Nat) {width length : Nat}
    (h : length ≤ width) :
    (slice bytes offset width).take length = slice bytes offset length := by
  rw [slice, slice, List.take_take, Nat.min_eq_left h]

/-- The end of a window. -/
theorem drop_slice (bytes : Bytes) (offset width start : Nat) :
    (slice bytes offset width).drop start
      = slice bytes (offset + start) (width - start) := by
  rw [slice, slice, List.drop_take, List.drop_drop]

/-- A window of a window. -/
theorem slice_slice {bytes : Bytes} {offset width start length : Nat}
    (h : start + length ≤ width) :
    slice (slice bytes offset width) start length
      = slice bytes (offset + start) length := by
  rw [slice, drop_slice, take_slice _ _ (by omega)]

/-- The parts of a window are windows. -/
theorem slice_of_slice_eq_append {bytes a b : Bytes} {offset width : Nat}
    (h : slice bytes offset width = a ++ b) (size : a.length + b.length = width) :
    slice bytes offset a.length = a
      ∧ slice bytes (offset + a.length) b.length = b := by
  subst size
  constructor
  · have front := congrArg (List.take a.length) h
    rwa [List.take_left, slice, List.take_take,
      Nat.min_eq_left (Nat.le_add_right _ _)] at front
  · have back := congrArg (List.drop a.length) h
    rwa [List.drop_left, slice, List.drop_take, List.drop_drop,
      Nat.add_sub_cancel_left] at back

/-! ## Overwriting -/

theorem length_overwrite {bytes new : Bytes} {position : Nat}
    (h : position + new.length ≤ bytes.length) :
    (overwrite bytes position new).length = bytes.length := by
  rw [overwrite, List.length_append, List.length_append, List.length_take,
    List.length_drop]
  omega

/-- What is written over the middle one of three pieces takes its place. -/
theorem overwrite_append {before old after new : Bytes}
    (same : new.length = old.length) :
    overwrite (before ++ (old ++ after)) before.length new
      = before ++ (new ++ after) := by
  rw [overwrite, List.take_left, same, List.drop_length_add_append,
    List.drop_left, List.append_assoc]

/-- A window that is written back leaves its bytes as they were. -/
theorem overwrite_slice {bytes : Bytes} {position width : Nat}
    (h : position + width ≤ bytes.length) :
    overwrite bytes position (slice bytes position width) = bytes := by
  rw [overwrite, length_slice h, List.append_assoc, slice_append_drop,
    List.take_append_drop]

/-- What was written is found where it was written. -/
theorem slice_overwrite_self {bytes new : Bytes} {position : Nat}
    (h : position + new.length ≤ bytes.length) :
    slice (overwrite bytes position new) position new.length = new := by
  refine slice_eq_of_append (List.append_assoc _ _ _) ?_ rfl
  rw [List.length_take]
  omega

/-- Windows apart from what was written are left alone. -/
theorem slice_overwrite_apart {bytes new : Bytes}
    {position offset width : Nat}
    (h : position + new.length ≤ bytes.length)
    (apart : offset + width ≤ position ∨ position + new.length ≤ offset) :
    slice (overwrite bytes position new) offset width
      = slice bytes offset width := by
  have start : (bytes.take position).length = position := by
    rw [List.length_take]
    omega
  rcases apart with before | after
  · -- the window lies within the bytes in front of what was written
    rw [slice, overwrite, List.append_assoc,
      List.drop_append_of_le_length (by omega),
      List.take_append_of_le_length (by rw [List.length_drop]; omega),
      List.drop_take, List.take_take, Nat.min_eq_left (by omega), slice]
  · obtain ⟨gap, rfl⟩ := Nat.exists_eq_add_of_le after
    have stop : (bytes.take position ++ new).length
        = position + new.length := by
      rw [List.length_append, start]
    rw [slice, overwrite, ← stop, List.drop_length_add_append, stop,
      List.drop_drop, slice]

/-- So are single bytes. -/
theorem getElem?_overwrite_apart {bytes new : Bytes} {position p : Nat}
    (h : position + new.length ≤ bytes.length)
    (apart : p < position ∨ position + new.length ≤ p) :
    (overwrite bytes position new)[p]? = bytes[p]? := by
  have single : ∀ bytes : Bytes, (slice bytes p 1)[0]? = bytes[p]? := by
    intro bytes
    simp [slice]
  rw [← single, ← single bytes, slice_overwrite_apart h apart]

/-- Two strings that are written one behind the other are written as one. -/
theorem overwrite_overwrite {bytes first second : Bytes} {position : Nat}
    (h : position ≤ bytes.length) :
    overwrite (overwrite bytes position first) (position + first.length) second
      = overwrite bytes position (first ++ second) := by
  have start : (bytes.take position ++ first).length
      = position + first.length := by
    rw [List.length_append, List.length_take_of_le h]
  rw [overwrite, overwrite, overwrite, ← start, List.take_left,
    List.drop_length_add_append, start, List.drop_drop, List.length_append,
    Nat.add_assoc]
  simp only [List.append_assoc]

/-- What is written inside of a window is written to what the window
    shows. -/
theorem slice_overwrite_within {bytes new : Bytes}
    {offset width position : Nat}
    (room : offset + width ≤ bytes.length)
    (inside : position + new.length ≤ width) :
    slice (overwrite bytes (offset + position) new) offset width
      = overwrite (slice bytes offset width) position new := by
  have start : (bytes.take offset).length = offset := by
    rw [List.length_take]
    omega
  have size := length_slice room
  have before : bytes.take (offset + position)
      = bytes.take offset ++ (slice bytes offset width).take position := by
    rw [List.take_add, take_slice _ _ (by omega), slice]
  have after : bytes.drop (offset + position + new.length)
      = (slice bytes offset width).drop (position + new.length)
        ++ bytes.drop (offset + width) := by
    rw [Nat.add_assoc, ← List.drop_drop,
      ← slice_append_drop bytes offset width,
      List.drop_append_of_le_length (by omega)]
  have written : overwrite bytes (offset + position) new
      = bytes.take offset ++ (overwrite (slice bytes offset width) position new
        ++ bytes.drop (offset + width)) := by
    simp only [overwrite, before, after, List.append_assoc]
  refine slice_eq_of_append written start ?_
  rw [length_overwrite (by omega), size]

/-! ## Cutting and padding -/

/-- A string that is long enough is only cut. -/
theorem resize_eq_take {bytes : Bytes} {length : Nat}
    (h : length ≤ bytes.length) : resize bytes length = bytes.take length := by
  rw [resize, Nat.sub_eq_zero_of_le h, List.replicate_zero, List.append_nil]

/-! ## Rows of fields -/

/-- The fields of these widths that a string begins with. -/
def fields : List Nat → Bytes → List Bytes
  | [], _ => []
  | width :: widths, bytes =>
      bytes.take width :: fields widths (bytes.drop width)

/-- The fields of a string, put next to each other, are its beginning. -/
theorem flatten_fields (widths : List Nat) (bytes : Bytes) :
    (fields widths bytes).flatten = bytes.take widths.sum := by
  induction widths generalizing bytes with
  | nil => rfl
  | cons width widths ih =>
      rw [fields, List.flatten_cons, ih, List.sum_cons, List.take_add]

/-- A string is the row of its fields. -/
theorem flatten_fields_of_length {widths : List Nat} {bytes : Bytes}
    (h : bytes.length = widths.sum) : (fields widths bytes).flatten = bytes := by
  rw [flatten_fields, List.take_of_length_le (Nat.le_of_eq h)]

/-- Fields that are put next to each other are read back, whatever follows
    them. -/
theorem fields_flatten (row : List Bytes) (rest : Bytes) :
    fields (row.map List.length) (row.flatten ++ rest) = row := by
  induction row with
  | nil => rfl
  | cons field row ih =>
      rw [List.map_cons, fields, List.flatten_cons, List.append_assoc,
        List.take_left, List.drop_left, ih]

theorem length_fields (widths : List Nat) (bytes : Bytes) :
    (fields widths bytes).length = widths.length := by
  induction widths generalizing bytes with
  | nil => rfl
  | cons width widths ih => rw [fields, List.length_cons, ih, List.length_cons]

/-- Fields have their widths. -/
theorem map_length_fields {widths : List Nat} {bytes : Bytes}
    (h : widths.sum ≤ bytes.length) :
    (fields widths bytes).map List.length = widths := by
  induction widths generalizing bytes with
  | nil => rfl
  | cons width widths ih =>
      rw [List.sum_cons] at h
      have first : (bytes.take width).length = width := by
        rw [List.length_take]
        omega
      rw [fields, List.map_cons, first, ih (by rw [List.length_drop]; omega)]

/-! ## Pieces -/

theorem chunksOnto_flatten {length : Nat} (before pieces : List Bytes)
    (rest : Bytes) (h : ∀ piece ∈ pieces, piece.length = length) :
    chunksOnto length before pieces.length (pieces.flatten ++ rest)
      = pieces.reverse ++ before := by
  induction pieces generalizing before with
  | nil => rfl
  | cons piece pieces ih =>
      obtain ⟨size, others⟩ := List.forall_mem_cons.mp h
      rw [List.length_cons, chunksOnto, List.flatten_cons, List.append_assoc,
        List.take_left' size, List.drop_left' size, ih _ others,
        List.reverse_cons, List.append_assoc]
      rfl

theorem chunksOnto_eq (length : Nat) (before : List Bytes) (count : Nat)
    (bytes : Bytes) :
    chunksOnto length before count bytes
      = ((List.range count).map fun i => slice bytes (i * length) length).reverse
        ++ before := by
  induction count generalizing before bytes with
  | zero => rfl
  | succ count ih =>
      have shift : (List.range count).map
            (fun i => slice (bytes.drop length) (i * length) length)
          = (List.range count).map
            ((fun i => slice bytes (i * length) length) ∘ Nat.succ) := by
        refine List.map_congr_left fun i _ => ?_
        rw [slice, List.drop_drop, Function.comp_apply, Nat.succ_mul,
          Nat.add_comm length]
        rfl
      rw [chunksOnto, ih, List.range_succ_eq_map, List.map_cons, List.map_map,
        List.reverse_cons, List.append_assoc, shift, Nat.zero_mul]
      rfl

/-- Each piece is a window. -/
theorem chunks_eq (length : Nat) (bytes : Bytes) :
    chunks length bytes
      = (List.range (bytes.length / length)).map
          fun i => slice bytes (i * length) length := by
  rw [chunks, chunksOnto_eq, List.append_nil, List.reverse_reverse]

/-- A window of two bytes. -/
theorem slice_two {bytes : Bytes} {position : Nat}
    (h : position + 1 < bytes.length) :
    slice bytes position 2
      = [byteAt bytes position, byteAt bytes (position + 1)] := by
  rw [slice_succ 1 (Nat.lt_of_succ_lt h), slice_succ 0 h, slice,
    List.take_zero]

/-- Pieces of one length are found again. -/
theorem chunks_flatten {length : Nat} (pos : 0 < length) {pieces : List Bytes}
    (h : ∀ piece ∈ pieces, piece.length = length) :
    chunks length pieces.flatten = pieces := by
  have total : pieces.flatten.length = length * pieces.length := by
    have lengths : pieces.map List.length
        = List.replicate pieces.length length :=
      List.eq_replicate_iff.mpr ⟨List.length_map _, fun n hn => by
        obtain ⟨piece, member, rfl⟩ := List.mem_map.mp hn
        exact h piece member⟩
    rw [List.length_flatten, lengths, List.sum_replicate_nat, Nat.mul_comm]
  have all := chunksOnto_flatten [] pieces [] h
  rw [List.append_nil, List.append_nil] at all
  rw [chunks, total, Nat.mul_div_cancel_left _ pos, all, List.reverse_reverse]

end Handheld.Bytes
