import Handheld.Compression.Instruction

/-! # Instruction code — reading back what was written

    An instruction within its limits is determined by its bytes, whatever
    follows them (`decode_encode`).  The tag byte is the number of its class
    plus a count that stays below the next class, so reading is followed in
    numbers:

    • `decodeTagged_toUInt8` is the decoder over the number of the tag;
    • there is one lemma for each class of instructions that have a count. -/

namespace Handheld.Compression.Instruction

/-! ## Tags as numbers -/

private theorem toNat_tag {n : Nat} (h : n < 256) : n.toUInt8.toNat = n := by
  rw [Nat.toUInt8_eq, UInt8.toNat_ofNat']
  omega

private theorem le_tag {c : UInt8} {n : Nat} (h : n < 256) :
    c ≤ n.toUInt8 ↔ c.toNat ≤ n := by
  rw [UInt8.le_iff_toNat_le, toNat_tag h]

/-- The decoder, with the comparisons of the tag between numbers. -/
theorem decodeTagged_toUInt8 {n : Nat} (h : n < 256) (input : Bytes) :
    decodeTagged n.toUInt8 input
      = if 0x80 ≤ n then takeOperand (n - 0x7F) .literal input
        else if 0x40 ≤ n then .ok (.skip (n - 0x3F), input)
        else if 0x20 ≤ n then decodeFill (n - 0x1E) input
        else if 0x10 ≤ n then .ok (.fillOnes (n - 0x0F), input)
        else if n = 0 then .ok (.stop, input)
        else decodePattern n.toUInt8 input := by
  have zero : n.toUInt8 = 0x00 ↔ n = 0 := by
    rw [← UInt8.toNat_inj, toNat_tag h]
    rfl
  simp only [decodeTagged, le_tag h, toNat_tag h, zero]
  rfl

/-! ## One class of instructions after the other -/

/-- An operand that is there is cut off. -/
theorem takeOperand_append {count : Nat} (make : Bytes → Instruction)
    {operand : Bytes} (rest : Bytes) (h : operand.length = count) :
    takeOperand count make (operand ++ rest) = .ok (make operand, rest) := by
  subst h
  simp [takeOperand]

theorem decode_encode_literal {bytes : Bytes} (rest : Bytes)
    (h : (literal bytes).WithinLimits) :
    decode ((literal bytes).encode ++ rest) = .ok (.literal bytes, rest) := by
  obtain ⟨positive, small⟩ : 1 ≤ bytes.length ∧ bytes.length ≤ 128 := h
  have count : (bytes.length - 1) % 128 = bytes.length - 1 :=
    Nat.mod_eq_of_lt (by omega)
  show decodeTagged (0x80 + (bytes.length - 1) % 128).toUInt8 (bytes ++ rest)
    = _
  rw [count, decodeTagged_toUInt8 (by omega), if_pos (by omega)]
  exact takeOperand_append .literal rest (by omega)

theorem decode_encode_skip {count : Nat} (rest : Bytes)
    (h : (skip count).WithinLimits) :
    decode ((skip count).encode ++ rest) = .ok (.skip count, rest) := by
  obtain ⟨positive, small⟩ : 1 ≤ count ∧ count ≤ 64 := h
  have fits : (count - 1) % 64 = count - 1 := Nat.mod_eq_of_lt (by omega)
  have back : 0x40 + (count - 1) - 0x3F = count := by omega
  show decodeTagged (0x40 + (count - 1) % 64).toUInt8 rest = _
  rw [fits, decodeTagged_toUInt8 (by omega), if_neg (by omega),
    if_pos (by omega), back]

theorem decode_encode_fill {value : UInt8} {count : Nat} (rest : Bytes)
    (h : (fill value count).WithinLimits) :
    decode ((fill value count).encode ++ rest)
      = .ok (.fill value count, rest) := by
  obtain ⟨atLeast, small⟩ : 2 ≤ count ∧ count ≤ 33 := h
  have fits : (count - 2) % 32 = count - 2 := Nat.mod_eq_of_lt (by omega)
  have back : 0x20 + (count - 2) - 0x1E = count := by omega
  show decodeTagged (0x20 + (count - 2) % 32).toUInt8 (value :: rest) = _
  rw [fits, decodeTagged_toUInt8 (by omega), if_neg (by omega),
    if_neg (by omega), if_pos (by omega), back]
  rfl

theorem decode_encode_fillOnes {count : Nat} (rest : Bytes)
    (h : (fillOnes count).WithinLimits) :
    decode ((fillOnes count).encode ++ rest)
      = .ok (.fillOnes count, rest) := by
  obtain ⟨positive, small⟩ : 1 ≤ count ∧ count ≤ 16 := h
  have fits : (count - 1) % 16 = count - 1 := Nat.mod_eq_of_lt (by omega)
  have back : 0x10 + (count - 1) - 0x0F = count := by omega
  show decodeTagged (0x10 + (count - 1) % 16).toUInt8 rest = _
  rw [fits, decodeTagged_toUInt8 (by omega), if_neg (by omega),
    if_neg (by omega), if_neg (by omega), if_pos (by omega), back]

theorem decode_encode_pattern (shape : Pattern) (rest : Bytes) :
    decode ((pattern shape).encode ++ rest) = .ok (.pattern shape, rest) := by
  cases shape <;> rfl

/-- An instruction within its limits is read back, and what follows it is
    left. -/
theorem decode_encode {i : Instruction} (rest : Bytes)
    (h : i.WithinLimits) : decode (i.encode ++ rest) = .ok (i, rest) := by
  cases i with
  | stop => rfl
  | literal bytes => exact decode_encode_literal rest h
  | skip count => exact decode_encode_skip rest h
  | fill value count => exact decode_encode_fill rest h
  | fillOnes count => exact decode_encode_fillOnes rest h
  | pattern shape => exact decode_encode_pattern shape rest

end Handheld.Compression.Instruction
