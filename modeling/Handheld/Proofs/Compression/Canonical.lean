import Handheld.Proofs.Bytes
import Handheld.Proofs.Compression.Codec

/-! # Canonical instructions — what is read is what would be written

    Reading an instruction ends in one of three ways, and the tag together
    with the number of bytes after it decides which:

    • `operandLength?` is the number of bytes that belong to a tag; the tags
      from 5 to 15 begin no instruction and have none;
    • `Outcome` lists the ways, with one lemma for each class of tags, and
      `decodeTagged_outcome` says that there is no other;
    • `decodeAt_canonical`: the instructions within their limits and the
      bytes that can be read determine each other, at every position of
      every string. -/

namespace Handheld.Compression

/-! ## Operands -/

/-- Only four tags are those of patterns. -/
theorem Pattern.payloadLength?_eq_none_iff (tag : UInt8) :
    payloadLength? tag = none ↔ tag.toNat = 0 ∨ 5 ≤ tag.toNat := by
  simp only [payloadLength?, ← UInt8.toNat_inj, UInt8.reduceToNat]
  split
  · simp [*]
  · split
    · simp [*]
    · split
      · simp [*]
      · split
        · simp [*]
        · simp only [true_iff]
          omega

namespace Instruction

/-- The number of bytes after a tag that belong to its instruction, if it
    begins one. -/
def operandLength? (tag : UInt8) : Option Nat :=
  if 0x80 ≤ tag.toNat then some (tag.toNat - 0x7F)
  else if 0x40 ≤ tag.toNat then some 0
  else if 0x20 ≤ tag.toNat then some 1
  else if 0x10 ≤ tag.toNat then some 0
  else if tag.toNat = 0 then some 0
  else Pattern.payloadLength? tag

/-- The tags that begin no instruction. -/
theorem operandLength?_eq_none_iff (tag : UInt8) :
    operandLength? tag = none ↔ 5 ≤ tag.toNat ∧ tag.toNat ≤ 15 := by
  by_cases pattern : tag.toNat < 0x10 ∧ tag.toNat ≠ 0
  · rw [operandLength?, if_neg (by omega), if_neg (by omega),
      if_neg (by omega), if_neg (by omega), if_neg (by omega),
      Pattern.payloadLength?_eq_none_iff]
    omega
  · have known : (operandLength? tag).isSome := by
      rw [operandLength?]
      split
      · rfl
      · split
        · rfl
        · split
          · rfl
          · split
            · rfl
            · rw [if_pos (by omega)]
              rfl
    rw [← Option.not_isSome_iff_eq_none]
    exact iff_of_false (not_not_intro known) (by omega)

/-! ## One class of tags after the other -/

/-- What reading an instruction comes to, by its tag and what follows. -/
inductive Outcome (tag : UInt8) (input : Bytes) :
    Except Fault (Instruction × Bytes) → Prop where
  | unknown : operandLength? tag = none →
      Outcome tag input (.error (.tagUnknown tag))
  | missing (count : Nat) : operandLength? tag = some count →
      input.length < count → Outcome tag input (.error .operandMissing)
  | made (count : Nat) (i : Instruction) :
      operandLength? tag = some count → count ≤ input.length →
      i.WithinLimits → i.encode = tag :: input.take count →
      Outcome tag input (.ok (i, input.drop count))

/-- A tag is written as the number that it is. -/
theorem toUInt8_eq_tag {n : Nat} {tag : UInt8} (h : n = tag.toNat) :
    n.toUInt8 = tag := by
  rw [h]
  exact UInt8.ofNat_toNat

theorem outcome_literal {tag : UInt8} (low : 0x80 ≤ tag.toNat)
    (input : Bytes) :
    Outcome tag input (takeOperand (tag.toNat - 0x7F) .literal input) := by
  have high := tag.toNat_lt
  have operand : operandLength? tag = some (tag.toNat - 0x7F) := if_pos low
  rw [takeOperand]
  split
  case isTrue size =>
    refine .made _ _ operand ?_ ?_ ?_
    · rw [List.length_take] at size
      omega
    · show 1 ≤ (input.take _).length ∧ (input.take _).length ≤ 128
      rw [size]
      omega
    · have back : 0x80 + (tag.toNat - 0x7F - 1) % maxLiteral = tag.toNat := by
        rw [maxLiteral]
        omega
      rw [encode, size, toUInt8_eq_tag back]
  case isFalse short =>
    refine .missing _ operand ?_
    rw [List.length_take] at short
    omega

theorem outcome_skip {tag : UInt8} (low : 0x40 ≤ tag.toNat)
    (high : tag.toNat < 0x80) (input : Bytes) :
    Outcome tag input (.ok (.skip (tag.toNat - 0x3F), input)) := by
  have operand : operandLength? tag = some 0 := by
    rw [operandLength?, if_neg (by omega), if_pos low]
  refine .made 0 _ operand (Nat.zero_le _) ?_ ?_
  · show 1 ≤ tag.toNat - 0x3F ∧ tag.toNat - 0x3F ≤ 64
    omega
  · have back : 0x40 + (tag.toNat - 0x3F - 1) % maxSkip = tag.toNat := by
      rw [maxSkip]
      omega
    rw [encode, toUInt8_eq_tag back, List.take_zero]

theorem outcome_fill {tag : UInt8} (low : 0x20 ≤ tag.toNat)
    (high : tag.toNat < 0x40) (input : Bytes) :
    Outcome tag input (decodeFill (tag.toNat - 0x1E) input) := by
  have operand : operandLength? tag = some 1 := by
    rw [operandLength?, if_neg (by omega), if_neg (by omega), if_pos low]
  cases input with
  | nil => exact .missing 1 operand Nat.zero_lt_one
  | cons value input =>
      refine .made 1 _ operand (Nat.succ_pos _) ?_ ?_
      · show 2 ≤ tag.toNat - 0x1E ∧ tag.toNat - 0x1E ≤ 33
        omega
      · have back : 0x20 + (tag.toNat - 0x1E - minFill) % 32 = tag.toNat := by
          rw [minFill]
          omega
        rw [encode, toUInt8_eq_tag back]
        rfl

theorem outcome_fillOnes {tag : UInt8} (low : 0x10 ≤ tag.toNat)
    (high : tag.toNat < 0x20) (input : Bytes) :
    Outcome tag input (.ok (.fillOnes (tag.toNat - 0x0F), input)) := by
  have operand : operandLength? tag = some 0 := by
    rw [operandLength?, if_neg (by omega), if_neg (by omega),
      if_neg (by omega), if_pos low]
  refine .made 0 _ operand (Nat.zero_le _) ?_ ?_
  · show 1 ≤ tag.toNat - 0x0F ∧ tag.toNat - 0x0F ≤ 16
    omega
  · have back : 0x10 + (tag.toNat - 0x0F - 1) % maxFillOnes = tag.toNat := by
      rw [maxFillOnes]
      omega
    rw [encode, toUInt8_eq_tag back, List.take_zero]

/-- A payload of the right size makes the pattern of its tag. -/
theorem exists_ofPayload? {tag : UInt8} {payload : Bytes}
    (h : Pattern.payloadLength? tag = some payload.length) :
    ∃ shape, Pattern.ofPayload? tag payload = some shape
      ∧ shape.tag = tag ∧ shape.payload = payload := by
  rw [Pattern.payloadLength?] at h
  split at h
  case isTrue one =>
    obtain ⟨a, b, rfl⟩ := List.length_eq_two.mp (Option.some.inj h).symm
    subst one
    exact ⟨.onesWord a b, rfl, rfl, rfl⟩
  case isFalse =>
    split at h
    case isTrue two =>
      obtain ⟨a, b, rfl⟩ := List.length_eq_two.mp (Option.some.inj h).symm
      subst two
      exact ⟨.zeroOnesWord a b, rfl, rfl, rfl⟩
    case isFalse =>
      split at h
      case isTrue three =>
        obtain ⟨a, b, c, rfl⟩ :=
          List.length_eq_three.mp (Option.some.inj h).symm
        subst three
        exact ⟨.shortTrap a b c, rfl, rfl, rfl⟩
      case isFalse =>
        split at h
        case isTrue four =>
          obtain ⟨a, rest, rfl⟩ :=
            List.exists_cons_of_length_eq_add_one (Option.some.inj h).symm
          obtain ⟨b, c, d, rfl⟩ :=
            List.length_eq_three.mp (Nat.succ.inj (Option.some.inj h)).symm
          subst four
          exact ⟨.longTrap a b c d, rfl, rfl, rfl⟩
        case isFalse => cases h

theorem outcome_pattern {tag : UInt8} (positive : tag.toNat ≠ 0)
    (high : tag.toNat < 0x10) (input : Bytes) :
    Outcome tag input (decodePattern tag input) := by
  have operand : operandLength? tag = Pattern.payloadLength? tag := by
    rw [operandLength?, if_neg (by omega), if_neg (by omega),
      if_neg (by omega), if_neg (by omega), if_neg positive]
  rw [decodePattern]
  split
  case h_1 none => exact .unknown (operand.trans none)
  case h_2 count some =>
    dsimp only
    split
    case isTrue size =>
      have fits : Pattern.payloadLength? tag
          = Option.some (input.take count).length := by rw [some, size]
      obtain ⟨shape, made, tag_eq, payload_eq⟩ := exists_ofPayload? fits
      rw [made]
      refine .made count _ (operand.trans some) ?_ trivial ?_
      · rw [List.length_take] at size
        omega
      · rw [encode, tag_eq, payload_eq]
    case isFalse short =>
      refine .missing count (operand.trans some) ?_
      rw [List.length_take] at short
      omega

/-- Reading an instruction has no other outcome. -/
theorem decodeTagged_outcome (tag : UInt8) (input : Bytes) :
    Outcome tag input (decodeTagged tag input) := by
  have numbers := decodeTagged_toUInt8 tag.toNat_lt input
  rw [toUInt8_eq_tag rfl] at numbers
  rw [numbers]
  split
  case isTrue low => exact outcome_literal low input
  case isFalse =>
    split
    case isTrue low => exact outcome_skip low (by omega) input
    case isFalse =>
      split
      case isTrue low => exact outcome_fill low (by omega) input
      case isFalse =>
        split
        case isTrue low => exact outcome_fillOnes low (by omega) input
        case isFalse =>
          split
          case isTrue zero =>
            have operand : operandLength? tag = some 0 := by
              rw [operandLength?, if_neg (by omega), if_neg (by omega),
                if_neg (by omega), if_neg (by omega), if_pos zero]
            refine .made 0 .stop operand (Nat.zero_le _) trivial ?_
            have tag_eq : (0x00 : UInt8) = tag :=
              UInt8.toNat_inj.mp zero.symm
            rw [encode, List.take_zero, tag_eq]
          case isFalse positive => exact outcome_pattern positive (by omega) input

/-! ## Instructions in their place -/

/-- What reading an instruction at a position comes to. -/
inductive OutcomeAt (bytes : Bytes) (position : Nat) :
    Except Error Instruction × Nat → Prop where
  | atEnd : bytes.length ≤ position →
      OutcomeAt bytes position (.error (.truncated position), position)
  | unknown (tag : UInt8) : bytes[position]? = some tag →
      operandLength? tag = none →
      OutcomeAt bytes position
        (.error (.unknownTag tag position), position + 1)
  | missing (tag : UInt8) (count : Nat) : bytes[position]? = some tag →
      operandLength? tag = some count →
      bytes.length < position + 1 + count →
      OutcomeAt bytes position
        (.error (.truncated bytes.length), position + 1)
  | made (tag : UInt8) (count : Nat) (i : Instruction) :
      bytes[position]? = some tag → operandLength? tag = some count →
      position + 1 + count ≤ bytes.length → i.WithinLimits →
      i.encode = Bytes.slice bytes position (1 + count) →
      OutcomeAt bytes position (.ok i, position + 1 + count)

theorem decodeAt_outcome (bytes : Bytes) (position : Nat) :
    OutcomeAt bytes position (decodeAt bytes position) := by
  by_cases inside : position < bytes.length
  · have front : bytes.drop position
        = bytes[position] :: bytes.drop (position + 1) :=
      List.drop_eq_getElem_cons inside
    have there : bytes[position]? = some bytes[position] :=
      List.getElem?_eq_getElem inside
    have size : (bytes.drop (position + 1)).length
        = bytes.length - (position + 1) := List.length_drop
    have outcome :=
      decodeTagged_outcome bytes[position] (bytes.drop (position + 1))
    rw [decodeAt, front, decode]
    generalize decodeTagged bytes[position] (bytes.drop (position + 1))
      = read at outcome
    cases outcome with
    | unknown none =>
        have place : bytes.length
            - (bytes[position] :: bytes.drop (position + 1)).length
              = position := by
          rw [List.length_cons, size]
          omega
        show OutcomeAt bytes position (.error (.unknownTag _ _), _)
        rw [place]
        exact .unknown _ there none
    | missing count some short =>
        exact .missing _ count there some (by omega)
    | made count i some enough within written =>
        have next : bytes.length
            - ((bytes.drop (position + 1)).drop count).length
              = position + 1 + count := by
          rw [List.length_drop, size]
          omega
        show OutcomeAt bytes position (.ok i, _)
        rw [next]
        refine .made _ count i there some (by omega) within ?_
        rw [written, Bytes.slice, front, Nat.add_comm 1 count,
          List.take_succ_cons]
  · have nothing : bytes.drop position = [] :=
      List.drop_eq_nil_iff.mpr (Nat.le_of_not_lt inside)
    rw [decodeAt, nothing]
    exact .atEnd (Nat.le_of_not_lt inside)

/-- Reading fails for the tag exactly at those that begin no instruction. -/
theorem decodeAt_eq_unknownTag_iff (bytes : Bytes) (position start : Nat)
    (tag : UInt8) :
    (decodeAt bytes position).1 = .error (.unknownTag tag start)
      ↔ start = position ∧ bytes[position]? = some tag
        ∧ 5 ≤ tag.toNat ∧ tag.toNat ≤ 15 := by
  have outcome := decodeAt_outcome bytes position
  generalize decodeAt bytes position = read at outcome
  rw [← operandLength?_eq_none_iff]
  constructor
  · intro failed
    cases outcome with
    | unknown tag there none =>
        cases failed
        exact ⟨rfl, there, none⟩
    | atEnd => cases failed
    | missing => cases failed
    | made => cases failed
  · rintro ⟨rfl, there, none⟩
    cases outcome with
    | unknown tag' there' _ =>
        rw [Option.some.inj (there.symm.trans there')]
    | atEnd outside =>
        cases (List.getElem?_eq_none outside).symm.trans there
    | missing tag' count there' some _ =>
        rw [Option.some.inj (there.symm.trans there'), some] at none
        cases none
    | made tag' count _ there' some _ _ _ =>
        rw [Option.some.inj (there.symm.trans there'), some] at none
        cases none

/-- Reading fails for the end of the bytes exactly if the tag or a part of
    its operand is missing. -/
theorem decodeAt_eq_truncated_iff (bytes : Bytes) (position stop : Nat) :
    (decodeAt bytes position).1 = .error (.truncated stop)
      ↔ (stop = position ∧ bytes.length ≤ position)
        ∨ (stop = bytes.length ∧ ∃ tag count,
          bytes[position]? = some tag ∧ operandLength? tag = some count
            ∧ bytes.length < position + 1 + count) := by
  have outcome := decodeAt_outcome bytes position
  generalize decodeAt bytes position = read at outcome
  constructor
  · intro failed
    cases outcome with
    | unknown => cases failed
    | atEnd outside =>
        cases failed
        exact .inl ⟨rfl, outside⟩
    | missing tag count there some short =>
        cases failed
        exact .inr ⟨rfl, tag, count, there, some, short⟩
    | made => cases failed
  · rintro (⟨rfl, outside⟩ | ⟨rfl, tag, count, there, some, short⟩)
    · have nothing : bytes[stop]? = none := List.getElem?_eq_none outside
      cases outcome with
      | atEnd => rfl
      | unknown _ there _ => cases nothing.symm.trans there
      | missing _ _ there _ _ => cases nothing.symm.trans there
      | made _ _ _ there _ _ _ _ => cases nothing.symm.trans there
    · cases outcome with
      | missing => rfl
      | atEnd outside =>
          cases (List.getElem?_eq_none outside).symm.trans there
      | unknown tag' there' none =>
          rw [Option.some.inj (there.symm.trans there'), none] at some
          cases some
      | made tag' count' _ there' some' enough _ _ =>
          obtain rfl := Option.some.inj (there.symm.trans there')
          obtain rfl := Option.some.inj (some.symm.trans some')
          omega

/-- An instruction is read back wherever it stands. -/
theorem decodeAt_encode {i : Instruction} (before rest : Bytes)
    (h : i.WithinLimits) :
    decodeAt (before ++ i.encode ++ rest) before.length
      = (.ok i, before.length + i.encode.length) := by
  have front : (before ++ i.encode ++ rest).drop before.length
      = i.encode ++ rest := by
    rw [List.append_assoc, List.drop_left]
  have next : (before ++ i.encode ++ rest).length - rest.length
      = before.length + i.encode.length := by
    rw [List.length_append, List.length_append]
    omega
  rw [decodeAt, front, decode_encode rest h]
  show (_, _) = _
  rw [next]

/-- What is read has just the bytes that were read. -/
theorem encode_of_decodeAt {bytes : Bytes} {position next : Nat}
    {i : Instruction} (h : decodeAt bytes position = (.ok i, next)) :
    i.WithinLimits ∧ position < next ∧ next ≤ bytes.length
      ∧ i.encode = Bytes.slice bytes position (next - position) := by
  have outcome := decodeAt_outcome bytes position
  rw [h] at outcome
  cases outcome with
  | made tag count _ there some enough within written =>
      refine ⟨within, by omega, enough, ?_⟩
      rw [written, Nat.add_assoc, Nat.add_sub_cancel_left]

/-- **Instructions and their bytes determine each other.**  An instruction
    within its limits is read back wherever it stands, and reading ends
    where its bytes do.  Whatever is read is within its limits, is not
    empty, and has just the bytes that were read.  Reading fails for the tag
    exactly at the tags from 5 to 15, and for the end of the bytes exactly
    if the tag or a part of its operand is missing. -/
theorem decodeAt_canonical :
    (∀ (i : Instruction) (before rest : Bytes), i.WithinLimits →
      decodeAt (before ++ i.encode ++ rest) before.length
        = (.ok i, before.length + i.encode.length))
    ∧ (∀ (bytes : Bytes) (position next : Nat) (i : Instruction),
      decodeAt bytes position = (.ok i, next) →
        i.WithinLimits ∧ position < next ∧ next ≤ bytes.length
          ∧ i.encode = Bytes.slice bytes position (next - position))
    ∧ (∀ (bytes : Bytes) (position start : Nat) (tag : UInt8),
      (decodeAt bytes position).1 = .error (.unknownTag tag start)
        ↔ start = position ∧ bytes[position]? = some tag
          ∧ 5 ≤ tag.toNat ∧ tag.toNat ≤ 15)
    ∧ (∀ (bytes : Bytes) (position stop : Nat),
      (decodeAt bytes position).1 = .error (.truncated stop)
        ↔ (stop = position ∧ bytes.length ≤ position)
          ∨ (stop = bytes.length ∧ ∃ tag count,
            bytes[position]? = some tag ∧ operandLength? tag = some count
              ∧ bytes.length < position + 1 + count)) := by
  refine ⟨?_, ?_, decodeAt_eq_unknownTag_iff, decodeAt_eq_truncated_iff⟩
  · intro i before rest within
    exact decodeAt_encode before rest within
  · intro bytes position next i read
    exact encode_of_decodeAt read

/-- A literal between a skip and a tag that begins nothing. -/
theorem decodeAt_canonical_literal :
    (literal [0x4E, 0x75]).WithinLimits
      ∧ decodeAt [0x41, 0x81, 0x4E, 0x75, 0x05] 1
        = (.ok (literal [0x4E, 0x75]), 4)
      ∧ (literal [0x4E, 0x75]).encode
        = Bytes.slice [0x41, 0x81, 0x4E, 0x75, 0x05] 1 (4 - 1) := by
  obtain ⟨back, forth, -, -⟩ := decodeAt_canonical
  have within : (literal [0x4E, 0x75]).WithinLimits := by decide
  have read := back (literal [0x4E, 0x75]) [0x41] [0x05] within
  exact ⟨within, read, (forth _ _ _ _ read).2.2.2⟩

end Instruction

end Handheld.Compression
