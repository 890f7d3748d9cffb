import Handheld.Compression.Error
import Handheld.Compression.Pattern

/-! # Instructions — the code that restores a data segment

    An instruction begins with a tag byte:

    | tag         | meaning                                    |
    |-------------|--------------------------------------------|
    | `1nnn nnnn` | `n + 1` literal bytes follow               |
    | `01nn nnnn` | leave `n + 1` bytes of the output as it is |
    | `001n nnnn` | the next byte, `n + 2` times               |
    | `0001 nnnn` | the byte `FF`, `n + 1` times               |
    | `0000 0ppp` | pattern `p` of 1 to 4, its bytes follow    |
    | `0000 0000` | end of the pass                            |

    The remaining eleven tags begin no instruction. -/

namespace Handheld.Compression

/-- One step of an expansion. -/
inductive Instruction where
  /-- Ends the pass. -/
  | stop
  /-- Writes these bytes. -/
  | literal (bytes : Bytes)
  /-- Leaves `count` bytes as they are. -/
  | skip (count : Nat)
  /-- Writes `value` `count` times. -/
  | fill (value : UInt8) (count : Nat)
  /-- Writes `FF` `count` times. -/
  | fillOnes (count : Nat)
  /-- Writes what the pattern stands for. -/
  | pattern (shape : Pattern)
deriving DecidableEq

namespace Instruction

/-- The most bytes of one literal. -/
def maxLiteral : Nat := 128

/-- The most bytes of one skip. -/
def maxSkip : Nat := 64

/-- The fewest repetitions of one fill. -/
def minFill : Nat := 2

/-- The most repetitions of one fill. -/
def maxFill : Nat := 33

/-- The most repetitions of one fill with `FF`. -/
def maxFillOnes : Nat := 16

/-- The counts that the tag byte has room for. -/
def WithinLimits : Instruction → Prop
  | .stop => True
  | .literal bytes => 1 ≤ bytes.length ∧ bytes.length ≤ maxLiteral
  | .skip count => 1 ≤ count ∧ count ≤ maxSkip
  | .fill _ count => minFill ≤ count ∧ count ≤ maxFill
  | .fillOnes count => 1 ≤ count ∧ count ≤ maxFillOnes
  | .pattern _ => True

instance (i : Instruction) : Decidable i.WithinLimits := by
  cases i <;> unfold WithinLimits <;> infer_instance

/-! ## Encoding -/

/-- The bytes of an instruction; its counts are taken modulo the room of
    the tag. -/
def encode : Instruction → Bytes
  | .stop => [0x00]
  | .literal bytes =>
      (0x80 + (bytes.length - 1) % maxLiteral).toUInt8 :: bytes
  | .skip count => [(0x40 + (count - 1) % maxSkip).toUInt8]
  | .fill value count => [(0x20 + (count - minFill) % 32).toUInt8, value]
  | .fillOnes count => [(0x10 + (count - 1) % maxFillOnes).toUInt8]
  | .pattern shape => shape.tag :: shape.payload

/-! ## Decoding -/

/-- Why no instruction can be read. -/
inductive Fault where
  | tagMissing
  | operandMissing
  | tagUnknown (tag : UInt8)
deriving DecidableEq

/-- Cuts off the operand of `count` bytes and makes an instruction of
    it. -/
def takeOperand (count : Nat) (make : Bytes → Instruction) (input : Bytes) :
    Except Fault (Instruction × Bytes) :=
  let operand := input.take count
  if operand.length = count then .ok (make operand, input.drop count)
  else .error .operandMissing

/-- Reads the pattern instruction with a tag below 16. -/
def decodePattern (tag : UInt8) (input : Bytes) :
    Except Fault (Instruction × Bytes) :=
  match Pattern.payloadLength? tag with
  | none => .error (.tagUnknown tag)
  | some count =>
      let payload := input.take count
      if payload.length = count then
        match Pattern.ofPayload? tag payload with
        | some shape => .ok (.pattern shape, input.drop count)
        | none => .error (.tagUnknown tag)
      else .error .operandMissing

/-- Reads the fill instruction whose tag gives this count. -/
def decodeFill (count : Nat) : Bytes → Except Fault (Instruction × Bytes)
  | [] => .error .operandMissing
  | value :: input => .ok (.fill value count, input)

/-- Reads the instruction that begins with this tag. -/
def decodeTagged (tag : UInt8) (input : Bytes) :
    Except Fault (Instruction × Bytes) :=
  if 0x80 ≤ tag then takeOperand (tag.toNat - 0x7F) .literal input
  else if 0x40 ≤ tag then .ok (.skip (tag.toNat - 0x3F), input)
  else if 0x20 ≤ tag then decodeFill (tag.toNat - 0x1E) input
  else if 0x10 ≤ tag then .ok (.fillOnes (tag.toNat - 0x0F), input)
  else if tag = 0x00 then .ok (.stop, input)
  else decodePattern tag input

/-- Reads the instruction that the input begins with, and returns it with
    the rest of the input. -/
def decode : Bytes → Except Fault (Instruction × Bytes)
  | [] => .error .tagMissing
  | tag :: input => decodeTagged tag input

theorem takeOperand_length {count : Nat} {make : Bytes → Instruction}
    {input rest : Bytes} {i : Instruction}
    (h : takeOperand count make input = .ok (i, rest)) :
    rest.length ≤ input.length := by
  simp only [takeOperand] at h
  split at h
  · cases h
    simp
  · cases h

theorem decodePattern_length {tag : UInt8} {input rest : Bytes}
    {i : Instruction} (h : decodePattern tag input = .ok (i, rest)) :
    rest.length ≤ input.length := by
  simp only [decodePattern] at h
  split at h
  · cases h
  · split at h
    · split at h
      · cases h
        simp
      · cases h
    · cases h

theorem decodeFill_length {count : Nat} {input rest : Bytes}
    {i : Instruction} (h : decodeFill count input = .ok (i, rest)) :
    rest.length ≤ input.length := by
  cases input with
  | nil => cases h
  | cons value input =>
      cases h
      exact Nat.le_succ _

theorem decodeTagged_length {tag : UInt8} {input rest : Bytes}
    {i : Instruction} (h : decodeTagged tag input = .ok (i, rest)) :
    rest.length ≤ input.length := by
  rw [decodeTagged] at h
  split at h
  · exact takeOperand_length h
  · split at h
    · cases h
      exact Nat.le_refl _
    · split at h
      · exact decodeFill_length h
      · split at h
        · cases h
          exact Nat.le_refl _
        · split at h
          · cases h
            exact Nat.le_refl _
          · exact decodePattern_length h

/-- Reading an instruction uses up at least its tag. -/
theorem decode_length_lt {input rest : Bytes} {i : Instruction}
    (h : decode input = .ok (i, rest)) : rest.length < input.length := by
  cases input with
  | nil => cases h
  | cons tag input => exact Nat.lt_succ_of_le (decodeTagged_length h)

/-- A fault as an error: `total` is the length of all the data, `rest`
    what is left of it at the instruction. -/
def Fault.toError (total : Nat) (rest : Bytes) : Fault → Error
  | .tagMissing => .truncated (total - rest.length)
  | .operandMissing => .truncated total
  | .tagUnknown tag => .unknownTag tag (total - rest.length)

/-- Reads the instruction at a position of the input.  The position after
    it is that of its end; a tag that was read is passed also when what it
    begins cannot be read. -/
def decodeAt (input : Bytes) (position : Nat) : Except Error Instruction × Nat :=
  match decode (input.drop position) with
  | .ok (i, rest) => (.ok i, input.length - rest.length)
  | .error .tagMissing => (.error (.truncated position), position)
  | .error fault =>
      (.error (fault.toError input.length (input.drop position)), position + 1)

/-! ## Execution -/

/-- The number of output bytes that the instruction accounts for. -/
def outputLength : Instruction → Nat
  | .stop => 0
  | .literal bytes => bytes.length
  | .skip count => count
  | .fill _ count => count
  | .fillOnes count => count
  | .pattern shape => shape.outputLength

/-- Stores bytes into an output, one by one from a position on. -/
def store (output : Array UInt8) (position : Nat) : Bytes → Array UInt8
  | [] => output
  | b :: bytes => store (output.setIfInBounds position b) (position + 1) bytes

theorem size_store (output : Array UInt8) (position : Nat) (bytes : Bytes) :
    (store output position bytes).size = output.size := by
  induction bytes generalizing output position with
  | nil => rfl
  | cons b bytes ih => simp [store, ih]

/-- The output with the instruction's bytes in place. -/
def apply (i : Instruction) (output : Array UInt8) (cursor : Nat) :
    Array UInt8 :=
  match i with
  | .stop => output
  | .literal bytes => store output cursor bytes
  | .skip _ => output
  | .fill value count => store output cursor (List.replicate count value)
  | .fillOnes count => store output cursor (List.replicate count 0xFF)
  | .pattern shape => store output cursor shape.expansion

/-- Executes the instruction at the cursor, which moves past what was
    written.  An instruction that leaves the output is refused. -/
def execute (i : Instruction) (output : Array UInt8) (cursor : Nat) :
    Except Error (Array UInt8 × Nat) :=
  if cursor + i.outputLength ≤ output.size then
    .ok (i.apply output cursor, cursor + i.outputLength)
  else .error (.outputOverrun cursor i.outputLength output.size)

end Instruction

end Handheld.Compression
