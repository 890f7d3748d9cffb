import Handheld.Compression.Encoding
import Handheld.Compression.Expansion
import Handheld.Proofs.Compression.Codec

/-! # Execution — what code does to an output

    An output is seen as the bytes before the cursor and the zeros after
    it.  Code that fits into the zeros puts its content in their place; code
    that does not is refused:

    • `content` are the bytes that an instruction stands for;
    • `execute_on_zeros` and `execute_overrun` say what one instruction
      does;
    • `runCode_on_zeros` and `runCode_overrun` say it of the code of a
      pass, by induction on the code;
    • `runPass_on_zeros` and `runPass_overrun` say it of a whole pass. -/

namespace Handheld.Compression

namespace Instruction

/-! ## Content -/

/-- The bytes that an instruction leaves in an output of zeros. -/
def content : Instruction → Bytes
  | .stop => []
  | .literal bytes => bytes
  | .skip count => List.replicate count 0
  | .fill value count => List.replicate count value
  | .fillOnes count => List.replicate count 0xFF
  | .pattern shape => shape.expansion

theorem length_content (i : Instruction) :
    i.content.length = i.outputLength := by
  cases i with
  | stop => rfl
  | literal bytes => rfl
  | skip count => exact List.length_replicate
  | fill value count => exact List.length_replicate
  | fillOnes count => exact List.length_replicate
  | pattern shape => exact shape.length_expansion

/-- Instructions that a pass may have before its end mark. -/
def IsStep (i : Instruction) : Prop :=
  i.WithinLimits ∧ i ≠ .stop

/-! ## One instruction -/

/-- Storing bytes replaces a window of their length. -/
theorem toList_store {output : Array UInt8} {before old after bytes : Bytes}
    (h : output.toList = before ++ (old ++ after))
    (same : bytes.length = old.length) :
    (store output before.length bytes).toList
      = before ++ (bytes ++ after) := by
  induction bytes generalizing output before old with
  | nil =>
      rw [List.length_nil] at same
      rw [List.length_eq_zero_iff.mp same.symm] at h
      exact h
  | cons b bytes ih =>
      cases old with
      | nil => exact absurd same (Nat.succ_ne_zero _)
      | cons o old =>
          have written : (output.setIfInBounds before.length b).toList
              = (before ++ [b]) ++ (old ++ after) := by
            simp [h]
          have stored := ih written (Nat.succ.inj same)
          rw [List.length_append] at stored
          simpa [store] using stored

/-- Over zeros, an instruction leaves its content. -/
theorem toList_apply {i : Instruction} {output : Array UInt8}
    {before after : Bytes}
    (h : output.toList
      = before ++ (List.replicate i.outputLength 0 ++ after)) :
    (i.apply output before.length).toList
      = before ++ (i.content ++ after) := by
  have same : i.content.length
      = (List.replicate i.outputLength (0 : UInt8)).length := by
    rw [length_content, List.length_replicate]
  cases i with
  | stop => exact h
  | literal bytes => exact toList_store h same
  | skip count => exact h
  | fill value count => exact toList_store h same
  | fillOnes count => exact toList_store h same
  | pattern shape => exact toList_store h same

theorem size_apply (i : Instruction) (output : Array UInt8) (cursor : Nat) :
    (i.apply output cursor).size = output.size := by
  cases i <;> simp [apply, size_store]

/-- An instruction that fits into the zeros puts its content in their
    place. -/
theorem execute_on_zeros {i : Instruction} {output : Array UInt8}
    {before : Bytes} {room : Nat}
    (h : output.toList = before ++ List.replicate room 0)
    (fits : i.outputLength ≤ room) :
    ∃ after : Array UInt8,
      i.execute output before.length
        = .ok (after, (before ++ i.content).length)
      ∧ after.toList = before ++ i.content
          ++ List.replicate (room - i.outputLength) 0 := by
  have size : output.size = before.length + room := by
    rw [← Array.length_toList, h]
    simp
  have zeros : List.replicate room (0 : UInt8)
      = List.replicate i.outputLength 0
        ++ List.replicate (room - i.outputLength) 0 := by
    rw [List.replicate_append_replicate]
    congr 1
    omega
  rw [zeros] at h
  refine ⟨i.apply output before.length, ?_, ?_⟩
  · rw [execute, if_pos (by omega), List.length_append, length_content]
  · rw [toList_apply h, List.append_assoc]

/-- An instruction that leaves the output is refused. -/
theorem execute_overrun {i : Instruction} {output : Array UInt8}
    {cursor : Nat} (h : output.size < cursor + i.outputLength) :
    i.execute output cursor
      = .error (.outputOverrun cursor i.outputLength output.size) := by
  rw [execute, if_neg (by omega)]

end Instruction

/-! ## The code of a pass -/

/-- The bytes that code stands for. -/
def contentOf (code : List Instruction) : Bytes :=
  code.flatMap Instruction.content

theorem contentOf_cons (i : Instruction) (code : List Instruction) :
    contentOf (i :: code) = i.content ++ contentOf code := rfl

/-- Running code executes the instruction that is read first, unless it is
    the end mark. -/
theorem runCode_of_decode {total cursor : Nat} {input rest : Bytes}
    {i : Instruction} {output : Array UInt8}
    (h : Instruction.decode input = .ok (i, rest)) (step : i ≠ .stop) :
    runCode total input output cursor
      = match i.execute output cursor with
        | .error e => .error e
        | .ok (output, cursor) => runCode total rest output cursor := by
  rw [runCode]
  split
  · next fault e => rw [h] at e; cases e
  · next e =>
      rw [h] at e
      cases e
      exact absurd rfl step
  · next e =>
      rw [h] at e
      cases e
      rfl

/-- Running code ends at the end mark. -/
theorem runCode_stop (total cursor : Nat) (rest : Bytes)
    (output : Array UInt8) :
    runCode total (Instruction.stop.encode ++ rest) output cursor
      = .ok (rest, output) := by
  have h : Instruction.decode (Instruction.stop.encode ++ rest)
      = .ok (.stop, rest) := rfl
  rw [runCode]
  split
  · next e => rw [h] at e; cases e
  · next e => rw [h] at e; cases e; rfl
  · next stop e => rw [h] at e; cases e; exact (stop rfl).elim

/-- Code with an end mark, and what follows it. -/
def closed (code : List Instruction) (rest : Bytes) : Bytes :=
  code.flatMap Instruction.encode ++ (Instruction.stop.encode ++ rest)

/-- The instruction in front of closed code is read first. -/
theorem decode_closed_cons {i : Instruction} (h : i.WithinLimits)
    (code : List Instruction) (rest : Bytes) :
    Instruction.decode (closed (i :: code) rest)
      = .ok (i, closed code rest) := by
  have e : closed (i :: code) rest = i.encode ++ closed code rest := by
    simp [closed]
  rw [e]
  exact Instruction.decode_encode _ h

/-- Code that fits into the zeros puts its content in their place. -/
theorem runCode_on_zeros {code : List Instruction}
    (steps : ∀ i ∈ code, i.IsStep) (total : Nat) (rest : Bytes)
    {output : Array UInt8} {before : Bytes} {room : Nat}
    (h : output.toList = before ++ List.replicate room 0)
    (fits : (contentOf code).length ≤ room) :
    ∃ after : Array UInt8,
      runCode total (closed code rest) output before.length
        = .ok (rest, after)
      ∧ after.toList = before ++ contentOf code
          ++ List.replicate (room - (contentOf code).length) 0 := by
  -- one step moves the content of an instruction to the bytes before the
  -- cursor, so both they and the room vary
  induction code generalizing output before room with
  | nil =>
      refine ⟨output, runCode_stop total _ rest output, ?_⟩
      simpa [contentOf] using h
  | cons i code ih =>
      obtain ⟨within, step⟩ := steps i (by simp)
      rw [contentOf_cons, List.length_append,
        Instruction.length_content] at fits
      obtain ⟨middle, executed, written⟩ :=
        Instruction.execute_on_zeros h (i := i) (by omega)
      obtain ⟨after, ran, restored⟩ :=
        ih (fun j hj => steps j (by simp [hj])) written (by omega)
      refine ⟨after, ?_, ?_⟩
      · rw [runCode_of_decode (decode_closed_cons within code rest) step,
          executed]
        exact ran
      · rw [restored, contentOf_cons, List.length_append,
          Instruction.length_content, Nat.sub_sub]
        simp

/-- Code that leaves the output is refused. -/
theorem runCode_overrun {code : List Instruction}
    (steps : ∀ i ∈ code, i.IsStep) (total : Nat) (rest : Bytes)
    {output : Array UInt8} {cursor : Nat} (inside : cursor ≤ output.size)
    (h : output.size < cursor + (contentOf code).length) :
    ∃ position length, runCode total (closed code rest) output cursor
      = .error (.outputOverrun position length output.size) := by
  induction code generalizing output cursor with
  | nil =>
      simp only [contentOf, List.flatMap_nil, List.length_nil] at h
      omega
  | cons i code ih =>
      obtain ⟨within, step⟩ := steps i (by simp)
      rw [contentOf_cons, List.length_append,
        Instruction.length_content] at h
      rw [runCode_of_decode (decode_closed_cons within code rest) step]
      -- instructions that fit keep the size of the output, and the first
      -- one that does not is refused
      by_cases fits : cursor + i.outputLength ≤ output.size
      · rw [Instruction.execute, if_pos fits]
        have size := Instruction.size_apply i output cursor
        have later : ∀ j ∈ code, j.IsStep := fun j hj =>
          steps j (by simp [hj])
        rw [← size] at fits h ⊢
        exact ih later fits (by omega)
      · rw [Instruction.execute_overrun (by omega)]
        exact ⟨cursor, i.outputLength, rfl⟩

/-! ## A pass -/

/-- Passes that can be written: they start at a position of 32 bits and
    consist of steps. -/
structure Pass.IsSound (pass : Pass) : Prop where
  start_lt : pass.start < wordLimit
  steps : ∀ i ∈ pass.code, i.IsStep

/-- The start of an encoded pass, and the code that follows it. -/
theorem encode_append (pass : Pass) (rest : Bytes) :
    pass.encode ++ rest
      = Bytes.bigEndian 4 pass.start ++ closed pass.code (0x00 :: rest) := by
  simp [Pass.encode, closed]

/-- The start of a pass is read back, and refused if it is outside of the
    output. -/
theorem passStart_encode {pass : Pass} (h : pass.start < wordLimit)
    (total size : Nat) (rest : Bytes) :
    passStart total size (pass.encode ++ rest)
      = if pass.start ≤ size then
          .ok (pass.start, closed pass.code (0x00 :: rest))
        else .error (.outputOverrun pass.start 0 size) := by
  have four := Bytes.length_bigEndian 4 pass.start
  have field : (pass.encode ++ rest).take 4
      = Bytes.bigEndian 4 pass.start := by
    rw [encode_append, ← four]
    exact List.take_left
  have code : (pass.encode ++ rest).drop 4
      = closed pass.code (0x00 :: rest) := by
    rw [encode_append, ← four]
    exact List.drop_left
  have start : Bytes.value (Bytes.bigEndian 4 pass.start) = pass.start := by
    rw [Bytes.value_bigEndian]
    exact Nat.mod_eq_of_lt h
  rw [passStart, field, code, start, if_pos four]

/-- A pass that fits into the zeros puts its content in their place. -/
theorem runPass_on_zeros {pass : Pass} (sound : pass.IsSound)
    (total : Nat) (rest : Bytes) {output : Array UInt8} {before : Bytes}
    {room : Nat} (h : output.toList = before ++ List.replicate room 0)
    (start : pass.start = before.length)
    (fits : (contentOf pass.code).length ≤ room) :
    ∃ after : Array UInt8,
      runPass total (pass.encode ++ rest) output = .ok (rest, after)
      ∧ after.toList = before ++ contentOf pass.code
          ++ List.replicate (room - (contentOf pass.code).length) 0 := by
  have size : output.size = before.length + room := by
    rw [← Array.length_toList, h]
    simp
  obtain ⟨after, ran, written⟩ :=
    runCode_on_zeros sound.steps total (0x00 :: rest) h fits
  refine ⟨after, ?_, written⟩
  rw [runPass, passStart_encode sound.start_lt, if_pos (by omega), start]
  simp only [ran]

/-- A pass that leaves the output is refused, be it at its start or at an
    instruction. -/
theorem runPass_overrun {pass : Pass} (sound : pass.IsSound)
    (total : Nat) (rest : Bytes) {output : Array UInt8}
    (h : output.size < pass.start + (contentOf pass.code).length) :
    ∃ position length, runPass total (pass.encode ++ rest) output
      = .error (.outputOverrun position length output.size) := by
  rw [runPass, passStart_encode sound.start_lt]
  by_cases inside : pass.start ≤ output.size
  · obtain ⟨position, length, overran⟩ :=
      runCode_overrun sound.steps total (0x00 :: rest) inside h
    refine ⟨position, length, ?_⟩
    rw [if_pos inside]
    simp only [overran]
  · refine ⟨pass.start, 0, ?_⟩
    rw [if_neg inside]

end Handheld.Compression
