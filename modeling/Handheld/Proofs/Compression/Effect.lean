import Handheld.Proofs.Compression.Guarded

/-! # Effect — what an instruction changes, and what it leaves alone

    Executing an instruction gives a new output and a new cursor, or an error
    and neither.  An expansion has one output and one cursor, which it changes
    in place: an error could come after half of a change.  Its positions also
    have a largest number, beyond which there are no sums.

    • `InPlace.execute` finds the window of an instruction by a checked sum,
      writes to it, and moves the cursor, one after the other;
    • `Instruction.leaves` are the bytes that the window holds afterwards;
    • `Instruction.IsExecuted` is the frame law of an instruction;
    • `execute_outcome`: the in-place execution does what executing does, and
      that follows the frame law. -/

namespace Handheld.Compression

/-! ## Changing an output in place -/

namespace InPlace

/-- What an expansion changes: the bytes of its output, and its cursor. -/
structure Output where
  bytes : Bytes
  cursor : Nat

/-- A sum of positions, unless it is beyond the largest one. -/
def checkedAdd? (most a b : Nat) : Option Nat :=
  if a + b ≤ most then some (a + b) else none

/-- Where the window of an instruction ends, if that is in the output. -/
def windowEnd? (most : Nat) (i : Instruction) (s : Output) : Option Nat :=
  (checkedAdd? most s.cursor i.outputLength).filter (· ≤ s.bytes.length)

/-- Executes an instruction at the cursor. -/
def execute (most : Nat) (i : Instruction) : EStateM Stop Output Unit := do
  let s ← get
  match windowEnd? most i s with
  | none =>
      throw (.refused
        (.outputOverrun s.cursor i.outputLength s.bytes.length))
  | some stop =>
      let target ← ofExcept (Guarded.window s.bytes s.cursor (stop - s.cursor))
      let bytes ← ofExcept (Guarded.rewritten target i)
      modify fun s => { s with bytes := Bytes.overwrite s.bytes s.cursor bytes }
      modify fun s => { s with cursor := stop }

/-- How an execution in place ends where executing has this outcome: an error
    leaves output and cursor as they were. -/
def ended (before : Output) :
    Except Error (Array UInt8 × Nat) → EStateM.Result Stop Output Unit
  | .ok (after, next) => .ok () ⟨after.toList, next⟩
  | .error e => .error (.refused e) before

variable {most : Nat} {i : Instruction} {s : Output}

/-- The window of an instruction that fits ends where the sum says. -/
theorem windowEnd?_eq_some (sized : s.bytes.length ≤ most)
    (fits : s.cursor + i.outputLength ≤ s.bytes.length) :
    windowEnd? most i s = some (s.cursor + i.outputLength) := by
  rw [windowEnd?, checkedAdd?, if_pos (Nat.le_trans fits sized)]
  exact Option.filter_some_pos (decide_eq_true fits)

/-- That of one that does not fit has no end, be the sum a position or
    not. -/
theorem windowEnd?_eq_none (short : s.bytes.length < s.cursor + i.outputLength) :
    windowEnd? most i s = none := by
  rw [windowEnd?, checkedAdd?]
  split
  · exact Option.filter_some_neg (by simpa using short)
  · rfl

end InPlace

/-! ## What is written -/

namespace Instruction

/-- What the window of an instruction holds after it, if it held `old`: the
    bytes of the instruction, or `old` if it passes over them. -/
def leaves (old : Bytes) : Instruction → Bytes
  | .skip _ => old
  | i => i.content

/-- What becomes of an output and a cursor where an instruction is executed.
    Either the instruction fits, and the cursor moves past its window, which
    holds what it leaves, while nothing else changes; or it does not fit. -/
inductive IsExecuted (i : Instruction) (output : Array UInt8) (cursor : Nat) :
    Except Error (Array UInt8 × Nat) → Prop where
  | executed {after : Array UInt8}
      (fits : cursor + i.outputLength ≤ output.size)
      (size_eq : after.size = output.size)
      (outside : ∀ p, p < cursor ∨ cursor + i.outputLength ≤ p →
        after[p]? = output[p]?)
      (inside : Bytes.slice after.toList cursor i.outputLength
        = i.leaves (Bytes.slice output.toList cursor i.outputLength)) :
      IsExecuted i output cursor (.ok (after, cursor + i.outputLength))
  | refused (short : output.size < cursor + i.outputLength) :
      IsExecuted i output cursor
        (.error (.outputOverrun cursor i.outputLength output.size))

variable {i : Instruction} {output : Array UInt8} {cursor : Nat} {old : Bytes}

/-- A window keeps its length. -/
theorem length_leaves (h : old.length = i.outputLength) :
    (i.leaves old).length = i.outputLength := by
  cases i with
  | skip count => exact h
  | stop => rfl
  | literal bytes => rfl
  | fill value count => exact List.length_replicate
  | fillOnes count => exact List.length_replicate
  | pattern shape => exact shape.length_expansion

/-- What the guarded execution writes over a window is what the instruction
    leaves there. -/
theorem rewritten_eq (h : old.length = i.outputLength) :
    Guarded.rewritten old i = .ok (i.leaves old) := by
  cases i with
  | stop => exact congrArg Except.ok (List.length_eq_zero_iff.mp h)
  | skip count => rfl
  | literal bytes => exact Guarded.copy_eq h
  | pattern shape =>
      exact Guarded.copy_eq (h.trans shape.length_expansion.symm)
  | fill value count => rw [Guarded.rewritten, h]; rfl
  | fillOnes count => rw [Guarded.rewritten, h]; rfl

/-- Applying an instruction writes what it leaves over its window. -/
theorem toList_apply_eq (fits : cursor + i.outputLength ≤ output.toList.length) :
    (i.apply output cursor).toList
      = Bytes.overwrite output.toList cursor
          (i.leaves (Bytes.slice output.toList cursor i.outputLength)) := by
  obtain ⟨bytes, written, applied⟩ := Guarded.exists_rewritten fits
  rw [rewritten_eq (Bytes.length_slice fits)] at written
  rw [applied, Except.ok.inj written]

/-- Executing an instruction follows the frame law. -/
theorem isExecuted_execute (i : Instruction) (output : Array UInt8)
    (cursor : Nat) : IsExecuted i output cursor (i.execute output cursor) := by
  by_cases fits : cursor + i.outputLength ≤ output.size
  · have room : cursor + i.outputLength ≤ output.toList.length := by
      rwa [Array.length_toList]
    have length := length_leaves (i := i) (Bytes.length_slice room)
    have written := toList_apply_eq room
    rw [execute, if_pos fits]
    rw [← length] at room
    refine .executed fits (size_apply i output cursor) ?_ ?_
    · intro p apart
      rw [← length] at apart
      rw [← Array.getElem?_toList, ← Array.getElem?_toList, written]
      exact Bytes.getElem?_overwrite_apart room apart
    · have self := Bytes.slice_overwrite_self room
      rw [length] at self
      rw [written, self]
  · have short := Nat.lt_of_not_le fits
    rw [execute_overrun short]
    exact .refused short

end Instruction

/-! ## The outcome -/

namespace InPlace

variable {most : Nat} {i : Instruction} {output : Array UInt8} {cursor : Nat}

/-- An access that is not stopped leaves output and cursor alone. -/
theorem ofExcept_ok {α : Type} (a : α) (s : Output) :
    (ofExcept (.ok a : Except Stop α) : EStateM Stop Output α) s = .ok a s :=
  rfl

/-- In place, an instruction that fits is executed as it is elsewhere. -/
theorem execute_eq (sized : output.size ≤ most)
    (fits : cursor + i.outputLength ≤ output.size) :
    execute most i ⟨output.toList, cursor⟩
      = .ok () ⟨(i.apply output cursor).toList, cursor + i.outputLength⟩ := by
  rw [← Array.length_toList] at sized fits
  have stop : windowEnd? most i ⟨output.toList, cursor⟩
      = some (cursor + i.outputLength) := windowEnd?_eq_some sized fits
  have window := Guarded.window_eq fits
  have rewritten := Instruction.rewritten_eq (i := i) (Bytes.length_slice fits)
  rw [Instruction.toList_apply_eq fits]
  simp only [execute, bind, EStateM.bind, get, getThe, MonadStateOf.get,
    EStateM.get, stop, Nat.add_sub_cancel_left, window, ofExcept_ok, rewritten]
  rfl

/-- One that does not fit changes nothing. -/
theorem execute_overrun
    (short : output.size < cursor + i.outputLength) :
    execute most i ⟨output.toList, cursor⟩
      = .error
          (.refused (.outputOverrun cursor i.outputLength output.size))
          ⟨output.toList, cursor⟩ := by
  rw [← Array.length_toList] at short ⊢
  have stop : windowEnd? most i ⟨output.toList, cursor⟩ = none :=
    windowEnd?_eq_none short
  simp only [execute, bind, EStateM.bind, get, getThe, MonadStateOf.get,
    EStateM.get, stop]
  rfl

end InPlace

/-- **What an instruction does to any output.**  In place, it leaves the output
    and the cursor that executing it returns, or both as they were and the
    error.  It is executed just if its window ends in the output, also where
    the end is no position; then the cursor moves to that end, the window
    holds what the instruction leaves, and nothing outside of it changes. -/
theorem execute_outcome {most : Nat} {output : Array UInt8}
    (sized : output.size ≤ most) (i : Instruction) (cursor : Nat) :
    InPlace.execute most i ⟨output.toList, cursor⟩
        = InPlace.ended ⟨output.toList, cursor⟩ (i.execute output cursor)
      ∧ i.IsExecuted output cursor (i.execute output cursor) := by
  refine ⟨?_, i.isExecuted_execute output cursor⟩
  by_cases fits : cursor + i.outputLength ≤ output.size
  · rw [InPlace.execute_eq sized fits, Instruction.execute, if_pos fits]
    rfl
  · have short := Nat.lt_of_not_le fits
    rw [InPlace.execute_overrun short, Instruction.execute_overrun short]
    rfl

/-- At the last position of 64 bits, where the sum is no position. -/
theorem execute_outcome_lastPosition :
    (#[7, 9] : Array UInt8).size ≤ 0xFFFF_FFFF_FFFF_FFFF
      ∧ InPlace.execute 0xFFFF_FFFF_FFFF_FFFF (.skip 1)
          ⟨[7, 9], 0xFFFF_FFFF_FFFF_FFFF⟩
        = .error (.refused (.outputOverrun 0xFFFF_FFFF_FFFF_FFFF 1 2))
            ⟨[7, 9], 0xFFFF_FFFF_FFFF_FFFF⟩ :=
  ⟨by decide, (execute_outcome (by decide) (.skip 1) _).1⟩

end Handheld.Compression
