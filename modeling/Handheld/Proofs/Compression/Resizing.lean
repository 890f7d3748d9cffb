import Handheld.Proofs.Compression.Execution
import Handheld.Proofs.Compression.Readers

/-! # Resizing — one string expanded into outputs of two sizes

    Compressed data do not say how long their image is, so they may be
    expanded into outputs of several sizes.  Two expansions of one string run
    side by side, and their outputs differ by zeros at the end, until
    something does not fit into the shorter one:

    • `IsWider` relates the outputs, `Agrees` the outcomes of the two sides;
    • an instruction keeps both relations (`Instruction.agrees_execute`), and
      `Agrees.andThen` hands them on to parts in sequence;
    • `decompress_resize` is the statement on expansions. -/

namespace Handheld.Compression

/-! ## Outputs -/

/-- An output of `size` bytes, and one that has `more` zeros after the same
    bytes. -/
structure IsWider (size more : Nat) (narrow wide : Array UInt8) : Prop where
  size_eq : narrow.size = size
  toList_eq : wide.toList = narrow.toList ++ List.replicate more 0

theorem IsWider.size_wide {size more : Nat} {narrow wide : Array UInt8}
    (h : IsWider size more narrow wide) : wide.size = size + more := by
  rw [← Array.length_toList, h.toList_eq, List.length_append,
    Array.length_toList, h.size_eq, List.length_replicate]

theorem isWider_zeros (size more : Nat) :
    IsWider size more (Array.replicate size 0)
      (Array.replicate (size + more) 0) where
  size_eq := Array.size_replicate
  toList_eq := by
    rw [Array.toList_replicate, Array.toList_replicate,
      List.replicate_append_replicate]

namespace Instruction

/-- Bytes that are stored inside of an output leave what comes after it. -/
theorem toList_store_append {narrow wide : Array UInt8} {after bytes : Bytes}
    {position : Nat} (h : wide.toList = narrow.toList ++ after)
    (fits : position + bytes.length ≤ narrow.size) :
    (store wide position bytes).toList
      = (store narrow position bytes).toList ++ after := by
  induction bytes generalizing narrow wide position with
  | nil => exact h
  | cons b bytes ih =>
      rw [List.length_cons] at fits
      have inside : position < narrow.toList.length := by
        rw [Array.length_toList]
        omega
      refine ih ?_ ?_
      · rw [Array.toList_setIfInBounds, Array.toList_setIfInBounds, h,
          List.set_append_left position b inside]
      · rw [Array.size_setIfInBounds]
        omega

/-- An instruction that fits leaves what comes after the output. -/
theorem toList_apply_append {i : Instruction} {narrow wide : Array UInt8}
    {after : Bytes} {cursor : Nat} (h : wide.toList = narrow.toList ++ after)
    (fits : cursor + i.outputLength ≤ narrow.size) :
    (i.apply wide cursor).toList = (i.apply narrow cursor).toList ++ after := by
  rw [← length_content] at fits
  cases i with
  | stop => exact h
  | literal bytes => exact toList_store_append h fits
  | skip count => exact h
  | fill value count => exact toList_store_append h fits
  | fillOnes count => exact toList_store_append h fits
  | pattern shape => exact toList_store_append h fits

/-- What fits into the shorter output is executed on both. -/
theorem execute_wide {i : Instruction} {size more cursor : Nat}
    {narrow wide : Array UInt8} (h : IsWider size more narrow wide)
    (fits : cursor + i.outputLength ≤ size) :
    i.execute narrow cursor
        = .ok (i.apply narrow cursor, cursor + i.outputLength)
      ∧ i.execute wide cursor
        = .ok (i.apply wide cursor, cursor + i.outputLength)
      ∧ IsWider size more (i.apply narrow cursor) (i.apply wide cursor) := by
  have inside : cursor + i.outputLength ≤ narrow.size := h.size_eq ▸ fits
  refine ⟨if_pos inside, if_pos ?_, ?_, ?_⟩
  · rw [h.size_wide]
    exact Nat.le_add_right_of_le fits
  · rw [size_apply, h.size_eq]
  · exact toList_apply_append h.toList_eq inside

end Instruction

/-! ## Outcomes -/

/-- The data themselves are at fault, not the size of the output. -/
def Error.IsMalformed : Error → Prop
  | .truncated _ => True
  | .unknownTag _ _ => True
  | _ => False

/-- The outcomes over an output of `size` bytes and over a longer one: both
    read the same and have related values, or both find the data malformed,
    or the shorter output is left. -/
inductive Agrees {α : Type} (size : Nat) (R : α → α → Prop) :
    Except Error (Bytes × α) → Except Error (Bytes × α) → Prop where
  | read {rest : Bytes} {a b : α} : R a b →
      Agrees size R (.ok (rest, a)) (.ok (rest, b))
  | malformed {e : Error} : e.IsMalformed →
      Agrees size R (.error e) (.error e)
  | overrun (position length : Nat) {other : Except Error (Bytes × α)} :
      Agrees size R (.error (.outputOverrun position length size)) other

variable {α β : Type} {size more : Nat}

/-- Parts in sequence agree if each of them does. -/
theorem Agrees.andThen {R : α → α → Prop} {S : β → β → Prop}
    {first first' : Reader α} {next next' : α → Reader β} {total : Nat}
    {input : Bytes}
    (h : Agrees size R (first total input) (first' total input))
    (later : ∀ rest a b, first total input = .ok (rest, a) → R a b →
      Agrees size S (next a total rest) (next' b total rest)) :
    Agrees size S (first.andThen next total input)
      (first'.andThen next' total input) := by
  rw [Reader.andThen, Reader.andThen]
  generalize first total input = narrow at h later
  generalize first' total input = wide at h
  cases h with
  | read related => exact later _ _ _ rfl related
  | malformed fault => exact .malformed fault
  | overrun position length => exact .overrun position length

namespace Reader

/-- A pass that starts in the shorter output starts there in the longer one
    as well. -/
theorem agrees_start (size more total : Nat) (input : Bytes) :
    Agrees size (· = ·) (start size total input)
      (start (size + more) total input) := by
  rw [start, start, passStart, passStart]
  dsimp only
  by_cases four : (input.take 4).length = 4
  · rw [if_pos four, if_pos four]
    by_cases inside : Bytes.value (input.take 4) ≤ size
    · rw [if_pos inside, if_pos (Nat.le_add_right_of_le inside)]
      exact .read rfl
    · rw [if_neg inside]
      exact .overrun _ 0
  · rw [if_neg four, if_neg four]
    exact .malformed trivial

/-- Reading an instruction does not ask for the output. -/
theorem agrees_instruction (size total : Nat) (input : Bytes) :
    Agrees size (· = ·) (instruction total input)
      (instruction total input) := by
  rw [instruction]
  cases Instruction.decode input with
  | error fault =>
      cases fault with
      | tagMissing => exact .malformed trivial
      | operandMissing => exact .malformed trivial
      | tagUnknown tag => exact .malformed trivial
  | ok read => exact .read rfl

theorem agrees_padding (size total : Nat) (input : Bytes) :
    Agrees size (· = ·) (padding total input) (padding total input) := by
  cases input with
  | nil => exact .malformed trivial
  | cons pad input => exact .read rfl

/-- An instruction moves both cursors alike and keeps the outputs related,
    or leaves the shorter one. -/
theorem agrees_execute {narrow wide : Array UInt8}
    (h : IsWider size more narrow wide) (i : Instruction) (cursor total : Nat)
    (input : Bytes) :
    Agrees size (fun a b => IsWider size more a.1 b.1 ∧ a.2 = b.2)
      (attempt (i.execute narrow cursor) total input)
      (attempt (i.execute wide cursor) total input) := by
  by_cases fits : cursor + i.outputLength ≤ size
  · obtain ⟨executed, executed', wider⟩ := Instruction.execute_wide h fits
    rw [executed, executed']
    exact .read ⟨wider, rfl⟩
  · rw [Instruction.execute_overrun (by rw [h.size_eq]; omega), h.size_eq]
    exact .overrun cursor i.outputLength

/-- The code of a pass has agreeing outcomes. -/
theorem agrees_code {narrow wide : Array UInt8}
    (h : IsWider size more narrow wide) (cursor total : Nat)
    (input : Bytes) :
    Agrees size (IsWider size more) (code narrow cursor total input)
      (code wide cursor total input) := by
  -- each instruction leaves fewer bytes for the code after it
  induction length : input.length using Nat.strongRecOn
    generalizing input narrow wide cursor with
  | ind n ih =>
      rw [code_eq, code_eq]
      refine (agrees_instruction size total input).andThen ?_
      rintro rest i _ read rfl
      rw [afterInstruction, afterInstruction]
      split
      case isTrue => exact .read h
      case isFalse =>
        refine (agrees_execute h i cursor total rest).andThen ?_
        rintro left ⟨narrow', cursor'⟩ ⟨wide', _⟩ executed ⟨wider, rfl⟩
        obtain rfl := rest_of_attempt executed
        exact ih _ (length ▸ length_lt_of_instruction read) wider _ _ rfl

theorem agrees_pass {narrow wide : Array UInt8}
    (h : IsWider size more narrow wide) (total : Nat) (input : Bytes) :
    Agrees size (IsWider size more) (pass narrow total input)
      (pass wide total input) := by
  rw [pass_eq, pass_eq, h.size_eq, h.size_wide]
  refine (agrees_start size more total input).andThen ?_
  rintro code position _ - rfl
  refine (agrees_code h position total code).andThen ?_
  intro left narrow' wide' _ wider
  refine (agrees_padding size total left).andThen ?_
  intro rest _ _ _ _
  exact .read wider

theorem agrees_passes {narrow wide : Array UInt8}
    (h : IsWider size more narrow wide) (total count : Nat)
    (input : Bytes) :
    Agrees size (IsWider size more) (passes count narrow total input)
      (passes count wide total input) := by
  induction count generalizing input narrow wide with
  | zero => exact .read h
  | succ count ih =>
      rw [passes_succ_eq, passes_succ_eq]
      refine (agrees_pass h total input).andThen ?_
      intro rest narrow' wide' _ wider
      exact ih wider rest

end Reader

/-! ## Expansions -/

/-- Two outcomes of one string: the same image with zeros after it, or the
    same flaw of the data, or an output that is too short. -/
inductive IsResized (size more : Nat) :
    Except Error Bytes → Except Error Bytes → Prop where
  | image (image : Bytes) :
      IsResized size more (.ok image) (.ok (image ++ List.replicate more 0))
  | malformed {e : Error} : e.IsMalformed →
      IsResized size more (.error e) (.error e)
  | overrun (position length : Nat) {other : Except Error Bytes} :
      IsResized size more (.error (.outputOverrun position length size)) other

theorem isResized_decompress (input : Bytes) (size more : Nat) :
    IsResized size more (decompress input size)
      (decompress input (size + more)) := by
  have agrees : Agrees size (IsWider size more)
      (runPasses input.length 3 input (Array.replicate size 0))
      (runPasses input.length 3 input (Array.replicate (size + more) 0)) :=
    Reader.agrees_passes (isWider_zeros size more) input.length 3 input
  rw [decompress, decompress, expand, expand]
  generalize runPasses input.length 3 input (Array.replicate size 0) = narrow
    at agrees
  generalize runPasses input.length 3 input (Array.replicate (size + more) 0)
    = wide at agrees
  cases agrees with
  | read wider =>
      dsimp only [Except.map]
      rw [wider.toList_eq]
      exact .image _
  | malformed fault => exact .malformed fault
  | overrun position length => exact .overrun position length

/-- **Expanding into more room only adds zeros.**  A string that is expanded
    into some room gives the same image and zeros in more room.  One that is
    expanded into more room gives the beginning of that image in less room,
    without some of its last zeros, or is refused because the room is too
    small.  And if it is malformed in more room, it is so in less room, unless
    it is refused because the room is too small. -/
theorem decompress_resize (input : Bytes) {size larger : Nat}
    (h : size ≤ larger) :
    (∀ image, decompress input size = .ok image →
      decompress input larger
        = .ok (image ++ List.replicate (larger - size) 0))
    ∧ (∀ image, decompress input larger = .ok image →
      (∃ position length, decompress input size
        = .error (.outputOverrun position length size))
      ∨ ∃ front, decompress input size = .ok front
        ∧ image = front ++ List.replicate (larger - size) 0)
    ∧ ∀ e, decompress input larger = .error e → e.IsMalformed →
      decompress input size = .error e
      ∨ ∃ position length, decompress input size
        = .error (.outputOverrun position length size) := by
  obtain ⟨more, rfl⟩ := Nat.exists_eq_add_of_le h
  rw [Nat.add_sub_cancel_left]
  have resized := isResized_decompress input size more
  generalize decompress input size = narrow at resized
  generalize decompress input (size + more) = wide at resized
  cases resized with
  | image image =>
      refine ⟨?_, ?_, ?_⟩
      · rintro _ ⟨⟩
        rfl
      · rintro _ ⟨⟩
        exact .inr ⟨image, rfl, rfl⟩
      · rintro _ ⟨⟩
  | malformed fault =>
      refine ⟨?_, ?_, ?_⟩
      · rintro _ ⟨⟩
      · rintro _ ⟨⟩
      · rintro _ ⟨⟩ -
        exact .inl rfl
  | overrun position length =>
      refine ⟨?_, ?_, ?_⟩
      · rintro _ ⟨⟩
      · intro _ _
        exact .inl ⟨position, length, rfl⟩
      · intro _ _ _
        exact .inr ⟨position, length, rfl⟩

/-- A pass that writes a byte at position 2, one that goes back to the
    beginning, and an empty one. -/
def backwardData : Bytes :=
  [0x00, 0x00, 0x00, 0x02, 0x80, 0x42, 0x00, 0x00,
    0x00, 0x00, 0x00, 0x00, 0x10, 0x00, 0x00,
    0x00, 0x00, 0x00, 0x01, 0x00, 0x00]

theorem decompress_resize_backwardData :
    3 ≤ 5
      ∧ decompress backwardData 3 = .ok [0xFF, 0x00, 0x42]
      ∧ decompress backwardData 5
        = .ok ([0xFF, 0x00, 0x42] ++ List.replicate (5 - 3) 0)
      ∧ ((∃ position length, decompress backwardData 2
          = .error (.outputOverrun position length 2))
        ∨ ∃ front, decompress backwardData 2 = .ok front
          ∧ [0xFF, 0x00, 0x42] = front ++ List.replicate (3 - 2) 0) := by
  have fits : decompress backwardData 3 = .ok [0xFF, 0x00, 0x42] := by cbv
  obtain ⟨longer, -, -⟩ :=
    decompress_resize backwardData (show 3 ≤ 5 by decide)
  obtain ⟨-, shorter, -⟩ :=
    decompress_resize backwardData (show 2 ≤ 3 by decide)
  exact ⟨by decide, fits, longer _ fits, shorter _ fits⟩

end Handheld.Compression
