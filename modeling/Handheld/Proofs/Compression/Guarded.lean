import Handheld.Proofs.Compression.Canonical
import Handheld.Proofs.Compression.Execution
import Handheld.Proofs.Compression.Readers

/-! # The guarded expansion — no access outside of data and output

    An expansion takes beginnings of lists, stores bytes one by one and ends
    because its data become shorter, so it has an answer even where a position
    is wrong.  The guarded expansion keeps positions instead, and stops where
    one of them is wrong:

    • `window`, `copy`: the accesses that can stop it, because a window leaves
      its bytes or because bytes are copied over a window of another length;
      it also stops if it reads more instructions than it is granted;
    • `instruction`, `execute`, `code`, `pass`: its parts;
    • `Mirrors` relates the outcome of a guarded part to that of the part, and
      `IsDue` says what the errors that they report tell of the data;
    • `decompress_outcome`: with as many instructions as there are bytes, the
      guarded expansion is only ever stopped by the error of the expansion. -/

namespace Handheld.Compression

/-- What stops the guarded expansion. -/
inductive Stop where
  /-- A window leaves the bytes that it is taken of. -/
  | outside
  /-- Bytes are copied over a window of another length. -/
  | uneven
  /-- An instruction is read beyond those that are granted. -/
  | exhausted
  /-- The data cannot be expanded. -/
  | refused (cause : Error)

namespace Guarded

/-! ## Accesses -/

/-- The `length` bytes at `offset`, all of which have to exist. -/
def window (bytes : Bytes) (offset length : Nat) : Except Stop Bytes :=
  if offset + length ≤ bytes.length then
    .ok (Bytes.slice bytes offset length)
  else .error .outside

/-- What a window holds once bytes are copied over it, which have to be as
    many as it has. -/
def copy (target source : Bytes) : Except Stop Bytes :=
  if target.length = source.length then .ok source else .error .uneven

theorem window_eq {bytes : Bytes} {offset length : Nat}
    (h : offset + length ≤ bytes.length) :
    window bytes offset length = .ok (Bytes.slice bytes offset length) :=
  if_pos h

theorem copy_eq {target source : Bytes} (h : target.length = source.length) :
    copy target source = .ok source :=
  if_pos h

/-! ## The guarded parts

Each part reads the data at a position, and returns the position after what
it has read beside its value. -/

/-- The `count` bytes of an operand. -/
def operand (input : Bytes) (position count : Nat) :
    Except Stop (Bytes × Nat) :=
  if input.length < position + count then
    .error (.refused (.truncated input.length))
  else do
    let bytes ← window input position count
    .ok (bytes, position + count)

/-- The literal of `count` bytes at a position. -/
def literal (input : Bytes) (position count : Nat) :
    Except Stop (Instruction × Nat) := do
  let (bytes, next) ← operand input position count
  .ok (.literal bytes, next)

/-- The fill of `count` bytes whose value is at a position. -/
def fill (input : Bytes) (position count : Nat) :
    Except Stop (Instruction × Nat) := do
  let (bytes, next) ← operand input position 1
  let value ← window bytes 0 1
  .ok (.fill (Bytes.byteAt value 0) count, next)

/-- The pattern whose tag is at a position. -/
def pattern (input : Bytes) (position : Nat) (tag : UInt8) :
    Except Stop (Instruction × Nat) :=
  match Pattern.payloadLength? tag with
  | none => .error (.refused (.unknownTag tag position))
  | some count => do
      let (payload, next) ← operand input (position + 1) count
      match Pattern.ofPayload? tag payload with
      | some shape => .ok (.pattern shape, next)
      | none => .error (.refused (.unknownTag tag position))

/-- The instruction whose tag is at a position. -/
def tagged (input : Bytes) (position : Nat) (tag : UInt8) :
    Except Stop (Instruction × Nat) :=
  if 0x80 ≤ tag then literal input (position + 1) (tag.toNat - 0x7F)
  else if 0x40 ≤ tag then .ok (.skip (tag.toNat - 0x3F), position + 1)
  else if 0x20 ≤ tag then fill input (position + 1) (tag.toNat - 0x1E)
  else if 0x10 ≤ tag then .ok (.fillOnes (tag.toNat - 0x0F), position + 1)
  else if tag = 0x00 then .ok (.stop, position + 1)
  else pattern input position tag

/-- The instruction at a position. -/
def instruction (input : Bytes) (position : Nat) :
    Except Stop (Instruction × Nat) :=
  match input[position]? with
  | none => .error (.refused (.truncated position))
  | some tag => tagged input position tag

/-- What the window of an instruction holds after it. -/
def rewritten (target : Bytes) : Instruction → Except Stop Bytes
  | .stop => .ok target
  | .literal bytes => copy target bytes
  | .skip _ => .ok target
  | .fill value _ => .ok (List.replicate target.length value)
  | .fillOnes _ => .ok (List.replicate target.length 0xFF)
  | .pattern shape => copy target shape.expansion

/-- The output after an instruction, and the cursor. -/
def execute (i : Instruction) (output : Bytes) (cursor : Nat) :
    Except Stop (Bytes × Nat) :=
  if cursor + i.outputLength ≤ output.length then do
    let target ← window output cursor i.outputLength
    let bytes ← rewritten target i
    .ok (Bytes.overwrite output cursor bytes, cursor + i.outputLength)
  else
    .error (.refused
      (.outputOverrun cursor i.outputLength output.length))

/-- Executes the code at a position.  Returns how many instructions are still
    granted, and the output. -/
def code (input : Bytes) : Nat → Nat → Bytes → Nat →
    Except Stop ((Nat × Bytes) × Nat)
  | 0, _, _, _ => .error .exhausted
  | granted + 1, position, output, cursor => do
      let (i, next) ← instruction input position
      if i = .stop then .ok ((granted, output), next)
      else do
        let (output, cursor) ← execute i output cursor
        code input granted next output cursor

/-- The start of the pass at a position. -/
def start (input : Bytes) (size position : Nat) : Except Stop (Nat × Nat) :=
  if input.length < position + 4 then
    .error (.refused (.truncated input.length))
  else do
    let field ← window input position 4
    if size < Bytes.value field then
      .error (.refused (.outputOverrun (Bytes.value field) 0 size))
    else .ok (Bytes.value field, position + 4)

/-- The byte after the end mark. -/
def padding (input : Bytes) (position : Nat) : Except Stop (Unit × Nat) :=
  if input.length ≤ position then .error (.refused (.truncated input.length))
  else .ok ((), position + 1)

/-- The pass at a position. -/
def pass (input : Bytes) (granted position : Nat) (output : Bytes) :
    Except Stop ((Nat × Bytes) × Nat) := do
  let (cursor, next) ← start input output.length position
  let (after, next) ← code input granted next output cursor
  let (_, next) ← padding input next
  .ok (after, next)

/-- A number of passes from a position on. -/
def passes (input : Bytes) : Nat → Nat → Nat → Bytes →
    Except Stop ((Nat × Bytes) × Nat)
  | 0, granted, position, output => .ok ((granted, output), position)
  | count + 1, granted, position, output => do
      let (after, next) ← pass input granted position output
      passes input count after.1 next after.2

/-- The guarded `Compression.expand`, for which a number of instructions is
    granted. -/
def expand (granted : Nat) (input : Bytes) (size : Nat) :
    Except Stop (Bytes × Nat) := do
  let (after, next) ← passes input 3 granted 0 (List.replicate size 0)
  .ok (after.2, next)

end Guarded

/-! ## Outcomes -/

/-- The errors of an expansion into `size` bytes, with what they tell: the
    data end there, there is a byte that begins no instruction, or the output
    ends before what is to be written does. -/
inductive IsDue (input : Bytes) (size : Nat) : Error → Prop where
  | truncated : IsDue input size (.truncated input.length)
  | unknownTag {tag : UInt8} {position : Nat} :
      input[position]? = some tag → 5 ≤ tag.toNat → tag.toNat ≤ 15 →
      IsDue input size (.unknownTag tag position)
  | overrun {position length : Nat} : size < position + length →
      IsDue input size (.outputOverrun position length size)

/-- The outcome of a guarded part and that of the part: both read up to one
    position and have related values, or both have the same error, which is
    due. -/
inductive Mirrors (input : Bytes) (size : Nat) {α β : Type}
    (R : α → Nat → β → Prop) :
    Except Stop (α × Nat) → Except Error (Bytes × β) → Prop where
  | read {a : α} {next : Nat} {b : β} : next ≤ input.length → R a next b →
      Mirrors input size R (.ok (a, next)) (.ok (input.drop next, b))
  | refused {e : Error} : IsDue input size e →
      Mirrors input size R (.error (.refused e)) (.error e)

variable {α β γ δ : Type} {input : Bytes} {size : Nat}

/-- Parts in sequence mirror each other if each of them does. -/
theorem Mirrors.andThen {R : α → Nat → β → Prop} {S : γ → Nat → δ → Prop}
    {guarded : Except Stop (α × Nat)} {part : Reader β}
    {next : α × Nat → Except Stop (γ × Nat)} {next' : β → Reader δ}
    {position : Nat}
    (h : Mirrors input size R guarded
      (part input.length (input.drop position)))
    (later : ∀ a stop b, stop ≤ input.length → R a stop b →
      Mirrors input size S (next (a, stop))
        (next' b input.length (input.drop stop))) :
    Mirrors input size S (guarded >>= next)
      (part.andThen next' input.length (input.drop position)) := by
  rw [Reader.andThen]
  generalize part input.length (input.drop position) = outcome at h
  cases h with
  | read inside related => exact later _ _ _ inside related
  | refused due => exact .refused due

namespace Guarded

/-! ## Instructions -/

theorem operand_eq {position count : Nat}
    (h : position + count ≤ input.length) :
    operand input position count
      = .ok (Bytes.slice input position count, position + count) := by
  rw [operand, if_neg (Nat.not_lt.mpr h), window_eq h]
  rfl

theorem operand_short {position count : Nat}
    (h : input.length < position + count) :
    operand input position count
      = .error (.refused (.truncated input.length)) :=
  if_pos h

/-- An operand that is there is cut off. -/
theorem takeOperand_drop {position count : Nat}
    (make : Bytes → Instruction) (h : position + count ≤ input.length) :
    Instruction.takeOperand count make (input.drop position)
      = .ok (make (Bytes.slice input position count),
          input.drop (position + count)) := by
  have size : ((input.drop position).take count).length = count :=
    Bytes.length_slice h
  rw [Instruction.takeOperand, if_pos size, List.drop_drop, Bytes.slice]

theorem takeOperand_drop_short {position count : Nat}
    (make : Bytes → Instruction) (h : input.length < position + count)
    (inside : position ≤ input.length) :
    Instruction.takeOperand count make (input.drop position)
      = .error .operandMissing := by
  have size : ¬ ((input.drop position).take count).length = count := by
    rw [List.length_take, List.length_drop]
    omega
  rw [Instruction.takeOperand, if_neg size]

/-- The relation between instructions that are read from a position on. -/
def IsInstruction (position : Nat) (i : Instruction) (next : Nat)
    (j : Instruction) : Prop :=
  i = j ∧ position < next

/-- There is a tag at a position, with the bytes after it. -/
def IsTag (input : Bytes) (position : Nat) (tag : UInt8) : Prop :=
  input.drop position = tag :: input.drop (position + 1)

theorem IsTag.lt {position : Nat} {tag : UInt8}
    (there : IsTag input position tag) : position < input.length := by
  have length := congrArg List.length there
  rw [List.length_drop, List.length_cons] at length
  omega

theorem IsTag.getElem? {position : Nat} {tag : UInt8}
    (there : IsTag input position tag) : input[position]? = some tag := by
  rw [← List.head?_drop, there]
  rfl

/-- An instruction is read as its tag has it. -/
theorem instruction_made {position : Nat} {tag : UInt8}
    (there : IsTag input position tag) {i : Instruction} {rest : Bytes}
    (read : Instruction.decodeTagged tag (input.drop (position + 1))
      = .ok (i, rest)) :
    Reader.instruction input.length (input.drop position) = .ok (rest, i) := by
  rw [Reader.instruction, there, Instruction.decode, read]

/-- Without its operand, an instruction is truncated. -/
theorem instruction_missing {position : Nat} {tag : UInt8}
    (there : IsTag input position tag)
    (read : Instruction.decodeTagged tag (input.drop (position + 1))
      = .error .operandMissing) :
    Reader.instruction input.length (input.drop position)
      = .error (.truncated input.length) := by
  rw [Reader.instruction, there, Instruction.decode, read]
  rfl

/-- A tag that begins no instruction is found where it is. -/
theorem instruction_unknown {position : Nat} {tag : UInt8}
    (there : IsTag input position tag)
    (read : Instruction.decodeTagged tag (input.drop (position + 1))
      = .error (.tagUnknown tag)) :
    Reader.instruction input.length (input.drop position)
      = .error (.unknownTag tag position) := by
  have place : input.length - (tag :: input.drop (position + 1)).length
      = position := by
    have inside := there.lt
    rw [List.length_cons, List.length_drop]
    omega
  rw [Reader.instruction, there, Instruction.decode, read]
  exact congrArg (fun n => Except.error (Error.unknownTag tag n)) place

/-- An instruction without an operand ends after its tag. -/
theorem plain_mirrors {position : Nat} {tag : UInt8} {i : Instruction}
    (there : IsTag input position tag)
    (decoded : Instruction.decodeTagged tag (input.drop (position + 1))
      = .ok (i, input.drop (position + 1))) :
    Mirrors input size (IsInstruction position) (.ok (i, position + 1))
      (Reader.instruction input.length (input.drop position)) := by
  rw [instruction_made there decoded]
  exact .read there.lt ⟨rfl, Nat.lt_succ_self position⟩

theorem literal_mirrors {position count : Nat} {tag : UInt8}
    (there : IsTag input position tag)
    (decoded : Instruction.decodeTagged tag (input.drop (position + 1))
      = Instruction.takeOperand count .literal (input.drop (position + 1))) :
    Mirrors input size (IsInstruction position)
      (literal input (position + 1) count)
      (Reader.instruction input.length (input.drop position)) := by
  rw [literal]
  by_cases enough : position + 1 + count ≤ input.length
  · rw [takeOperand_drop _ enough] at decoded
    rw [instruction_made there decoded, operand_eq enough]
    exact .read enough ⟨rfl, by omega⟩
  · have short := Nat.lt_of_not_le enough
    rw [takeOperand_drop_short _ short there.lt] at decoded
    rw [instruction_missing there decoded, operand_short short]
    exact .refused .truncated

/-- The value of a fill is one byte. -/
theorem fill_eq {position : Nat} (h : position < input.length) (count : Nat) :
    fill input position count
      = .ok (.fill input[position] count, position + 1) := by
  have field : Bytes.slice input position 1 = [input[position]] := by
    rw [Bytes.slice, List.drop_eq_getElem_cons h]
    rfl
  rw [fill, operand_eq h, field]
  rfl

theorem fill_mirrors {position count : Nat} {tag : UInt8}
    (there : IsTag input position tag)
    (decoded : Instruction.decodeTagged tag (input.drop (position + 1))
      = Instruction.decodeFill count (input.drop (position + 1))) :
    Mirrors input size (IsInstruction position)
      (fill input (position + 1) count)
      (Reader.instruction input.length (input.drop position)) := by
  by_cases enough : position + 1 < input.length
  · have value := List.drop_eq_getElem_cons enough
    rw [congrArg (Instruction.decodeFill count) value,
      Instruction.decodeFill] at decoded
    rw [instruction_made there decoded, fill_eq enough]
    exact .read enough ⟨rfl, by omega⟩
  · have nothing : input.drop (position + 1) = [] :=
      List.drop_eq_nil_iff.mpr (Nat.le_of_not_lt enough)
    rw [congrArg (Instruction.decodeFill count) nothing,
      Instruction.decodeFill] at decoded
    rw [instruction_missing there decoded, fill, operand_short (by omega)]
    exact .refused .truncated

theorem pattern_mirrors {position : Nat} {tag : UInt8}
    (there : IsTag input position tag) (high : tag.toNat < 0x10)
    (positive : tag.toNat ≠ 0)
    (decoded : Instruction.decodeTagged tag (input.drop (position + 1))
      = Instruction.decodePattern tag (input.drop (position + 1))) :
    Mirrors input size (IsInstruction position) (pattern input position tag)
      (Reader.instruction input.length (input.drop position)) := by
  rw [Instruction.decodePattern] at decoded
  rw [pattern]
  cases known : Pattern.payloadLength? tag with
  | none =>
      rw [known] at decoded
      rw [instruction_unknown there decoded]
      have unknown := (Pattern.payloadLength?_eq_none_iff tag).mp known
      exact .refused (.unknownTag there.getElem? (by omega) (by omega))
  | some count =>
      rw [known] at decoded
      dsimp only at decoded ⊢
      by_cases enough : position + 1 + count ≤ input.length
      · have length : ((input.drop (position + 1)).take count).length = count :=
          Bytes.length_slice enough
        -- the payload has the length that its tag asks for
        have fitting : Pattern.payloadLength? tag
            = some ((input.drop (position + 1)).take count).length := by
          rw [known, length]
        obtain ⟨shape, made, -, -⟩ := Instruction.exists_ofPayload? fitting
        rw [if_pos length, made, List.drop_drop] at decoded
        rw [instruction_made there decoded, operand_eq enough]
        dsimp only [Bind.bind, Except.bind, Bytes.slice]
        rw [made]
        exact .read enough ⟨rfl, by omega⟩
      · have short := Nat.lt_of_not_le enough
        have inside := there.lt
        have length : ¬ ((input.drop (position + 1)).take count).length
            = count := by
          rw [List.length_take, List.length_drop]
          omega
        rw [if_neg length] at decoded
        rw [instruction_missing there decoded, operand_short short]
        exact .refused .truncated

theorem tagged_mirrors {position : Nat} {tag : UInt8}
    (there : IsTag input position tag) :
    Mirrors input size (IsInstruction position) (tagged input position tag)
      (Reader.instruction input.length (input.drop position)) := by
  -- both sides distinguish the same classes of tags
  have decoded :=
    Instruction.decodeTagged.eq_def tag (input.drop (position + 1))
  rw [tagged]
  split
  case isTrue low =>
    rw [if_pos low] at decoded
    exact literal_mirrors there decoded
  case isFalse high =>
    rw [if_neg high] at decoded
    split
    case isTrue low =>
      rw [if_pos low] at decoded
      exact plain_mirrors there decoded
    case isFalse high =>
      rw [if_neg high] at decoded
      split
      case isTrue low =>
        rw [if_pos low] at decoded
        exact fill_mirrors there decoded
      case isFalse high =>
        rw [if_neg high] at decoded
        split
        case isTrue low =>
          rw [if_pos low] at decoded
          exact plain_mirrors there decoded
        case isFalse high =>
          rw [if_neg high] at decoded
          split
          case isTrue zero =>
            rw [if_pos zero] at decoded
            exact plain_mirrors there decoded
          case isFalse positive =>
            rw [if_neg positive] at decoded
            refine pattern_mirrors there ?_ ?_ decoded
            · exact Nat.lt_of_not_le fun le =>
                high (UInt8.le_iff_toNat_le.mpr le)
            · exact fun zero => positive (UInt8.toNat_inj.mp zero)

/-- Reading an instruction is mirrored at every position of the data, and at
    their end. -/
theorem instruction_mirrors {position : Nat}
    (inside : position ≤ input.length) :
    Mirrors input size (IsInstruction position) (instruction input position)
      (Reader.instruction input.length (input.drop position)) := by
  rcases Nat.lt_or_ge position input.length with before | atEnd
  · have there : IsTag input position input[position] :=
      List.drop_eq_getElem_cons before
    rw [instruction, there.getElem?]
    exact tagged_mirrors there
  · obtain rfl := Nat.le_antisymm inside atEnd
    rw [instruction, List.getElem?_eq_none (Nat.le_refl _), List.drop_length]
    exact .refused .truncated

/-! ## Execution -/

/-- Bytes that are stored take the place of as many bytes. -/
theorem toList_store_eq {output : Array UInt8} {cursor : Nat} {bytes : Bytes}
    (fits : cursor + bytes.length ≤ output.toList.length) :
    (Instruction.store output cursor bytes).toList
      = Bytes.overwrite output.toList cursor bytes := by
  have start : (output.toList.take cursor).length = cursor := by
    rw [List.length_take]
    omega
  have split : output.toList = output.toList.take cursor
      ++ (Bytes.slice output.toList cursor bytes.length
        ++ output.toList.drop (cursor + bytes.length)) := by
    rw [Bytes.slice_append_drop, List.take_append_drop]
  have same := (Bytes.length_slice fits).symm
  have stored := Instruction.toList_store split same
  have written := @Bytes.overwrite_append (output.toList.take cursor) _
    (output.toList.drop (cursor + bytes.length)) _ same
  rw [start] at stored written
  rw [stored, ← written, ← split]

/-- No instruction copies bytes over a window of another length, and what its
    window holds afterwards is what the output holds there. -/
theorem exists_rewritten {i : Instruction} {output : Array UInt8}
    {cursor : Nat} (fits : cursor + i.outputLength ≤ output.toList.length) :
    ∃ bytes,
      rewritten (Bytes.slice output.toList cursor i.outputLength) i = .ok bytes
      ∧ (i.apply output cursor).toList
        = Bytes.overwrite output.toList cursor bytes := by
  have length := Bytes.length_slice fits
  cases i with
  | stop => exact ⟨_, rfl, (Bytes.overwrite_slice fits).symm⟩
  | skip count => exact ⟨_, rfl, (Bytes.overwrite_slice fits).symm⟩
  | literal bytes => exact ⟨bytes, copy_eq length, toList_store_eq fits⟩
  | pattern shape =>
      have expansion := shape.length_expansion
      refine ⟨shape.expansion, copy_eq (length.trans expansion.symm), ?_⟩
      exact toList_store_eq (expansion ▸ fits)
  | fill value count =>
      refine ⟨List.replicate count value, ?_, ?_⟩
      · rw [rewritten, length]
        rfl
      · exact toList_store_eq (by rwa [List.length_replicate])
  | fillOnes count =>
      refine ⟨List.replicate count 0xFF, ?_, ?_⟩
      · rw [rewritten, length]
        rfl
      · exact toList_store_eq (by rwa [List.length_replicate])

/-- An instruction that fits is executed as it is without guards. -/
theorem execute_eq {i : Instruction} {output : Array UInt8} {cursor : Nat}
    (fits : cursor + i.outputLength ≤ output.size) :
    execute i output.toList cursor
      = .ok ((i.apply output cursor).toList, cursor + i.outputLength) := by
  rw [← Array.length_toList] at fits
  obtain ⟨bytes, written, applied⟩ := exists_rewritten fits
  rw [execute, if_pos fits, window_eq fits]
  dsimp only [Bind.bind, Except.bind]
  rw [written, applied]

theorem execute_overrun {i : Instruction} {output : Array UInt8}
    {cursor : Nat} (short : output.size < cursor + i.outputLength) :
    execute i output.toList cursor
      = .error (.refused
          (.outputOverrun cursor i.outputLength output.size)) := by
  rw [← Array.length_toList] at short ⊢
  exact if_neg (Nat.not_le.mpr short)

/-! ## Code and passes -/

/-- What the parts keep: the guarded output is the output, which has the size
    that it had at first, and at least as many instructions are granted as
    there are bytes left, and some to spare. -/
structure IsKept (input : Bytes) (size spare : Nat) (guarded : Nat × Bytes)
    (next : Nat) (output : Array UInt8) : Prop where
  size_eq : output.size = size
  bytes_eq : guarded.2 = output.toList
  granted : input.length + spare ≤ next + guarded.1

/-- The code of a pass is mirrored: each instruction is one byte at least, so
    that there is always one to spare. -/
theorem code_mirrors {granted position cursor : Nat} {output : Array UInt8}
    (inside : position ≤ input.length)
    (kept : IsKept input size 1 (granted, output.toList) position output) :
    Mirrors input size (IsKept input size 1)
      (code input granted position output.toList cursor)
      (Reader.code output cursor input.length (input.drop position)) := by
  have enough := kept.granted
  induction granted generalizing position output cursor with
  | zero =>
      dsimp only at enough
      omega
  | succ granted ih =>
      rw [code, Reader.code_eq]
      refine (instruction_mirrors inside).andThen ?_
      rintro i next _ inside ⟨rfl, after⟩
      have left : input.length + 1 ≤ next + granted := by
        dsimp only at enough
        omega
      rw [Reader.afterInstruction]
      dsimp only
      by_cases stop : i = .stop
      · rw [if_pos stop, if_pos stop]
        exact .read inside ⟨kept.size_eq, rfl, left⟩
      · rw [if_neg stop, if_neg stop, Reader.andThen]
        by_cases fits : cursor + i.outputLength ≤ output.size
        · rw [execute_eq fits, Instruction.execute, if_pos fits]
          have size_eq := (i.size_apply output cursor).trans kept.size_eq
          exact ih inside ⟨size_eq, rfl, left⟩ left
        · have short := Nat.lt_of_not_le fits
          rw [execute_overrun short, Instruction.execute_overrun short,
            kept.size_eq]
          exact .refused (.overrun (kept.size_eq ▸ short))

/-- The start of a pass is mirrored. -/
theorem start_mirrors (size position : Nat) :
    Mirrors input size (fun a next b => a = b ∧ next = position + 4)
      (start input size position)
      (Reader.start size input.length (input.drop position)) := by
  rw [start, Reader.start, passStart]
  dsimp only
  by_cases four : position + 4 ≤ input.length
  · have length : ((input.drop position).take 4).length = 4 :=
      Bytes.length_slice four
    rw [if_neg (Nat.not_lt.mpr four), if_pos length, window_eq four]
    dsimp only [Bind.bind, Except.bind, Bytes.slice]
    by_cases outside : size < Bytes.value ((input.drop position).take 4)
    · rw [if_pos outside, if_neg (Nat.not_le.mpr outside)]
      exact .refused (.overrun outside)
    · rw [if_neg outside, if_pos (Nat.le_of_not_lt outside), List.drop_drop]
      exact .read four ⟨rfl, rfl⟩
  · have length : ¬ ((input.drop position).take 4).length = 4 := by
      rw [List.length_take, List.length_drop]
      omega
    rw [if_pos (Nat.lt_of_not_le four), if_neg length]
    exact .refused .truncated

/-- The byte after the end mark is mirrored. -/
theorem padding_mirrors (position : Nat) :
    Mirrors input size (fun _ next _ => next = position + 1)
      (padding input position)
      (Reader.padding input.length (input.drop position)) := by
  rw [padding]
  by_cases atEnd : input.length ≤ position
  · rw [if_pos atEnd, List.drop_eq_nil_iff.mpr atEnd]
    exact .refused .truncated
  · have before := Nat.lt_of_not_le atEnd
    rw [if_neg atEnd, List.drop_eq_getElem_cons before]
    exact .read before rfl

/-- A pass is mirrored, with nothing to spare before and after it. -/
theorem pass_mirrors {granted position : Nat} {output : Array UInt8}
    (kept : IsKept input size 0 (granted, output.toList) position output) :
    Mirrors input size (IsKept input size 0)
      (pass input granted position output.toList)
      (Reader.pass output input.length (input.drop position)) := by
  have enough := kept.granted
  have length : output.toList.length = size :=
    Array.length_toList.trans kept.size_eq
  rw [pass, Reader.pass_eq, kept.size_eq, length]
  refine (start_mirrors size position).andThen ?_
  rintro cursor _ _ inside ⟨rfl, rfl⟩
  dsimp only at enough ⊢
  -- the start alone is more bytes than one
  refine (code_mirrors inside ⟨kept.size_eq, rfl, ?_⟩).andThen ?_
  · dsimp only
    omega
  intro after next output inside kept
  dsimp only
  refine (padding_mirrors next).andThen ?_
  rintro _ _ _ inside rfl
  have left := kept.granted
  exact .read inside ⟨kept.size_eq, kept.bytes_eq, by omega⟩

theorem passes_mirrors {count granted position : Nat} {output : Array UInt8}
    (inside : position ≤ input.length)
    (kept : IsKept input size 0 (granted, output.toList) position output) :
    Mirrors input size (IsKept input size 0)
      (passes input count granted position output.toList)
      (Reader.passes count output input.length (input.drop position)) := by
  induction count generalizing granted position output with
  | zero => exact .read inside kept
  | succ count ih =>
      rw [passes, Reader.passes_succ_eq]
      refine (pass_mirrors kept).andThen ?_
      rintro ⟨granted, bytes⟩ next output inside kept
      obtain rfl : bytes = output.toList := kept.bytes_eq
      exact ih inside kept

end Guarded

/-! ## Expansions -/

/-- What becomes of data that are expanded: `size` bytes, for which some or
    all of the data were read, or an error that is due. -/
inductive IsExpanded (input : Bytes) (size : Nat) :
    Except Error Bytes → Prop where
  | expanded {output : Bytes} (count : Nat) :
      expand input size = .ok (output, count) → count ≤ input.length →
      output.length = size → IsExpanded input size (.ok output)
  | refused {e : Error} : IsDue input size e →
      IsExpanded input size (.error e)

/-- **What becomes of any data.**  No access leaves the data or the output,
    bytes are only ever copied over as many bytes, and no more instructions
    are read than there are bytes, as the guarded expansion shows.  The
    outcome is an output of just the size that was asked for, and at most all
    of the data are read for it; or the data end too early, or hold a byte
    that begins no instruction where it is said to be, or write beyond the
    end of the output. -/
theorem decompress_outcome (input : Bytes) (size : Nat) :
    Guarded.expand input.length input size
        = (expand input size).mapError .refused
      ∧ IsExpanded input size (decompress input size) := by
  have mirrors : Mirrors input size (Guarded.IsKept input size 0)
      (Guarded.passes input 3 input.length 0 (List.replicate size 0))
      (runPasses input.length 3 input (Array.replicate size 0)) :=
    Guarded.passes_mirrors (Nat.zero_le _) ⟨Array.size_replicate, rfl,
      Nat.le_of_eq (Nat.zero_add _).symm⟩
  generalize guarded : Guarded.passes input 3 input.length 0
    (List.replicate size 0) = outcome at mirrors
  generalize ran : runPasses input.length 3 input (Array.replicate size 0)
    = outcome' at mirrors
  cases mirrors with
  | @read after next output inside kept =>
      have expanded : expand input size = .ok (output.toList, next) := by
        rw [expand, ran]
        dsimp only
        rw [List.length_drop, Nat.sub_sub_self inside]
      have same : Guarded.expand input.length input size
          = .ok (output.toList, next) := by
        rw [Guarded.expand, guarded, ← kept.bytes_eq]
        rfl
      rw [same, decompress, expanded]
      exact ⟨rfl, .expanded next expanded inside kept.size_eq⟩
  | @refused e due =>
      have failed : expand input size = .error e := by
        rw [expand, ran]
      have same : Guarded.expand input.length input size
          = .error (.refused e) := by
        rw [Guarded.expand, guarded]
        rfl
      rw [same, decompress, failed]
      exact ⟨rfl, .refused due⟩

end Handheld.Compression
