import Handheld.Compression.Expansion

/-! # Readers — an expansion as a sequence of reading steps

    Every part of an expansion takes something off the front of the data and
    leaves the rest to the part after it.  What holds of all such parts is
    proved of a single one and of two that follow each other:

    • `Reader` is the type of these parts, `Reader.andThen` puts them one
      after the other;
    • `code_eq`, `pass_eq` and `passes_succ_eq` are the code of a pass, a
      pass and several passes in this form. -/

namespace Handheld.Compression

/-- Takes a value off the front of data, of which there were `total` bytes
    at first, and returns it with the rest. -/
abbrev Reader (α : Type) := Nat → Bytes → Except Error (Bytes × α)

namespace Reader

variable {α β : Type}

/-- The value of an attempt, for which nothing is read. -/
def attempt (result : Except Error α) : Reader α := fun _ input =>
  match result with
  | .error e => .error e
  | .ok value => .ok (input, value)

/-- Reads, and then reads what depends on the value. -/
def andThen (first : Reader α) (next : α → Reader β) : Reader β :=
  fun total input =>
    match first total input with
    | .error e => .error e
    | .ok (rest, value) => next value total rest

/-! ## The parts of an expansion -/

/-- The start of a pass over an output of `size` bytes. -/
def start (size : Nat) : Reader Nat := fun total input =>
  match passStart total size input with
  | .error e => .error e
  | .ok (position, rest) => .ok (rest, position)

/-- An instruction. -/
def instruction : Reader Instruction := fun total input =>
  match Instruction.decode input with
  | .error fault => .error (fault.toError total input)
  | .ok (i, rest) => .ok (rest, i)

/-- The code of a pass, which is executed on an output. -/
def code (output : Array UInt8) (cursor : Nat) : Reader (Array UInt8) :=
  fun total input => runCode total input output cursor

/-- The byte after the end mark of a pass. -/
def padding : Reader Unit
  | total, [] => .error (.truncated total)
  | _, _ :: rest => .ok (rest, ())

/-- A pass. -/
def pass (output : Array UInt8) : Reader (Array UInt8) :=
  fun total input => runPass total input output

/-- A number of passes. -/
def passes (count : Nat) (output : Array UInt8) : Reader (Array UInt8) :=
  fun total input => runPasses total count input output

/-! ## The parts in sequence -/

/-- What the code of a pass does after an instruction. -/
def afterInstruction (output : Array UInt8) (cursor : Nat)
    (i : Instruction) : Reader (Array UInt8) :=
  if i = .stop then attempt (.ok output)
  else (attempt (i.execute output cursor)).andThen fun after =>
    code after.1 after.2

/-- Code is an instruction, and then, unless that was the end mark, further
    code. -/
theorem code_eq (output : Array UInt8) (cursor : Nat) :
    code output cursor
      = instruction.andThen (afterInstruction output cursor) := by
  funext total input
  rw [code, runCode, andThen, instruction]
  split
  case h_1 fault h => rw [h]
  case h_2 rest h =>
    rw [h]
    rfl
  case h_3 i rest step h =>
    rw [h]
    dsimp only
    rw [afterInstruction, if_neg (fun stop => step stop)]
    cases i.execute output cursor with
    | error e => rfl
    | ok after => rfl

/-- A pass is its start, its code and a byte. -/
theorem pass_eq (output : Array UInt8) :
    pass output
      = (start output.size).andThen fun position =>
          (code output position).andThen fun after =>
            padding.andThen fun _ => attempt (.ok after) := by
  funext total input
  rw [pass, runPass, andThen, start]
  cases passStart total output.size input with
  | error e => rfl
  | ok started =>
      obtain ⟨position, rest⟩ := started
      dsimp only [andThen, code]
      cases runCode total rest output position with
      | error e => rfl
      | ok ran =>
          obtain ⟨left, after⟩ := ran
          cases left with
          | nil => rfl
          | cons pad left => rfl

/-- Passes are one pass and the others. -/
theorem passes_succ_eq (count : Nat) (output : Array UInt8) :
    passes (count + 1) output = (pass output).andThen (passes count) := by
  funext total input
  rw [passes, runPasses, andThen, pass]
  cases runPass total input output with
  | error e => rfl
  | ok ran => rfl

theorem passes_zero_eq (output : Array UInt8) :
    passes 0 output = attempt (.ok output) := rfl

/-! ## What is left -/

/-- An attempt leaves all of the data. -/
theorem rest_of_attempt {result : Except Error α} {total : Nat}
    {input rest : Bytes} {value : α}
    (h : attempt result total input = .ok (rest, value)) : rest = input := by
  cases result with
  | error e => cases h
  | ok x =>
      cases h
      rfl

/-- An instruction that is read leaves fewer bytes. -/
theorem length_lt_of_instruction {total : Nat} {input rest : Bytes}
    {i : Instruction} (h : instruction total input = .ok (rest, i)) :
    rest.length < input.length := by
  rw [instruction] at h
  split at h
  case h_1 => cases h
  case h_2 decoded =>
    cases h
    exact Instruction.decode_length_lt decoded

end Reader

end Handheld.Compression
