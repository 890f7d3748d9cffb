import Handheld.Compression.Instruction
import Handheld.Journal

/-! # Expanding — three passes over an output of zeros

    An expansion writes into an output of known size that starts out as
    zeros.  Each pass moves a cursor from its start to the right; the
    passes may overlap or go back.  What follows the third pass is not
    read. -/

namespace Handheld.Compression

/-- Reads the start of the next pass.  `total` is the length of all the
    compressed data, `size` that of the output. -/
def passStart (total size : Nat) (input : Bytes) :
    Except Error (Nat × Bytes) :=
  let field := input.take 4
  if field.length = 4 then
    let start := Bytes.value field
    if start ≤ size then .ok (start, input.drop 4)
    else .error (.outputOverrun start 0 size)
  else .error (.truncated total)

/-- Executes the code of a pass up to its end mark, and returns what
    follows the mark. -/
def runCode (total : Nat) (input : Bytes) (output : Array UInt8)
    (cursor : Nat) : Except Error (Bytes × Array UInt8) :=
  match _h : Instruction.decode input with
  | .error fault => .error (fault.toError total input)
  | .ok (.stop, rest) => .ok (rest, output)
  | .ok (i, rest) =>
      match i.execute output cursor with
      | .error e => .error e
      | .ok (output, cursor) => runCode total rest output cursor
termination_by input.length
decreasing_by exact Instruction.decode_length_lt (by assumption)

/-- Runs one pass: its start, its code, and the byte after the end mark,
    which is passed over. -/
def runPass (total : Nat) (input : Bytes) (output : Array UInt8) :
    Except Error (Bytes × Array UInt8) :=
  match passStart total output.size input with
  | .error e => .error e
  | .ok (start, code) =>
      match runCode total code output start with
      | .error e => .error e
      | .ok ([], _) => .error (.truncated total)
      | .ok (_ :: rest, output) => .ok (rest, output)

/-- Runs a number of passes one after the other. -/
def runPasses (total : Nat) : Nat → Bytes → Array UInt8 →
    Except Error (Bytes × Array UInt8)
  | 0, input, output => .ok (input, output)
  | count + 1, input, output =>
      match runPass total input output with
      | .error e => .error e
      | .ok (rest, output) => runPasses total count rest output

/-- Expands compressed data into `size` bytes, and returns them with the
    number of bytes that were read. -/
def expand (input : Bytes) (size : Nat) : Except Error (Bytes × Nat) :=
  match runPasses input.length 3 input (Array.replicate size 0) with
  | .error e => .error e
  | .ok (rest, output) => .ok (output.toList, input.length - rest.length)

/-- Expands compressed data into `size` bytes. -/
def decompress (input : Bytes) (size : Nat) : Except Error Bytes :=
  (expand input size).map (·.1)

/-- What the passes from number `index` on report. -/
def runPassesEvents (total : Nat) (index : Nat) : Nat → Bytes →
    Array UInt8 → List Event
  | 0, _, _ => []
  | count + 1, input, output =>
      match passStart total output.size input with
      | .error _ => []
      | .ok (start, _) =>
          .debug s!"pass {index} starts writing at {start}"
            :: match runPass total input output with
              | .error _ => []
              | .ok (rest, output) =>
                  runPassesEvents total (index + 1) count rest output

/-- What expanding compressed data reports. -/
def expandEvents (input : Bytes) (size : Nat) : List Event :=
  runPassesEvents input.length 0 3 input (Array.replicate size 0)

end Handheld.Compression
