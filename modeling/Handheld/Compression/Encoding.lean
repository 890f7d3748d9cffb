import Handheld.Compression.Instruction
import Handheld.Compression.Split
import Handheld.Journal

/-! # Compressing — an image as three passes of instructions

    Each of the three pieces of an image becomes one pass: the position
    where it starts and the code that writes it.  The code is chosen from
    left to right; what no other instruction fits goes into literals.  How
    much is tried depends on the level of effort:

    | effort | adds                                     |
    |--------|------------------------------------------|
    | 0      | literals only                            |
    | 1      | runs                                     |
    | 2      | patterns                                 |
    | 4      | leaving out the two longest zero runs    |
 -/

namespace Handheld.Compression

/-- How hard the compressor tries. -/
structure Effort where
  level : UInt8
deriving DecidableEq

namespace Effort

/-- Whether runs of equal bytes are used. -/
def usesRuns (effort : Effort) : Bool :=
  1 ≤ effort.level

/-- Whether patterns are used. -/
def usesPatterns (effort : Effort) : Bool :=
  2 ≤ effort.level

/-- Whether the longest runs of zeros are left out. -/
def splitsOnZeros (effort : Effort) : Bool :=
  4 ≤ effort.level

/-- An effort is shown as its level. -/
def text (effort : Effort) : String :=
  s!"{effort.level.toNat}"

/-- The effort that nothing else is asked for. -/
def standard : Effort := ⟨2⟩

/-- The highest level that may be asked for. -/
def maxLevel : Nat := 7

end Effort

/-! ## Choosing instructions -/

/-- The number of bytes at the beginning that equal the first. -/
def runLength : Bytes → Nat
  | [] => 0
  | b :: bytes => (bytes.takeWhile (· == b)).length + 1

/-- The fill or skip for a run at the beginning of the input.  No
    instruction takes more than 64 bytes, so no more are looked at. -/
def runInstruction? (input : Bytes) : Option Instruction :=
  match input.take Instruction.maxSkip with
  | [] => none
  | b :: window =>
      let run := runLength (b :: window)
      if b = 0x00 ∧ 2 ≤ run then some (.skip (min run Instruction.maxSkip))
      else if b = 0xFF ∧ 2 ≤ run then
        some (.fillOnes (min run Instruction.maxFillOnes))
      else if 3 ≤ run then some (.fill b (min run Instruction.maxFill))
      else none

/-- The instruction, other than a literal, for the beginning of the
    input: a pattern goes before a run. -/
def choose? (effort : Effort) (input : Bytes) : Option Instruction :=
  if effort.usesRuns then
    match (if effort.usesPatterns then Pattern.matching? input else none) with
    | some shape => some (.pattern shape)
    | none => runInstruction? input
  else none

/-- Adds the pending bytes, latest first, as a literal to the code so far,
    latest first. -/
def flush (pending : Bytes) (code : List Instruction) : List Instruction :=
  match pending with
  | [] => code
  | _ :: _ => .literal pending.reverse :: code

/-- Continues the code, latest first, with what writes the input.  The
    pending bytes, latest first, precede the input and are not yet in the
    code. -/
def codeFrom (effort : Effort) (pending : Bytes) (code : List Instruction)
    (input : Bytes) : List Instruction :=
  match input with
  | [] => flush pending code
  | b :: rest =>
      match choose? effort (b :: rest) with
      | some i =>
          codeFrom effort [] (i :: flush pending code)
            (rest.drop (i.outputLength - 1))
      | none =>
          if pending.length + 1 = Instruction.maxLiteral then
            codeFrom effort [] (flush (b :: pending) code) rest
          else codeFrom effort (b :: pending) code rest
termination_by input.length
decreasing_by
  · simp only [List.length_drop, List.length_cons]
    omega
  · simp
  · simp

/-- The code that writes a piece of an image. -/
def codeFor (effort : Effort) (piece : Bytes) : List Instruction :=
  (codeFrom effort [] [] piece).reverse

/-! ## Passes -/

/-- One pass over the output: where it starts writing, and its code. -/
structure Pass where
  start : Nat
  code : List Instruction
deriving DecidableEq

/-- The number of passes of every expansion. -/
def passCount : Nat := 3

/-- The bytes of a pass: its start in 32 bits, its code, the end mark and
    a byte that is passed over. -/
def Pass.encode (pass : Pass) : Bytes :=
  Bytes.bigEndian 4 pass.start
    ++ pass.code.flatMap Instruction.encode
    ++ Instruction.stop.encode ++ [0x00]

/-- The three passes that write an image. -/
def passes (image : Bytes) (effort : Effort) : List Pass :=
  (pieces effort.splitsOnZeros image).map fun span =>
    ⟨span.start, codeFor effort (span.cut image)⟩

/-- The number of different 32-bit words. -/
def wordLimit : Nat := 0x1_0000_0000

/-- Compresses an image. -/
def compress (image : Bytes) (effort : Effort) : Except Error Bytes :=
  let passes := passes image effort
  if passes.all (·.start < wordLimit) then .ok (passes.flatMap Pass.encode)
  else .error (.tooLarge image.length)

/-- What compressing an image reports. -/
def compressEvents (image : Bytes) (effort : Effort) : List Event :=
  ((pieces effort.splitsOnZeros image).takeWhile (·.start < wordLimit)).map
    fun span => .debug s!"pass over {span.text} at level {effort.text}"

end Handheld.Compression
