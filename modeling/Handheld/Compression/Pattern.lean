import Handheld.Bytes

/-! # Patterns — fixed byte sequences with a few variable bytes

    Data segments of 68000 programs repeat four shapes so often that each
    has an instruction of its own, which stores the variable bytes only:

    | pattern        | bytes                     | stored    |
    |----------------|---------------------------|-----------|
    | `onesWord`     | `FF FF a b`               | `a b`     |
    | `zeroOnesWord` | `00 00 FF FF a b`         | `a b`     |
    | `shortTrap`    | `A9 F0 00 00 a b 00 c`    | `a b c`   |
    | `longTrap`     | `A9 F0 00 a b c 00 d`     | `a b c d` |
 -/

namespace Handheld.Compression

/-- One of the four shapes with its variable bytes. -/
inductive Pattern where
  | onesWord (a b : UInt8)
  | zeroOnesWord (a b : UInt8)
  | shortTrap (a b c : UInt8)
  | longTrap (a b c d : UInt8)
deriving DecidableEq

namespace Pattern

/-- The tag byte of the pattern's instruction. -/
def tag : Pattern → UInt8
  | .onesWord .. => 1
  | .zeroOnesWord .. => 2
  | .shortTrap .. => 3
  | .longTrap .. => 4

/-- The variable bytes. -/
def payload : Pattern → Bytes
  | .onesWord a b => [a, b]
  | .zeroOnesWord a b => [a, b]
  | .shortTrap a b c => [a, b, c]
  | .longTrap a b c d => [a, b, c, d]

/-- All the bytes that the pattern stands for. -/
def expansion : Pattern → Bytes
  | .onesWord a b => [0xFF, 0xFF, a, b]
  | .zeroOnesWord a b => [0x00, 0x00, 0xFF, 0xFF, a, b]
  | .shortTrap a b c => [0xA9, 0xF0, 0x00, 0x00, a, b, 0x00, c]
  | .longTrap a b c d => [0xA9, 0xF0, 0x00, a, b, c, 0x00, d]

/-- The number of bytes that the pattern stands for. -/
def outputLength : Pattern → Nat
  | .onesWord .. => 4
  | .zeroOnesWord .. => 6
  | .shortTrap .. => 8
  | .longTrap .. => 8

theorem length_expansion (p : Pattern) :
    p.expansion.length = p.outputLength := by
  cases p <;> rfl

/-- The number of variable bytes that follow a tag, if it is a pattern's
    tag. -/
def payloadLength? (tag : UInt8) : Option Nat :=
  if tag = 1 then some 2
  else if tag = 2 then some 2
  else if tag = 3 then some 3
  else if tag = 4 then some 4
  else none

/-- The pattern with this tag and these variable bytes. -/
def ofPayload? (tag : UInt8) (payload : Bytes) : Option Pattern :=
  match payload with
  | [a, b] =>
      if tag = 1 then some (.onesWord a b)
      else if tag = 2 then some (.zeroOnesWord a b)
      else none
  | [a, b, c] => if tag = 3 then some (.shortTrap a b c) else none
  | [a, b, c, d] => if tag = 4 then some (.longTrap a b c d) else none
  | _ => none

theorem ofPayload?_payload (p : Pattern) :
    ofPayload? p.tag p.payload = some p := by
  cases p <;> rfl

/-- The trap pattern that the input begins with. -/
def matchingTrap? : Bytes → Option Pattern
  | 0xA9 :: 0xF0 :: 0x00 :: a :: b :: c :: 0x00 :: d :: _ =>
      if a = 0x00 then some (.shortTrap b c d) else some (.longTrap a b c d)
  | _ => none

/-- The word pattern that the input begins with.  A third `FF` is left to
    a run of `FF`s, which stores it in fewer bytes. -/
def matchingWord? : Bytes → Option Pattern
  | 0x00 :: 0x00 :: 0xFF :: 0xFF :: a :: b :: _ => some (.zeroOnesWord a b)
  | 0xFF :: 0xFF :: a :: b :: _ =>
      if a = 0xFF then none else some (.onesWord a b)
  | _ => none

/-- The pattern that stores the beginning of the input in the fewest
    bytes. -/
def matching? (input : Bytes) : Option Pattern :=
  (matchingTrap? input).or (matchingWord? input)

end Pattern

end Handheld.Compression
