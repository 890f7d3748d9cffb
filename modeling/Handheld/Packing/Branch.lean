import Handheld.Packing.Error

/-! # Branches — from the start of the code to its entry point

    Code is entered at its first byte.  If the entry point is further on, a
    branch is put in front of `.text`:

    | architecture | offset             | branch                        |
    |--------------|--------------------|-------------------------------|
    | m68k         | even, to 126       | `60 dd`, `dd` from its end    |
    | m68k         | even, to 32766     | `60 00 dddd`, from its middle |
    | ARM          | 4 times n, to 2^25 | `EAnnnnnn`, words from 8 on   |
 -/

namespace Handheld

/-- The branch of a 68000 to a position after it. -/
def branch68k (offset : Nat) : Except PackError Bytes :=
  if offset % 2 ≠ 0 then .error (.entryMisaligned offset .m68k)
  else if offset ≤ 126 then .ok [0x60, offset.toUInt8]
  else if offset ≤ 32766 then
    .ok (0x60 :: 0x00 :: Bytes.bigEndian 2 (offset + 2))
  else .error (.entryOutOfRange offset .m68k)

/-- The branch of an ARM to a position after it, which is not the very
    next. -/
def branchArm (offset : Nat) : Except PackError Bytes :=
  if offset % 4 ≠ 0 then .error (.entryMisaligned offset .arm)
  else if 33554432 < offset then .error (.entryOutOfRange offset .arm)
  else .ok (Bytes.littleEndian 4 (0xEA000000 + (offset - 4) / 4))

/-- The branch that is put in front of code to enter it at an offset. -/
def entryBranch (a : Architecture) (offset : Nat) : Except PackError Bytes :=
  match a with
  | .m68k => branch68k offset
  | .arm => branchArm offset

end Handheld
