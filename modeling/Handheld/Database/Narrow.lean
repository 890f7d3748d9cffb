/-! # Narrow numbers — numbers of a given number of bits

    Record identifiers have 24 bits and categories four.  A wider number is
    refused or cut to its lowest bits. -/

namespace Handheld.Narrow

/-- A number that does not fit into `bits` bits. -/
structure Misfit where
  value : Nat
  bits : Nat
deriving DecidableEq

/-- The wording of the error. -/
def Misfit.message (e : Misfit) : String :=
  s!"value {e.value} does not fit into {e.bits} bits"

/-- The number in `bits` bits, if it fits. -/
def ofNat? (bits value : Nat) : Option (BitVec bits) :=
  if value < Nat.pow 2 bits then some (BitVec.ofNat bits value) else none

/-- The number in `bits` bits, or the reason why it does not fit. -/
def check (bits value : Nat) : Except Misfit (BitVec bits) :=
  match ofNat? bits value with
  | some n => .ok n
  | none => .error ⟨value, bits⟩

/-- The lowest `bits` bits of a number. -/
def masked (bits value : Nat) : BitVec bits :=
  BitVec.ofNat bits value

/-- The greatest number of `bits` bits. -/
def greatest (bits : Nat) : Nat :=
  Nat.pow 2 bits - 1

end Handheld.Narrow
