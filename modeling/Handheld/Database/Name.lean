import Handheld.Text.Escaped

/-! # Names — what a database is called

    A name is stored in 32 bytes, filled up with NULs.  It has at most 32
    bytes, none of which is NUL; a name of exactly 32 bytes leaves no room
    for the NUL that the device expects at its end. -/

namespace Handheld

/-- The name of a database. -/
structure Name where
  bytes : Bytes
  fits : bytes.length ≤ 32
  noNul : (0 : UInt8) ∉ bytes
deriving DecidableEq

namespace Name

/-- The size of the stored field. -/
def fieldSize : Nat := 32

/-- The name without bytes. -/
def empty : Name := ⟨[], by decide, by simp⟩

/-- The bytes up to the first NUL, at most 32 of them. -/
def ofBytes (bytes : Bytes) : Name where
  bytes := (bytes.take 32).takeWhile (· ≠ 0)
  fits := by
    have h := (List.takeWhile_sublist (fun b : UInt8 => decide (b ≠ 0))
      (l := bytes.take 32)).length_le
    simp only [List.length_take] at h
    omega
  noNul := by
    intro h
    have all := List.all_takeWhile
      (p := fun b : UInt8 => decide (b ≠ 0)) (l := bytes.take 32)
    simpa using List.all_eq_true.mp all 0 h

/-- The name of the UTF-8 bytes of a text. -/
def ofText (text : String) : Name :=
  ofBytes (Bytes.ofText text)

/-- The stored field: the bytes, filled up with NULs. -/
def padded (n : Name) : Bytes :=
  n.bytes ++ List.replicate (fieldSize - n.bytes.length) 0

/-- Whether a NUL fits after the name. -/
def isTerminated (n : Name) : Bool :=
  n.bytes.length < fieldSize

/-- A name as it is shown. -/
def text (n : Name) : String :=
  Escaped.encode n.bytes

theorem length_padded (n : Name) : n.padded.length = fieldSize := by
  have h := n.fits
  simp only [padded, fieldSize, List.length_append, List.length_replicate]
  omega

end Name

end Handheld
