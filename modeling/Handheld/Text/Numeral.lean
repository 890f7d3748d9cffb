/-! # Numerals — numbers written and read in a base

    Numbers are written in upper or lower case hexadecimal, padded to a
    number of digits or columns, and read as an optional plus sign followed
    by one or more digits whose value stays within a limit. -/

namespace Handheld.Numeral

/-! ## Writing -/

/-- A text filled up on the left to a number of characters. -/
def padLeft (fill : Char) (width : Nat) (text : String) : String :=
  String.ofList (List.replicate (width - text.length) fill) ++ text

/-- A text filled up with blanks on the right to a number of characters. -/
def padRight (width : Nat) (text : String) : String :=
  text ++ String.ofList (List.replicate (width - text.length) ' ')

/-- The lower-case hexadecimal digits of a number. -/
def hex (n : Nat) : String :=
  String.ofList (Nat.toDigits 16 n)

/-- The upper-case hexadecimal digits of a number, at least `width` of
    them. -/
def upperHex (width n : Nat) : String :=
  padLeft '0' width (String.ofList ((Nat.toDigits 16 n).map Char.toUpper))

/-- An address: `0x` and at least one upper-case hexadecimal digit. -/
def address (n : Nat) : String :=
  "0x" ++ upperHex 1 n

/-! ## Reading -/

/-- The value of an ASCII digit or letter as a digit. -/
def digit? (c : Char) : Option Nat :=
  if '0' ≤ c ∧ c ≤ '9' then some (c.toNat - '0'.toNat)
  else if 'a' ≤ c ∧ c ≤ 'z' then some (c.toNat - 'a'.toNat + 10)
  else if 'A' ≤ c ∧ c ≤ 'Z' then some (c.toNat - 'A'.toNat + 10)
  else none

/-- A digit that the base has. -/
def digitBelow? (base : Nat) (c : Char) : Option Nat :=
  (digit? c).filter (· < base)

/-- The number that one or more digits of a base write. -/
def digits? (base : Nat) (text : List Char) : Option Nat :=
  match text with
  | [] => none
  | _ :: _ =>
      text.foldl
        (fun value c => match value, digitBelow? base c with
          | some value, some digit => some (value * base + digit)
          | _, _ => none)
        (some 0)

/-- The number that a text writes: a plus sign or none, then digits, with
    a value up to `limit`. -/
def parse? (base limit : Nat) (text : List Char) : Option Nat :=
  let digits := match text with
    | '+' :: rest => rest
    | other => other
  (digits? base digits).filter (· ≤ limit)

end Handheld.Numeral
