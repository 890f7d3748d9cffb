import Handheld.Text.Numeral
import Handheld.Text.Parts

/-! # Flags — sets of named bits

    A set of bits is written as the names of its bits, in the order of the
    table, with ` | ` in between; bits without a name follow as one
    hexadecimal number.  It is read from names and numbers in any order,
    with any white space around them. -/

namespace Handheld.Flags

/-- Names and the bits they stand for. -/
abbrev Table := List (String × Nat)

/-- The bits that have a name. -/
def known (table : Table) : Nat :=
  table.foldl (fun bits flag => bits ||| flag.2) 0

/-- The bits of a set that have no name. -/
def unknown (table : Table) (bits : Nat) : Nat :=
  bits &&& (bits ^^^ known table)

/-- The names of a set, and a number for its bits without a name. -/
def parts (table : Table) (bits : Nat) : List String :=
  (table.filter fun flag => bits &&& flag.2 = flag.2).map (·.1)
    ++ (if unknown table bits = 0 then []
        else ["0x" ++ Numeral.hex (unknown table bits)])

/-- A set as it is written. -/
def text (table : Table) (bits : Nat) : String :=
  Parts.join " | " (parts table bits)

/-- The bits of one name or number of up to `limit`. -/
def parsePart? (table : Table) (limit : Nat) (part : List Char) :
    Option Nat :=
  match Parts.trim part with
  | '0' :: 'x' :: digits => Numeral.parse? 16 limit digits
  | name => (table.find? fun flag => flag.1.toList = name).map (·.2)

/-- The bits of several parts together. -/
def parseParts? (table : Table) (limit : Nat) :
    List (List Char) → Option Nat
  | [] => some 0
  | part :: rest =>
      match parsePart? table limit part, parseParts? table limit rest with
      | some bits, some others => some (bits ||| others)
      | _, _ => none

/-- The set that a text writes; a blank one writes the empty set. -/
def parse? (table : Table) (limit : Nat) (text : String) : Option Nat :=
  if Parts.trim text.toList = [] then some 0
  else parseParts? table limit (Parts.splitAll '|' text.toList)

end Handheld.Flags
