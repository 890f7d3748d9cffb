import Handheld.Bytes
import Handheld.Json.Double

/-! # JSON — trees of values

    A tree is what a JSON text says, whether or not the program can
    represent all of it.  Texts with lone surrogates and numbers beyond the
    largest double are told apart by `Json.isSound`, which also limits how
    deep values are nested. -/

namespace Handheld

/-! ## Numbers -/

/-- A number as it is written: sign, the leading digits without the point,
    as many as fit into 64 bits, and the power of ten they are multiplied
    by.  It is plain if it has neither point nor exponent. -/
structure Number where
  negative : Bool
  coefficient : Nat
  exponent : Int
  plain : Bool
deriving DecidableEq

namespace Number

/-- A natural number. -/
def ofNat (n : Nat) : Number := ⟨false, n, 0, true⟩

/-- The numbers that a coefficient stays below. -/
def coefficientLimit : Nat := 0x1_0000_0000_0000_0000

/-- The greatest power of ten that is a double. -/
def greatestPower : Nat := 308

/-- Whether a double has the value.  Coefficient and power of ten are
    rounded to doubles before they are multiplied; a quotient is never too
    large. -/
def inRange (n : Number) : Bool :=
  if n.coefficient = 0 ∨ n.exponent < 0 then true
  else
    let power := n.exponent.toNat
    power ≤ greatestPower
      && Double.nearest n.coefficient * Double.nearest (Nat.pow 10 power)
        < Double.limit

end Number

/-! ## Values -/

/-- A JSON value.  A text that has a lone surrogate is `none`. -/
inductive Json where
  | null
  | boolean (b : Bool)
  | number (n : Number)
  | text (t : Option String)
  | array (elements : List Json)
  | object (members : List (Option String × Json))

namespace Json

/-- The value of a text. -/
def ofText (t : String) : Json := .text (some t)

/-- The value of a natural number. -/
def ofNat (n : Nat) : Json := .number (.ofNat n)

/-- The value of what may be absent. -/
def ofOption {α : Type} (f : α → Json) : Option α → Json
  | none => .null
  | some a => f a

/-- The object of these members. -/
def ofMembers (members : List (String × Json)) : Json :=
  .object (members.map fun (key, value) => (some key, value))

mutual

/-- Whether a value has only proper texts and numbers, and at most `levels`
    levels of arrays and objects. -/
def isSound (levels : Nat) : Json → Bool
  | .null => true
  | .boolean _ => true
  | .number n => n.inRange
  | .text t => t.isSome
  | .array elements =>
      match levels with
      | 0 => false
      | levels + 1 => elementsSound levels elements
  | .object members =>
      match levels with
      | 0 => false
      | levels + 1 => membersSound levels members

/-- Whether the elements of an array are sound. -/
def elementsSound (levels : Nat) : List Json → Bool
  | [] => true
  | element :: rest => isSound levels element && elementsSound levels rest

/-- Whether the members of an object are sound. -/
def membersSound (levels : Nat) : List (Option String × Json) → Bool
  | [] => true
  | (key, value) :: rest =>
      key.isSome && isSound levels value && membersSound levels rest

end

end Json

end Handheld
