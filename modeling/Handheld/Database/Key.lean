import Handheld.Database.Tag
import Handheld.Text.Parts
import Handheld.Text.Quoted

/-! # Resource keys — a type and an identifier

    Resources are told apart by a tag and a number of 16 bits.  A key is
    asked for as `TYPE:ID`, where the number is decimal or, after `0x`,
    hexadecimal, and shown as `TYPE #ID`. -/

namespace Handheld

/-- What tells a resource from the others of its database. -/
structure ResourceKey where
  type : Tag
  id : UInt16
deriving DecidableEq

namespace ResourceKey

/-- A key as it is shown. -/
def text (k : ResourceKey) : String :=
  s!"{k.type.text} #{k.id.toNat}"

/-- The key's bytes: the type, then the number. -/
def bytes (k : ResourceKey) : Bytes :=
  k.type.bytes ++ Bytes.bigEndian 2 k.id.toNat

/-- Why a text is no key. -/
inductive TextError where
  | separatorMissing
  | badType (cause : Tag.WrongLength)
  | badId (text : String)
deriving DecidableEq

/-- The wording of the error. -/
def TextError.message : TextError → String
  | .separatorMissing => "expected TYPE:ID"
  | .badType cause => s!"invalid resource type: {cause.message}"
  | .badId text => s!"invalid resource id {Quoted.encode text}"

/-- The wording of the error behind the error. -/
def TextError.source? : TextError → Option String
  | .badType cause => some cause.message
  | _ => none

/-- The number that the text of an identifier writes. -/
def parseId? (text : List Char) : Option Nat :=
  match text with
  | '0' :: 'x' :: digits => Numeral.parse? 16 0xFFFF digits
  | '0' :: 'X' :: digits => Numeral.parse? 16 0xFFFF digits
  | digits => Numeral.parse? 10 0xFFFF digits

/-- The key that a text asks for.  The type may hold colons; the last one
    separates. -/
def ofText (text : String) : Except TextError ResourceKey :=
  match Parts.splitLast? ':' text.toList with
  | none => .error .separatorMissing
  | some (typeText, idText) =>
      match Tag.ofText (String.ofList typeText) with
      | .error e => .error (.badType e)
      | .ok type =>
          match parseId? idText with
          | none => .error (.badId (String.ofList idText))
          | some id => .ok ⟨type, id.toUInt16⟩

end ResourceKey

end Handheld
