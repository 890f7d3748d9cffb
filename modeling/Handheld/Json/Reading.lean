import Handheld.Json.Token

/-! # Reading — a JSON text as a tree

    Tokens are read one by one.  What has been begun is a stack of arrays
    and objects, each with what it has so far; `Awaited` is what the next
    token has to be. -/

namespace Handheld.Json

/-- An array or object that has been begun, with what is in it so far,
    latest first.  In an object a key is waiting for its value. -/
inductive Frame where
  | array (elements : List Json)
  | object (members : List (Option String × Json)) (key : Option String)

/-- What has to come next. -/
inductive Awaited where
  | value
  | firstElement
  | firstKey
  | key
  | colon
  | separator

/-- Where reading has got to. -/
inductive Progress where
  | open (stack : List Frame) (awaited : Awaited)
  | done (value : Json)

namespace Progress

/-- Before the first token. -/
def start : Progress := .open [] .value

/-- A value is complete. -/
def put (value : Json) : List Frame → Progress
  | [] => .done value
  | .array elements :: stack =>
      .open (.array (value :: elements) :: stack) .separator
  | .object members key :: stack =>
      .open (.object ((key, value) :: members) none :: stack) .separator

/-- A value begins. -/
def beginValue? (stack : List Frame) : Token → Option Progress
  | .openArray => some (.open (.array [] :: stack) .firstElement)
  | .openObject => some (.open (.object [] none :: stack) .firstKey)
  | .text t => some (put (.text t) stack)
  | .scalar value => some (put value stack)
  | _ => none

/-- A key is complete. -/
def putKey? (t : Option String) : List Frame → Option Progress
  | .object members _ :: stack => some (.open (.object members t :: stack) .colon)
  | _ => none

/-- What follows a value in the innermost array or object. -/
def separate? : List Frame → Token → Option Progress
  | .array elements :: stack, .comma =>
      some (.open (.array elements :: stack) .value)
  | .array elements :: stack, .closeArray =>
      some (put (.array elements.reverse) stack)
  | .object members key :: stack, .comma =>
      some (.open (.object members key :: stack) .key)
  | .object members _ :: stack, .closeObject =>
      some (put (.object members.reverse) stack)
  | _, _ => none

/-- Reads one token. -/
def step? : Progress → Token → Option Progress
  | .open stack .value, token => beginValue? stack token
  | .open (.array [] :: stack) .firstElement, .closeArray =>
      some (put (.array []) stack)
  | .open stack .firstElement, token => beginValue? stack token
  | .open (.object [] _ :: stack) .firstKey, .closeObject =>
      some (put (.object []) stack)
  | .open stack .firstKey, .text t => putKey? t stack
  | .open stack .key, .text t => putKey? t stack
  | .open stack .colon, .colon => some (.open stack .value)
  | .open stack .separator, token => separate? stack token
  | _, _ => none

/-- The value, if it is complete. -/
def value? : Progress → Option Json
  | .done value => some value
  | .open _ _ => none

end Progress

/-- The value that tokens write. -/
def ofTokens? (tokens : List Token) : Option Json :=
  (tokens.foldlM Progress.step? .start).bind Progress.value?

/-- The value that a text writes. -/
def read? (text : String) : Option Json :=
  (Token.all? text).bind ofTokens?

/-! ## Values of known types -/

/-- The natural number up to `limit` that a value is. -/
def natural? (limit : Nat) : Json → Option Nat
  | .number n =>
      if n.plain ∧ n.exponent = 0 ∧ n.negative = false
          ∧ n.coefficient ≤ limit then
        some n.coefficient
      else none
  | _ => none

/-- The text that a value is. -/
def text? : Json → Option String
  | .text t => t
  | _ => none

/-- The truth value that a value is. -/
def boolean? : Json → Option Bool
  | .boolean b => some b
  | _ => none

/-- The list that a value is. -/
def list? {α : Type} (element? : Json → Option α) : Json → Option (List α)
  | .array elements => elements.mapM element?
  | _ => none

/-- What a value is unless it is null. -/
def optional? {α : Type} (value? : Json → Option α) :
    Json → Option (Option α)
  | .null => some none
  | j => (value? j).map some

/-- The value of a member; null if there is none. -/
def member (members : List (Option String × Json)) (name : String) : Json :=
  ((members.find? fun m => m.1 = some name).map (·.2)).getD .null

/-- Whether all keys are proper texts, and none of these names comes
    twice. -/
def keysSound (names : List String) (members : List (Option String × Json)) :
    Bool :=
  members.all (·.1.isSome)
    && names.all fun name =>
      (members.filter fun m => m.1 = some name).length ≤ 1

/-- The values of named fields, null for missing ones.  They are the
    members of an object, which may have others, or the leading elements of
    an array, which has no others. -/
def fields? (names : List String) : Json → Option (List Json)
  | .object members =>
      if keysSound names members then some (names.map (member members))
      else none
  | .array elements =>
      if elements.length ≤ names.length then
        some (elements ++ List.replicate (names.length - elements.length) .null)
      else none
  | _ => none

end Handheld.Json
