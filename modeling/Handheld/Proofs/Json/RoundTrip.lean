import Handheld.Json.Reading
import Handheld.Proofs.Json.Scanning

/-! # JSON texts — what is printed is read back

    A value is printed with line breaks and indentation, scanned into
    tokens, and put together from these with a stack of arrays and objects
    that have been begun.

    • `Json.isPlain`: all texts are proper, and all numbers are written with
      digits only;
    • `tokensOf` are the tokens of a value;
    • `tokens?_pieces`: these are what printing it amounts to, on any level of
      indentation;
    • `foldlM_tokensOf`: put together, they are the value, whatever has been
      begun around it;
    • `read?_print` is the round trip. -/

namespace Handheld.Json

/-! ## Values and their tokens -/

mutual

/-- Whether a value has only proper texts, and numbers that are written with
    digits only. -/
def isPlain : Json → Bool
  | .null => true
  | .boolean _ => true
  | .number n =>
      n.plain && n.exponent = 0 && n.coefficient < Number.coefficientLimit
  | .text t => t.isSome
  | .array elements => elementsPlain elements
  | .object members => membersPlain members

/-- Whether the elements of an array are plain. -/
def elementsPlain : List Json → Bool
  | [] => true
  | element :: rest => isPlain element && elementsPlain rest

/-- Whether the members of an object are plain. -/
def membersPlain : List (Option String × Json) → Bool
  | [] => true
  | (key, value) :: rest => key.isSome && isPlain value && membersPlain rest

end

theorem isPlain_ofText (t : String) : (ofText t).isPlain = true := by
  rw [ofText, isPlain]
  rfl

theorem isPlain_ofNat {n : Nat} (h : n < Number.coefficientLimit) :
    (ofNat n).isPlain = true := by
  rw [ofNat, isPlain, Bool.and_eq_true, Bool.and_eq_true]
  exact ⟨⟨rfl, rfl⟩, decide_eq_true h⟩

/-- An object is plain if its members are. -/
theorem isPlain_ofMembers {members : List (String × Json)}
    (h : ∀ m ∈ members, m.2.isPlain = true) :
    (ofMembers members).isPlain = true := by
  rw [ofMembers, isPlain]
  induction members with
  | nil => rfl
  | cons m members ih =>
      obtain ⟨first, rest⟩ := List.forall_mem_cons.mp h
      rw [List.map_cons, membersPlain, first, ih rest]
      rfl

mutual

/-- The tokens of a value. -/
def tokensOf : Json → List Token
  | .null => [.scalar .null]
  | .boolean b => [.scalar (.boolean b)]
  | .number n => [.scalar (.number n)]
  | .text t => [.text t]
  | .array [] => [.openArray, .closeArray]
  | .array (element :: rest) =>
      .openArray :: (tokensOf element ++ (elementTokens rest ++ [.closeArray]))
  | .object [] => [.openObject, .closeObject]
  | .object ((key, value) :: rest) =>
      .openObject :: .text key :: .colon
        :: (tokensOf value ++ (memberTokens rest ++ [.closeObject]))

/-- The tokens of further elements of an array. -/
def elementTokens : List Json → List Token
  | [] => []
  | element :: rest => .comma :: (tokensOf element ++ elementTokens rest)

/-- The tokens of further members of an object. -/
def memberTokens : List (Option String × Json) → List Token
  | [] => []
  | (key, value) :: rest =>
      .comma :: .text key :: .colon :: (tokensOf value ++ memberTokens rest)

end

/-! ## Putting tokens together -/

open Progress in
/-- An array may begin with a value instead of being empty. -/
theorem step?_firstElement (v : Json) (stack : List Frame)
    (rest : List Token) :
    (tokensOf v ++ rest).foldlM step? (.open (.array [] :: stack) .firstElement)
      = (tokensOf v ++ rest).foldlM step? (.open (.array [] :: stack) .value) := by
  cases v with
  | array elements => cases elements <;> rfl
  | object members => cases members <;> rfl
  | _ => rfl

open Progress in
-- the stack and what follows are arbitrary, since values stand in values
mutual

/-- The tokens of a value make up that value. -/
theorem foldlM_tokensOf : ∀ (v : Json) (stack : List Frame)
    (rest : List Token),
    (tokensOf v ++ rest).foldlM step? (.open stack .value)
      = rest.foldlM step? (put v stack)
  | .null, stack, rest => rfl
  | .boolean b, stack, rest => rfl
  | .number n, stack, rest => rfl
  | .text t, stack, rest => rfl
  | .array [], stack, rest => rfl
  | .array (element :: elements), stack, rest => by
      rw [tokensOf, List.cons_append, List.append_assoc, List.append_assoc]
      show List.foldlM step? (.open (.array [] :: stack) .firstElement) _ = _
      rw [step?_firstElement, foldlM_tokensOf element]
      exact foldlM_elementTokens elements [element] stack rest
  | .object [], stack, rest => rfl
  | .object ((key, value) :: members), stack, rest => by
      rw [tokensOf, List.cons_append, List.cons_append, List.cons_append,
        List.append_assoc, List.append_assoc]
      show List.foldlM step? (.open (.object [] key :: stack) .value) _ = _
      rw [foldlM_tokensOf value]
      exact foldlM_memberTokens members [(key, value)] stack rest

/-- The rest of an array. -/
theorem foldlM_elementTokens : ∀ (elements before : List Json)
    (stack : List Frame) (rest : List Token),
    (elementTokens elements ++ (.closeArray :: rest)).foldlM step?
        (.open (.array before :: stack) .separator)
      = rest.foldlM step? (put (.array (before.reverse ++ elements)) stack)
  | [], before, stack, rest => by
      rw [List.append_nil]
      rfl
  | element :: elements, before, stack, rest => by
      rw [elementTokens, List.cons_append, List.append_assoc]
      show List.foldlM step? (.open (.array before :: stack) .value) _ = _
      rw [foldlM_tokensOf element]
      show List.foldlM step?
        (.open (.array (element :: before) :: stack) .separator) _ = _
      rw [foldlM_elementTokens elements, List.reverse_cons,
        List.append_assoc]
      rfl

/-- The rest of an object. -/
theorem foldlM_memberTokens : ∀ (members before : List (Option String × Json))
    (stack : List Frame) (rest : List Token),
    (memberTokens members ++ (.closeObject :: rest)).foldlM step?
        (.open (.object before none :: stack) .separator)
      = rest.foldlM step? (put (.object (before.reverse ++ members)) stack)
  | [], before, stack, rest => by
      rw [List.append_nil]
      rfl
  | (key, value) :: members, before, stack, rest => by
      rw [memberTokens, List.cons_append, List.cons_append, List.cons_append,
        List.append_assoc]
      show List.foldlM step? (.open (.object before key :: stack) .value) _ = _
      rw [foldlM_tokensOf value]
      show List.foldlM step?
        (.open (.object ((key, value) :: before) none :: stack) .separator) _
          = _
      rw [foldlM_memberTokens members, List.reverse_cons, List.append_assoc]
      rfl

end

/-- Tokens of a value are put together to it. -/
theorem ofTokens?_tokensOf (v : Json) : ofTokens? (tokensOf v) = some v := by
  have all := foldlM_tokensOf v [] []
  rw [List.append_nil] at all
  rw [ofTokens?, Progress.start, all]
  rfl

/-! ## Scanning what is printed -/

/-- The characters of pieces. -/
def chars (pieces : List String) : List Char :=
  pieces.flatMap String.toList

theorem chars_cons (piece : String) (pieces : List String) :
    chars (piece :: pieces) = piece.toList ++ chars pieces :=
  List.flatMap_cons

theorem chars_append (pieces others : List String) :
    chars (pieces ++ others) = chars pieces ++ chars others :=
  List.flatMap_append

theorem toList_join (pieces : List String) :
    (String.join pieces).toList = chars pieces := by
  induction pieces with
  | nil => rfl
  | cons piece pieces ih =>
      rw [String.join_cons, String.toList_append, ih, chars_cons]

open Scan

/-- Further elements, and the end of an array, do not go on with a word. -/
theorem endsWord_elementPieces (level : Nat) (elements : List Json)
    {later : List Char} (ends : EndsWord later) :
    EndsWord (chars (elementPieces level elements) ++ later) := by
  cases elements with
  | nil => exact ends
  | cons element elements =>
      rw [elementPieces, chars_cons]
      exact endsWord_cons rfl _

theorem endsWord_memberPieces (level : Nat)
    (members : List (Option String × Json)) {later : List Char}
    (ends : EndsWord later) :
    EndsWord (chars (memberPieces level members) ++ later) := by
  cases members with
  | nil => exact ends
  | cons member members =>
      rw [memberPieces, chars_cons]
      exact endsWord_cons rfl _

theorem endsWord_newline (level : Nat) (text : List Char) :
    EndsWord ((newline level).toList ++ text) := by
  rw [newline, String.toList_append]
  exact endsWord_cons rfl _

/-- A piece that is a mark. -/
theorem tokens?_markPiece {piece : String} {c : Char} {token : Token}
    (single : piece.toList = [c]) (mark : mark? c = some token)
    (ts : List Token) (later : List Char) :
    (after ts).tokens? (piece.toList ++ later)
      = (after (token :: ts)).tokens? later := by
  rw [single]
  exact tokens?_mark mark ts later

/-- The key of a member. -/
theorem tokens?_key {key : Option String} (proper : key.isSome = true)
    (ts : List Token) (later : List Char) :
    (after ts).tokens? ((quote (key.getD "")).toList ++ (": ".toList ++ later))
      = (after (.colon :: .text key :: ts)).tokens? later := by
  obtain ⟨t, rfl⟩ := Option.isSome_iff_exists.mp proper
  have colon : ": ".toList ++ later = ':' :: ' ' :: later := rfl
  have mark : mark? ':' = some .colon := rfl
  rw [tokens?_quote, colon, tokens?_mark mark, tokens?_blank rfl]
  rfl

-- words are the only values whose end depends on what follows
mutual

/-- What is printed for a value are its tokens. -/
theorem tokens?_pieces : ∀ (v : Json) (level : Nat) (ts : List Token)
    {later : List Char}, v.isPlain = true → EndsWord later →
    (after ts).tokens? (chars (pieces level v) ++ later)
      = (after ((tokensOf v).reverse ++ ts)).tokens? later
  | .null, level, ts, later, plain, ends => by
      have word : chars (pieces level .null) = ['n', 'u', 'l', 'l'] := rfl
      rw [word]
      exact tokens?_word (List.cons_ne_nil _ _) rfl rfl ts ends
  | .boolean true, level, ts, later, plain, ends => by
      have word : chars (pieces level (.boolean true))
        = ['t', 'r', 'u', 'e'] := rfl
      rw [word]
      exact tokens?_word (List.cons_ne_nil _ _) rfl rfl ts ends
  | .boolean false, level, ts, later, plain, ends => by
      have word : chars (pieces level (.boolean false))
        = ['f', 'a', 'l', 's', 'e'] := rfl
      rw [word]
      exact tokens?_word (List.cons_ne_nil _ _) rfl rfl ts ends
  | .number n, level, ts, later, plain, ends => by
      rw [isPlain, Bool.and_eq_true, Bool.and_eq_true, decide_eq_true_eq,
        decide_eq_true_eq] at plain
      obtain ⟨⟨digits, whole⟩, fits⟩ := plain
      rw [pieces, chars_cons, List.append_assoc]
      exact tokens?_number digits whole fits ts ends
  | .text t, level, ts, later, plain, ends => by
      obtain ⟨t, rfl⟩ := Option.isSome_iff_exists.mp plain
      rw [pieces, chars_cons, List.append_assoc]
      exact tokens?_quote ts t later
  | .array [], level, ts, later, plain, ends => by
      have marks : chars (pieces level (.array [])) = ['[', ']'] := rfl
      rw [marks]
      exact (tokens?_mark rfl ts _).trans (tokens?_mark rfl _ _)
  | .array (element :: elements), level, ts, later, plain, ends => by
      rw [isPlain, elementsPlain, Bool.and_eq_true] at plain
      obtain ⟨first, rest⟩ := plain
      rw [pieces]
      simp only [chars_cons, chars_append, List.append_assoc]
      rw [tokens?_markPiece rfl rfl, tokens?_newline,
        tokens?_pieces element _ _ first
          (endsWord_elementPieces _ _ (endsWord_newline _ _)),
        tokens?_elementPieces elements _ _ rest (endsWord_newline _ _),
        tokens?_newline, tokens?_markPiece rfl rfl, tokensOf]
      simp only [List.reverse_cons, List.reverse_append, List.append_assoc]
      rfl
  | .object [], level, ts, later, plain, ends => by
      have marks : chars (pieces level (.object [])) = ['\x7b', '\x7d'] := rfl
      rw [marks]
      exact (tokens?_mark rfl ts _).trans (tokens?_mark rfl _ _)
  | .object ((key, value) :: members), level, ts, later, plain, ends => by
      rw [isPlain, membersPlain, Bool.and_eq_true, Bool.and_eq_true] at plain
      obtain ⟨⟨proper, first⟩, rest⟩ := plain
      rw [pieces]
      simp only [chars_cons, chars_append, List.append_assoc]
      rw [tokens?_markPiece rfl rfl, tokens?_newline, tokens?_key proper,
        tokens?_pieces value _ _ first
          (endsWord_memberPieces _ _ (endsWord_newline _ _)),
        tokens?_memberPieces members _ _ rest (endsWord_newline _ _),
        tokens?_newline, tokens?_markPiece rfl rfl, tokensOf]
      simp only [List.reverse_cons, List.reverse_append, List.append_assoc]
      rfl

/-- So are further elements. -/
theorem tokens?_elementPieces : ∀ (elements : List Json) (level : Nat)
    (ts : List Token) {later : List Char}, elementsPlain elements = true →
    EndsWord later →
    (after ts).tokens? (chars (elementPieces level elements) ++ later)
      = (after ((elementTokens elements).reverse ++ ts)).tokens? later
  | [], level, ts, later, plain, ends => rfl
  | element :: elements, level, ts, later, plain, ends => by
      rw [elementsPlain, Bool.and_eq_true] at plain
      obtain ⟨first, rest⟩ := plain
      rw [elementPieces]
      simp only [chars_cons, chars_append, List.append_assoc]
      rw [tokens?_markPiece rfl rfl, tokens?_newline,
        tokens?_pieces element _ _ first (endsWord_elementPieces _ _ ends),
        tokens?_elementPieces elements _ _ rest ends, elementTokens]
      simp only [List.reverse_cons, List.reverse_append, List.append_assoc]
      rfl

/-- And further members. -/
theorem tokens?_memberPieces : ∀ (members : List (Option String × Json))
    (level : Nat) (ts : List Token) {later : List Char},
    membersPlain members = true → EndsWord later →
    (after ts).tokens? (chars (memberPieces level members) ++ later)
      = (after ((memberTokens members).reverse ++ ts)).tokens? later
  | [], level, ts, later, plain, ends => rfl
  | (key, value) :: members, level, ts, later, plain, ends => by
      rw [membersPlain, Bool.and_eq_true, Bool.and_eq_true] at plain
      obtain ⟨⟨proper, first⟩, rest⟩ := plain
      rw [memberPieces]
      simp only [chars_cons, chars_append, List.append_assoc]
      rw [tokens?_markPiece rfl rfl, tokens?_newline, tokens?_key proper,
        tokens?_pieces value _ _ first (endsWord_memberPieces _ _ ends),
        tokens?_memberPieces members _ _ rest ends, memberTokens]
      simp only [List.reverse_cons, List.reverse_append, List.append_assoc]
      rfl

end

/-- What is printed on any level is read back. -/
theorem read?_pieces {v : Json} (plain : v.isPlain = true) (level : Nat) :
    read? (String.join (pieces level v)) = some v := by
  have scanned := tokens?_pieces v level [] plain endsWord_nil
  rw [List.append_nil, List.append_nil] at scanned
  have tokens : Token.all? (String.join (pieces level v))
      = some (tokensOf v) := by
    rw [all?_eq, toList_join, scanned]
    exact congrArg some (List.reverse_reverse _)
  rw [read?, tokens]
  exact ofTokens?_tokensOf v

/-- **What is printed is read back**, if it is plain. -/
theorem read?_print {v : Json} (plain : v.isPlain = true) :
    read? (print v) = some v :=
  read?_pieces plain 0

end Handheld.Json
