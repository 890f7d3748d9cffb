import Handheld.Database.Key
import Handheld.Proofs.Text.Spelling
import Handheld.Proofs.Text.Utf8

/-! # Texts of keys — which texts ask for a key, and for which one

    A key is asked for by its type, a colon and its number.  As the type may
    hold colons itself, it is the last one that counts, and the number may
    be written in many ways:

    • `IsIdText` says how numbers are written, and `parseId?_eq_some_iff`
      that these are the texts that are read as one;
    • `IsAnswer` has one constructor for each thing that can be said of a
      text, in the order in which the parts are looked at;
    • `ofText_outcome`: this is what is said, and so every spelling of a key
      is read as that key. -/

namespace Handheld

/-! ## Types -/

namespace Tag

theorem ofBytes_eq_ok_iff {bytes : Bytes} {t : Tag} :
    ofBytes bytes = .ok t ↔ bytes = t.bytes := by
  constructor
  · intro h
    unfold ofBytes at h
    split at h
    case h_1 =>
      cases h
      rfl
    case h_2 => cases h
  · rintro rfl
    exact t.ofBytes_bytes

/-- Bytes that are not four are no tag. -/
theorem ofBytes_of_length_ne {bytes : Bytes} (h : bytes.length ≠ 4) :
    ofBytes bytes = .error ⟨bytes.length⟩ := by
  unfold ofBytes
  split
  case h_1 => exact absurd rfl h
  case h_2 => rfl

/-- Four bytes are one. -/
theorem exists_bytes_eq {bytes : Bytes} (h : bytes.length = 4) :
    ∃ t : Tag, bytes = t.bytes := by
  match bytes, h with
  | [a, b, c, d], _ => exact ⟨⟨a, b, c, d⟩, rfl⟩

end Tag

namespace ResourceKey

/-! ## Numbers -/

/-- A number is written with decimal digits, or after `0x` or `0X` with
    hexadecimal ones; a plus sign may stand in front of the digits. -/
def IsIdText (text : List Char) (n : Nat) : Prop :=
  Numeral.WritesSigned 10 text n
    ∨ ∃ x digits, (x = 'x' ∨ x = 'X') ∧ text = '0' :: x :: digits
      ∧ Numeral.WritesSigned 16 digits n

/-- Only digits follow the zero of a decimal number. -/
theorem not_writesSigned_marked {x : Char} (h : x = 'x' ∨ x = 'X')
    (digits : List Char) (n : Nat) :
    ¬ Numeral.WritesSigned 10 ('0' :: x :: digits) n := by
  have noDigit : Numeral.digitBelow? 10 x = none := by
    rcases h with rfl | rfl
    · rfl
    · rfl
  rintro (number | ⟨_, sign, -⟩)
  · exact number.notMem (by decide) noDigit
      (List.mem_cons_of_mem _ List.mem_cons_self)
  · cases sign

/-- A number is read exactly if it is written, within sixteen bits. -/
theorem parseId?_eq_some_iff {text : List Char} {n : Nat} :
    parseId? text = some n ↔ IsIdText text n ∧ n ≤ 0xFFFF := by
  have hexadecimal : ∀ {x : Char} (digits : List Char), (x = 'x' ∨ x = 'X') →
      (Numeral.parse? 16 0xFFFF digits = some n
        ↔ IsIdText ('0' :: x :: digits) n ∧ n ≤ 0xFFFF) := by
    intro x digits mark
    rw [Numeral.parse?_eq_some_iff (by decide)]
    refine and_congr_left fun _ => ?_
    constructor
    · intro number
      exact .inr ⟨x, digits, mark, rfl, number⟩
    · rintro (decimal | ⟨_, _, -, same, number⟩)
      · exact absurd decimal (not_writesSigned_marked mark digits n)
      · cases same
        exact number
  unfold parseId?
  split
  case h_1 digits => exact hexadecimal digits (.inl rfl)
  case h_2 digits => exact hexadecimal digits (.inr rfl)
  case h_3 lower upper =>
    rw [Numeral.parse?_eq_some_iff (by decide)]
    refine and_congr_left fun _ => ?_
    constructor
    · exact .inl
    · rintro (number | ⟨x, digits, rfl | rfl, same, -⟩)
      · exact number
      · exact absurd same (lower digits)
      · exact absurd same (upper digits)

/-- No colon is part of a number. -/
theorem IsIdText.colon_notMem {text : List Char} {n : Nat}
    (h : IsIdText text n) : ':' ∉ text := by
  have signed : ∀ {base : Nat} {text : List Char}, base ≤ 16 →
      Numeral.WritesSigned base text n → ':' ∉ text := by
    intro base text small number
    rcases number with number | ⟨digits, rfl, number⟩
    · exact number.notMem small rfl
    · exact List.not_mem_cons_of_ne_of_not_mem (by decide)
        (number.notMem small rfl)
  rcases h with decimal | ⟨x, digits, mark, rfl, number⟩
  · exact signed (by decide) decimal
  · have other : ':' ≠ x := by
      rcases mark with rfl | rfl
      · decide
      · decide
    exact List.not_mem_cons_of_ne_of_not_mem (by decide)
      (List.not_mem_cons_of_ne_of_not_mem other (signed (by decide) number))

/-! ## What is said of a text -/

/-- What is said of a text: the key that it spells, or the first thing that
    is wrong with it. -/
inductive IsAnswer : String → Except TextError ResourceKey → Prop where
  | key {type id : String} {key : ResourceKey}
      (last : ':' ∉ id.toList) (bytes : Bytes.ofText type = key.type.bytes)
      (number : IsIdText id.toList key.id.toNat) :
      IsAnswer (type ++ ":" ++ id) (.ok key)
  | separatorMissing {text : String} (none : ':' ∉ text.toList) :
      IsAnswer text (.error .separatorMissing)
  | badType {type id : String} (last : ':' ∉ id.toList)
      (other : (Bytes.ofText type).length ≠ 4) :
      IsAnswer (type ++ ":" ++ id)
        (.error (.badType ⟨(Bytes.ofText type).length⟩))
  | badId {type id : String} (last : ':' ∉ id.toList)
      (four : (Bytes.ofText type).length = 4)
      (none : ∀ n ≤ 0xFFFF, ¬ IsIdText id.toList n) :
      IsAnswer (type ++ ":" ++ id) (.error (.badId id))

/-- The parts of a text are looked at one after the other. -/
theorem ofText_of_last {type id : String} (last : ':' ∉ id.toList) :
    ofText (type ++ ":" ++ id) = match Tag.ofBytes (Bytes.ofText type) with
      | .error e => .error (.badType e)
      | .ok type => match parseId? id.toList with
        | none => .error (.badId id)
        | some id => .ok ⟨type, id.toUInt16⟩ := by
  have cut : Parts.splitLast? ':' (type ++ ":" ++ id).toList
      = some (type.toList, id.toList) :=
    Parts.splitLast?_toList_eq_some_iff.mpr ⟨rfl, last⟩
  rw [ofText, cut]
  simp only [String.ofList_toList]
  rfl

/-- Every text is said to be something. -/
theorem isAnswer_ofText (text : String) : IsAnswer text (ofText text) := by
  cases cut : Parts.splitLast? ':' text.toList with
  | none =>
      have answer : ofText text = .error .separatorMissing := by
        rw [ofText, cut]
      rw [answer]
      exact .separatorMissing (Parts.splitLast?_eq_none_iff.mp cut)
  | some parts =>
      obtain ⟨type, id, -, rfl, last⟩ := Parts.exists_of_splitLast? cut
      show IsAnswer (type ++ ":" ++ id) (ofText (type ++ ":" ++ id))
      rw [ofText_of_last last]
      by_cases four : (Bytes.ofText type).length = 4
      · obtain ⟨tag, bytes⟩ := Tag.exists_bytes_eq four
        rw [Tag.ofBytes_eq_ok_iff.mpr bytes]
        cases read : parseId? id.toList with
        | none =>
            refine .badId last four fun n limit number => ?_
            cases read.symm.trans (parseId?_eq_some_iff.mpr ⟨number, limit⟩)
        | some n =>
            obtain ⟨number, limit⟩ := parseId?_eq_some_iff.mp read
            refine .key last bytes ?_
            rwa [UInt16.toNat_ofNat_of_lt' (Nat.lt_succ_of_le limit)]
      · rw [Tag.ofBytes_of_length_ne four]
        exact .badType last four

/-- Only one thing is said of a text. -/
theorem IsAnswer.ofText_eq {text : String}
    {answer : Except TextError ResourceKey} (h : IsAnswer text answer) :
    ofText text = answer := by
  cases h with
  | @key type id key last bytes number =>
      have limit : key.id.toNat ≤ 0xFFFF := Nat.le_of_lt_succ key.id.toNat_lt
      rw [ofText_of_last last, Tag.ofBytes_eq_ok_iff.mpr bytes,
        parseId?_eq_some_iff.mpr ⟨number, limit⟩]
      have same : key.id.toNat.toUInt16 = key.id := UInt16.ofNat_toNat
      show Except.ok (⟨key.type, key.id.toNat.toUInt16⟩ : ResourceKey) = _
      rw [same]
  | separatorMissing none =>
      rw [ofText, Parts.splitLast?_eq_none_iff.mpr none]
  | badType last other =>
      rw [ofText_of_last last, Tag.ofBytes_of_length_ne other]
  | @badId type id last four none =>
      have read : parseId? id.toList = Option.none := by
        refine Option.eq_none_iff_forall_ne_some.mpr fun n found => ?_
        obtain ⟨number, limit⟩ := parseId?_eq_some_iff.mp found
        exact none n limit number
      obtain ⟨tag, bytes⟩ := Tag.exists_bytes_eq four
      rw [ofText_of_last last, Tag.ofBytes_eq_ok_iff.mpr bytes, read]

/-! ## Spellings -/

theorem isIdText_toDigits (n : Nat) : IsIdText (Nat.toDigits 10 n) n :=
  .inl (.inl (Numeral.writes_toDigits (by decide) (by decide) n))

/-- **Which texts ask for a key.**  What is said of a text is what `IsAnswer`
    says of it, and nothing else.  So a key is read from its type, a colon
    and any spelling of its number, and the keys that can be asked for are
    those whose type is the bytes of a text. -/
theorem ofText_outcome :
    (∀ (text : String) (answer : Except TextError ResourceKey),
      ofText text = answer ↔ IsAnswer text answer)
      ∧ (∀ (key : ResourceKey) (type id : String),
        Bytes.ofText type = key.type.bytes → IsIdText id.toList key.id.toNat →
          ofText (type ++ ":" ++ id) = .ok key)
      ∧ ∀ key : ResourceKey, (∃ text, ofText text = .ok key)
        ↔ ∃ type, Bytes.ofText type = key.type.bytes := by
  refine ⟨fun text answer => ?_, fun key type id bytes number => ?_,
    fun key => ?_⟩
  · constructor
    · rintro rfl
      exact isAnswer_ofText text
    · exact IsAnswer.ofText_eq
  · exact (IsAnswer.key number.colon_notMem bytes number).ofText_eq
  · constructor
    · rintro ⟨text, read⟩
      have answer := isAnswer_ofText text
      rw [read] at answer
      cases answer with
      | @key type id _ last bytes number => exact ⟨type, bytes⟩
    · rintro ⟨type, bytes⟩
      have number := isIdText_toDigits key.id.toNat
      rw [← String.toList_ofList (l := Nat.toDigits 10 key.id.toNat)]
        at number
      exact ⟨_, (IsAnswer.key number.colon_notMem bytes number).ofText_eq⟩

/-- A type of three characters, one of them a colon, and a number with a
    mark, a sign and zeros. -/
theorem ofText_outcome_twoColons :
    Bytes.ofText "a:é" = [0x61, 0x3A, 0xC3, 0xA9]
      ∧ IsIdText "0X+003e8".toList 1000
      ∧ ofText "a:é:0X+003e8" = .ok ⟨⟨0x61, 0x3A, 0xC3, 0xA9⟩, 1000⟩ := by
  have bytes : Bytes.ofText "a:é" = [0x61, 0x3A, 0xC3, 0xA9] := by decide
  have number : IsIdText "0X+003e8".toList 1000 := by
    have read : Numeral.digits? 16 "003e8".toList = some 1000 := by decide
    exact .inr ⟨'X', "+003e8".toList, .inr rfl, rfl, .inr ⟨"003e8".toList, rfl,
      (Numeral.digits?_eq_some_iff (by decide)).mp read⟩⟩
  obtain ⟨-, spelled, -⟩ := ofText_outcome
  exact ⟨bytes, number,
    spelled ⟨⟨0x61, 0x3A, 0xC3, 0xA9⟩, 1000⟩ "a:é" "0X+003e8" bytes number⟩

end ResourceKey

end Handheld
