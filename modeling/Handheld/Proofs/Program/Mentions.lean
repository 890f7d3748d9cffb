import Handheld.Build.Assembly
import Handheld.Report
import Handheld.Proofs.Database.Verdict
import Handheld.Proofs.Json.RoundTrip
import Handheld.Proofs.Text.Escaped

/-! # Mentions — what is said of a key tells which key it is

    Keys are mentioned in errors, in warnings and in listings, with text in
    front of them and behind.  The bytes of a type are found again one by one,
    and its number ends where the digits do, so that a mention can be traced
    to one key:

    • `Kind.keyText_append_inj`: a key is found again in front of anything
      that does not go on with a digit;
    • `Assembly.message_inj`, `Kind.entryLine_inj` and
      `Kind.entryJson_pieces_inj`: so it is in a warning, on the line of an
      entry and in what is printed for its members;
    • `mention_identifies` puts this together for everything that is
      shown. -/

namespace Handheld

/-! ## Numbers in front of something -/

namespace Numeral

/-- A text that does not go on with a digit. -/
def EndsNumber (text : List Char) : Prop :=
  ∀ c, text.head? = some c → c.isDigit = false

theorem endsNumber_nil : EndsNumber [] := by
  intro c none
  cases none

theorem endsNumber_cons {c : Char} (h : c.isDigit = false)
    (text : List Char) : EndsNumber (c :: text) := by
  intro d first
  cases first
  exact h

theorem endsNumber_blanks (count : Nat) (text : List Char) :
    EndsNumber (List.replicate count ' ' ++ ' ' :: text) := by
  cases count with
  | zero => exact endsNumber_cons rfl _
  | succ count => exact endsNumber_cons rfl _

theorem EndsNumber.takeWhile {text : List Char} (h : EndsNumber text) :
    text.takeWhile Char.isDigit = [] := by
  cases text with
  | nil => rfl
  | cons c text =>
      have first := h c rfl
      rw [List.takeWhile_cons, first]
      rfl

/-- A number ends where its digits end. -/
theorem toString_append_inj {m n : Nat} {r s : List Char}
    (endsR : EndsNumber r) (endsS : EndsNumber s)
    (h : (toString m).toList ++ r = (toString n).toList ++ s) : m = n := by
  have taken : ∀ (n : Nat) {text : List Char}, EndsNumber text →
      ((toString n).toList ++ text).takeWhile Char.isDigit
        = Nat.toDigits 10 n := by
    intro n text ends
    rw [Nat.toString_eq_ofList_toDigits, String.toList_ofList,
      List.takeWhile_append_of_pos, ends.takeWhile, List.append_nil]
    intro c digit
    exact Nat.isDigit_of_mem_toDigits (by decide) (by decide) digit
  have digits := congrArg (List.takeWhile Char.isDigit) h
  rw [taken m endsR, taken n endsS] at digits
  have value := congrArg (fun ds => Nat.ofDigitChars 10 ds 0) digits
  rwa [Nat.ofDigitChars_ten_toDigits, Nat.ofDigitChars_ten_toDigits] at value

/-- Numbers of the same digits are the same. -/
theorem upperHex_inj {width m n : Nat}
    (h : (upperHex width m).toList = (upperHex width n).toList) : m = n := by
  have left := (digits?_eq_some_iff (by decide)).mpr (writes_upperHex width m)
  have right := (digits?_eq_some_iff (by decide)).mpr (writes_upperHex width n)
  rw [h] at left
  exact Option.some.inj (left.symm.trans right)

end Numeral

/-! ## Members that are printed -/

namespace Json

theorem ofText_inj {s t : String} (h : ofText s = ofText t) : s = t :=
  Option.some.inj (Json.text.inj h)

theorem ofNat_inj {m n : Nat} (h : ofNat m = ofNat n) : m = n :=
  congrArg Number.coefficient (Json.number.inj h)

theorem memberPieces_append (level : Nat)
    (members others : List (Option String × Json)) :
    memberPieces level (members ++ others)
      = memberPieces level members ++ memberPieces level others := by
  induction members with
  | nil => rfl
  | cons member members ih =>
      rw [List.cons_append, memberPieces, memberPieces, ih]
      simp only [List.cons_append, List.append_assoc]

/-- A member that is a number, after others. -/
theorem chars_memberPieces_ofNat (level : Nat) (name : String) (n : Nat) :
    chars (memberPieces level [(some name, ofNat n)])
      = chars [",", newline level, quote name, ":"]
        ++ ' ' :: (toString n).toList := by
  have number : (numberText (.ofNat n)).toList = (toString n).toList := by
    rw [numberText, String.toList_append]
    rfl
  have colon : ": ".toList = ":".toList ++ [' '] := rfl
  have none : chars [] = [] := rfl
  rw [memberPieces, memberPieces, ofNat, pieces]
  simp only [chars_cons, Option.getD_some, number, colon, none,
    List.append_nil, List.append_assoc]
  rfl

/-- Objects that differ in the number that is their last member are printed
    alike in front of it, and behind. -/
theorem chars_ofMembers_concat {members : List (String × Json)}
    (others : members ≠ []) (name : String) (level : Nat) :
    ∃ front : List Char, ∀ n : Nat,
      chars (pieces level (ofMembers (members ++ [(name, .ofNat n)])))
        = front ++ ' ' :: (toString n).toList
          ++ chars [newline level, "\x7d"] := by
  obtain ⟨first, rest, rfl⟩ := List.exists_cons_of_ne_nil others
  refine ⟨chars ("\x7b" :: newline (level + 1) :: quote first.1 :: ": "
    :: (pieces (level + 1) first.2
      ++ (memberPieces (level + 1) (rest.map fun m => (some m.1, m.2))
        ++ [",", newline (level + 1), quote name, ":"]))), fun n => ?_⟩
  have last := chars_memberPieces_ofNat (level + 1) name n
  rw [ofMembers, List.map_append, List.map_cons, List.cons_append,
    List.map_singleton, pieces, memberPieces_append]
  simp only [chars_cons, chars_append, last, Option.getD_some,
    List.append_assoc]

end Json

/-! ## Keys in front of something -/

theorem Tag.text_injective : Function.Injective Tag.text :=
  fun _ _ h => Tag.bytes_injective (Escaped.encode_injective h)

theorem Name.text_injective : Function.Injective Name.text := by
  rintro ⟨a, _, _⟩ ⟨b, _, _⟩ h
  obtain rfl : a = b := Escaped.encode_injective h
  rfl

theorem ResourceKey.eq_of {a b : ResourceKey} (type : a.type = b.type)
    (id : a.id = b.id) : a = b := by
  cases a
  cases b
  cases type
  cases id
  rfl

theorem ResourceKey.toList_text (key : ResourceKey) :
    key.text.toList = key.type.bytes.flatMap Escaped.encodeByte
      ++ ' ' :: '#' :: (toString key.id.toNat).toList := by
  show (Tag.text key.type ++ " #" ++ toString key.id.toNat).toList = _
  rw [String.toList_append, String.toList_append, Tag.text, Escaped.encode,
    String.toList_ofList, List.append_assoc]
  rfl

theorem ResourceKey.text_append_inj {a b : ResourceKey} {r s : List Char}
    (endsR : Numeral.EndsNumber r) (endsS : Numeral.EndsNumber s)
    (h : a.text.toList ++ r = b.text.toList ++ s) : a = b := by
  rw [toList_text, toList_text, List.append_assoc, List.append_assoc] at h
  obtain ⟨types, rest⟩ := Escaped.flatMap_encodeByte_append_inj
    (a.type.length_bytes.trans b.type.length_bytes.symm) h
  obtain ⟨-, rest⟩ := List.cons.inj rest
  obtain ⟨-, rest⟩ := List.cons.inj rest
  exact eq_of (Tag.bytes_injective types)
    (UInt16.toNat_inj.mp (Numeral.toString_append_inj endsR endsS rest))

namespace Kind

variable {k : Kind}

/-- A key is found again in front of anything that does not go on with a
    digit. -/
theorem keyText_append_inj {a b : k.Key} {r s : List Char}
    (endsR : Numeral.EndsNumber r) (endsS : Numeral.EndsNumber s)
    (h : (k.keyText a).toList ++ r = (k.keyText b).toList ++ s) : a = b := by
  cases k with
  | resource => exact ResourceKey.text_append_inj endsR endsS h
  | record =>
      exact BitVec.eq_of_toNat_eq (Numeral.toString_append_inj endsR endsS h)

/-- It is found again between texts, too. -/
theorem keyText_between_inj {a b : k.Key} {before r s : String}
    (endsR : Numeral.EndsNumber r.toList) (endsS : Numeral.EndsNumber s.toList)
    (h : before ++ k.keyText a ++ r = before ++ k.keyText b ++ s) : a = b := by
  have characters := congrArg String.toList h
  rw [String.toList_append, String.toList_append, String.toList_append,
    String.toList_append, List.append_assoc, List.append_assoc] at characters
  exact keyText_append_inj endsR endsS (List.append_cancel_left characters)

theorem keyText_injective (k : Kind) : Function.Injective k.keyText := by
  intro a b h
  refine keyText_append_inj Numeral.endsNumber_nil Numeral.endsNumber_nil ?_
  rw [h]

/-! ## Errors and listings -/

theorem duplicateKey_message_inj {a b : k.Key}
    (h : (FormatError.duplicateKey (k.keyText a)).message
      = (FormatError.duplicateKey (k.keyText b)).message) : a = b :=
  have ends : Numeral.EndsNumber " more than once".toList :=
    Numeral.endsNumber_cons rfl _
  keyText_between_inj ends ends h

/-- The line of a resource mentions its key, and goes on with blanks. -/
theorem entryLine_resource (key : ResourceKey) (data : Bytes) :
    ∃ rest, entryLine .resource (key, data)
        = "  " ++ Kind.resource.keyText key ++ rest
      ∧ Numeral.EndsNumber rest.toList := by
  have number : Numeral.padRight 5 (toString key.id.toNat)
      = toString key.id.toNat ++ String.ofList
        (List.replicate (5 - (toString key.id.toNat).length) ' ') := rfl
  refine ⟨String.ofList
      (List.replicate (5 - (toString key.id.toNat).length) ' ')
    ++ " " ++ Numeral.padLeft ' ' 8 (toString data.length) ++ " bytes", ?_, ?_⟩
  · show "  " ++ key.type.text ++ " #"
        ++ Numeral.padRight 5 (toString key.id.toNat) ++ " "
        ++ Numeral.padLeft ' ' 8 (toString data.length) ++ " bytes"
      = "  " ++ (key.type.text ++ " #" ++ toString key.id.toNat) ++ _
    simp only [number, String.append_assoc]
  · simp only [String.toList_append, String.toList_ofList, List.append_assoc]
    exact Numeral.endsNumber_blanks _ _

/-- The line of a record begins with six digits of its number. -/
theorem entryLine_record (id : RecordId) (r : Record) :
    ∃ rest, (entryLine .record (id, r)).toList
      = "  0x".toList ++ ((Numeral.upperHex 6 id.toNat).toList ++ rest) := by
  refine ⟨(" " ++ r.attributes.describe ++ " category "
    ++ toString r.category.toNat ++ " "
    ++ Numeral.padLeft ' ' 8 (toString r.data.length) ++ " bytes").toList, ?_⟩
  rw [← String.toList_append, ← String.toList_append]
  refine congrArg String.toList ?_
  show "  " ++ ("0x" ++ Numeral.upperHex 6 id.toNat) ++ " "
      ++ r.attributes.describe ++ " category " ++ toString r.category.toNat
      ++ " " ++ Numeral.padLeft ' ' 8 (toString r.data.length) ++ " bytes"
    = ("  " ++ "0x") ++ _
  simp only [String.append_assoc]

/-- The line of an entry mentions its key. -/
theorem entryLine_inj {e f : k.Key × k.Value}
    (h : k.entryLine e = k.entryLine f) : e.1 = f.1 := by
  cases k with
  | resource =>
      obtain ⟨r, lineE, endsR⟩ := entryLine_resource e.1 e.2
      obtain ⟨s, lineF, endsS⟩ := entryLine_resource f.1 f.2
      exact keyText_between_inj endsR endsS (lineE.symm.trans (h.trans lineF))
  | record =>
      obtain ⟨r, lineE⟩ := entryLine_record e.1 e.2
      obtain ⟨s, lineF⟩ := entryLine_record f.1 f.2
      have whole := lineE.symm.trans ((congrArg String.toList h).trans lineF)
      have width : ∀ id : RecordId,
          (Numeral.upperHex 6 id.toNat).toList.length = 6 :=
        fun id => Numeral.length_upperHex (by decide) id.isLt
      obtain ⟨digits, -⟩ := List.append_inj (List.append_cancel_left whole)
        ((width e.1).trans (width f.1).symm)
      exact BitVec.eq_of_toNat_eq (Numeral.upperHex_inj digits)

/-- The members of an entry tell its key. -/
theorem entryJson_inj {e f : k.Key × k.Value}
    (h : k.entryJson e = k.entryJson f) : e.1 = f.1 := by
  cases k with
  | resource =>
      obtain ⟨first, rest⟩ := List.cons.inj (Json.object.inj h)
      obtain ⟨second, -⟩ := List.cons.inj rest
      exact ResourceKey.eq_of
        (Tag.text_injective (Json.ofText_inj (Prod.mk.inj first).2))
        (UInt16.toNat_inj.mp (Json.ofNat_inj (Prod.mk.inj second).2))
  | record =>
      obtain ⟨first, -⟩ := List.cons.inj (Json.object.inj h)
      exact BitVec.eq_of_toNat_eq (Json.ofNat_inj (Prod.mk.inj first).2)

theorem isPlain_entryJson (k : Kind) (e : k.Key × k.Value)
    (fits : (k.data e.2).length < Number.coefficientLimit) :
    (k.entryJson e).isPlain = true := by
  cases k with
  | resource =>
      have id : e.1.id.toNat < Number.coefficientLimit :=
        Nat.lt_of_lt_of_le e.1.id.toNat_lt (by decide)
      refine Json.isPlain_ofMembers fun m hm => ?_
      simp only [ResourceKey.members, List.cons_append, List.nil_append,
        List.mem_cons, List.not_mem_nil, or_false] at hm
      rcases hm with rfl | rfl | rfl
      · exact Json.isPlain_ofText _
      · exact Json.isPlain_ofNat id
      · exact Json.isPlain_ofNat fits
  | record =>
      have narrow : ∀ {bits : Nat} (n : BitVec bits), bits ≤ 64 →
          n.toNat < Number.coefficientLimit := by
        intro bits n small
        exact Nat.lt_of_lt_of_le n.isLt (Nat.pow_le_pow_right (by decide) small)
      refine Json.isPlain_ofMembers fun m hm => ?_
      simp only [List.mem_cons, List.not_mem_nil, or_false] at hm
      rcases hm with rfl | rfl | rfl | rfl
      · exact Json.isPlain_ofNat (narrow _ (by decide))
      · exact Json.isPlain_ofText _
      · exact Json.isPlain_ofNat (narrow _ (by decide))
      · exact Json.isPlain_ofNat fits

/-- The members of an entry in front of the size of its data. -/
def leadingMembers : (k : Kind) → k.Key × k.Value → List (String × Json)
  | .resource, (key, _) => ResourceKey.members key
  | .record, (id, r) =>
      [("id", Narrow.toJson id),
        ("attributes", (Record.attributes r).toJson),
        ("category", Narrow.toJson (Record.category r))]

theorem leadingMembers_ne_nil (e : k.Key × k.Value) :
    k.leadingMembers e ≠ [] := by
  cases k with
  | resource => exact List.cons_ne_nil _ _
  | record => exact List.cons_ne_nil _ _

/-- They are the same for other data. -/
theorem leadingMembers_withData (e : k.Key × k.Value) (data : Bytes) :
    k.leadingMembers (e.1, k.withData e.2 data) = k.leadingMembers e := by
  cases k with
  | resource => rfl
  | record => rfl

theorem entryJson_eq (e : k.Key × k.Value) :
    k.entryJson e = .ofMembers (k.leadingMembers e
      ++ [("size", .ofNat (k.data e.2).length)]) := by
  cases k with
  | resource => rfl
  | record => rfl

/-- What is printed for an entry with other data differs in their size
    only. -/
theorem chars_entryJson (e : k.Key × k.Value) (level : Nat) :
    ∃ front : List Char, ∀ data : Bytes,
      Json.chars (Json.pieces level (k.entryJson (e.1, k.withData e.2 data)))
        = front ++ ' ' :: (toString data.length).toList
          ++ Json.chars [Json.newline level, "\x7d"] := by
  obtain ⟨front, printed⟩ :=
    Json.chars_ofMembers_concat (leadingMembers_ne_nil e) "size" level
  refine ⟨front, fun data => ?_⟩
  rw [entryJson_eq, leadingMembers_withData, k.data_withData]
  exact printed data.length

/-- Entries without data are printed alike if entries with some are. -/
theorem pieces_entryJson_withData_nil {e f : k.Key × k.Value} {level : Nat}
    (h : String.join (Json.pieces level (k.entryJson e))
      = String.join (Json.pieces level (k.entryJson f))) :
    String.join (Json.pieces level (k.entryJson (e.1, k.withData e.2 [])))
      = String.join
        (Json.pieces level (k.entryJson (f.1, k.withData f.2 []))) := by
  have blank : ∀ n : Nat, ' ' ∉ (toString n).toList := by
    intro n digit
    rw [Nat.toString_eq_ofList_toDigits, String.toList_ofList] at digit
    cases Nat.isDigit_of_mem_toDigits (by decide) (by decide) digit
  obtain ⟨r, printedE⟩ := chars_entryJson e level
  obtain ⟨s, printedF⟩ := chars_entryJson f level
  rw [← String.toList_inj, Json.toList_join, Json.toList_join] at h ⊢
  have whole := (printedE (k.data e.2)).symm
  rw [k.withData_data] at whole
  have other := printedF (k.data f.2)
  rw [k.withData_data] at other
  -- what is in front of the size ends at the last blank
  have cut := List.append_cancel_right (whole.trans (h.trans other))
  have same := (Parts.splitLast?_eq_some_iff.mpr ⟨cut, blank _⟩).symm.trans
    (Parts.splitLast?_eq_some_iff.mpr ⟨rfl, blank _⟩)
  obtain ⟨rfl, -⟩ := Prod.mk.inj (Option.some.inj same)
  exact (printedE []).trans (printedF []).symm

/-- What is printed for an entry tells its key, however large its data
    are. -/
theorem entryJson_pieces_inj {e f : k.Key × k.Value} {level : Nat}
    (h : String.join (Json.pieces level (k.entryJson e))
      = String.join (Json.pieces level (k.entryJson f))) : e.1 = f.1 := by
  -- a size that is too large is not read, but a size of zero is
  have plain : ∀ e : k.Key × k.Value,
      (k.entryJson (e.1, k.withData e.2 [])).isPlain = true := by
    intro e
    refine k.isPlain_entryJson _ ?_
    rw [k.data_withData]
    decide
  have read := Json.read?_pieces (plain e) level
  rw [pieces_entryJson_withData_nil h, Json.read?_pieces (plain f)] at read
  show (e.1, k.withData e.2 []).1 = (f.1, k.withData f.2 []).1
  exact entryJson_inj (Option.some.inj read).symm

end Kind

/-! ## Warnings -/

namespace Assembly

/-- A warning about a resource mentions its key, and what supplied it
    first. -/
theorem message_of_mem_addEvents {a : Assembly} {origin message : String}
    {r : Resource} (h : Event.warning origin message ∈ a.addEvents origin r) :
    ∃ first, message = "resource " ++ Kind.resource.keyText r.1
      ++ (" already obtained from " ++ first ++ "; ignoring this one") := by
  rw [addEvents] at h
  split at h
  case h_1 first found =>
    have diagnostic := Event.problem.inj (List.mem_singleton.mp h)
    refine ⟨first, (congrArg Diagnostic.message diagnostic).trans ?_⟩
    show "resource " ++ Kind.resource.keyText r.1 ++ " already obtained from "
      ++ first ++ "; ignoring this one" = _
    simp only [String.append_assoc]
  case h_2 => cases h

theorem message_inj {a b : Assembly} {origin origin' message : String}
    {r r' : Resource}
    (h : Event.warning origin message ∈ a.addEvents origin r)
    (h' : Event.warning origin' message ∈ b.addEvents origin' r') :
    r.1 = r'.1 := by
  obtain ⟨first, mentioned⟩ := message_of_mem_addEvents h
  obtain ⟨first', mentioned'⟩ := message_of_mem_addEvents h'
  have ends : ∀ first : String, Numeral.EndsNumber
      (" already obtained from " ++ first ++ "; ignoring this one").toList := by
    intro first
    rw [String.toList_append, String.toList_append, List.append_assoc]
    exact Numeral.endsNumber_cons rfl _
  exact Kind.keyText_between_inj (ends first) (ends first')
    (mentioned.symm.trans mentioned')

end Assembly

/-! ## Everything that is shown -/

/-- **What is shown of bytes and of keys identifies them.**  No two byte
    strings, tags, names or keys are shown as one text.  So the error about a
    key that a directory lists twice can be about one key only, which is
    there twice; a warning that a resource came too late names one key,
    whatever supplied it and whatever supplied it first; and an entry that is
    listed, as a line or as JSON on any level, is that of one key. -/
theorem mention_identifies :
    (Function.Injective Escaped.encode ∧ Function.Injective Tag.text
        ∧ Function.Injective Name.text ∧ Function.Injective ResourceKey.text)
      ∧ (∀ (k : Kind) (image : Bytes) (text : String),
        Image.parse k image = .error (.duplicateKey text) →
          ∃ i key, Image.IsFirstRepeated
              ((Image.directory k image).map Slot.key) i key
            ∧ ∀ other, (FormatError.duplicateKey (k.keyText other)).message
              = (FormatError.duplicateKey text).message ↔ other = key)
      ∧ (∀ (a b : Assembly) (origin origin' message : String)
        (r r' : Resource),
        Event.warning origin message ∈ a.addEvents origin r →
        Event.warning origin' message ∈ b.addEvents origin' r' →
          r.1 = r'.1)
      ∧ ∀ (k : Kind) (e f : k.Key × k.Value),
        (k.entryLine e = k.entryLine f → e.1 = f.1)
          ∧ ∀ level, String.join (Json.pieces level (k.entryJson e))
              = String.join (Json.pieces level (k.entryJson f)) →
            e.1 = f.1 := by
  refine ⟨⟨Escaped.encode_injective, Tag.text_injective, Name.text_injective,
    Kind.resource.keyText_injective⟩, ?_, ?_, ?_⟩
  · intro k image text fails
    obtain ⟨rank, flaw, -⟩ := Image.parse_eq_error_iff.mp fails
    cases flaw with
    | repeated i key first =>
        refine ⟨i, key, first, fun other => ?_⟩
        constructor
        · exact Kind.duplicateKey_message_inj
        · rintro rfl
          rfl
  · intro a b origin origin' message r r' h h'
    exact Assembly.message_inj h h'
  · intro k e f
    exact ⟨Kind.entryLine_inj, fun level => Kind.entryJson_pieces_inj⟩

/-- A type that begins with a NUL and the digit of an escape, and ends like
    the beginning of one. -/
def escapedKey : ResourceKey := ⟨⟨0x00, 0x31, 0x5C, 0x78⟩, 2⟩

/-- Two resources of that key. -/
def repeatedImage : Bytes :=
  (Header.blank.withResource true).encode 0 0 ++ Bytes.bigEndian 2 2
    ++ Slot.encode .resource escapedKey [] 98
    ++ Slot.encode .resource escapedKey [] 98

theorem mention_identifies_repeatedImage :
    Image.parse .resource repeatedImage
        = .error (.duplicateKey "\\01\\\\x #2")
      ∧ (∀ other : ResourceKey,
        (FormatError.duplicateKey other.text).message
            = "directory lists \\01\\\\x #2 more than once" →
          other = escapedKey)
      ∧ (∀ (b : Assembly) (origin : String) (r : Resource),
        Event.warning origin
            "resource \\01\\\\x #2 already obtained from a.prc; ignoring this one"
          ∈ b.addEvents origin r →
          r.1 = escapedKey)
      ∧ ∀ (key : ResourceKey) (data : Bytes),
        (Kind.entryLine .resource (key, data)
            = Kind.entryLine .resource (escapedKey, ([7] : Bytes)) →
          key = escapedKey)
          ∧ ∀ level,
            String.join (Json.pieces level
                (Kind.entryJson .resource (key, data)))
              = String.join (Json.pieces level
                (Kind.entryJson .resource (escapedKey, ([7] : Bytes)))) →
            key = escapedKey := by
  obtain ⟨-, duplicate, warning, listed⟩ := mention_identifies
  have fails : Image.parse .resource repeatedImage
      = .error (.duplicateKey "\\01\\\\x #2") := by
    rfl
  obtain ⟨i, key, -, only⟩ := duplicate .resource repeatedImage _ fails
  have repeated : escapedKey = key := (only escapedKey).mp rfl
  refine ⟨fails, ?_, ?_, ?_⟩
  · intro other same
    exact ((only other).mp same).trans repeated.symm
  · intro b origin r late
    have first : Event.warning "b.prc"
        "resource \\01\\\\x #2 already obtained from a.prc; ignoring this one"
        ∈ (Assembly.empty.add "a.prc" (escapedKey, [1])).addEvents "b.prc"
          (escapedKey, [2]) :=
      List.mem_singleton.mpr rfl
    exact warning b _ origin "b.prc" _ r _ late first
  · intro key data
    exact listed .resource (key, data) (escapedKey, [7])

end Handheld
