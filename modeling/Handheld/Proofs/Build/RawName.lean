import Handheld.Build.RawName
import Handheld.Proofs.Database.Guarded
import Handheld.Proofs.Text.Spelling
import Handheld.Proofs.Text.Utf8

/-! # Raw names — which files hold one resource, and which one it is

    The last four bytes of a name's stem are digits, and so are characters of
    their own.  What is in front of them therefore ends where a character
    ends, and the name falls into parts:

    • `IsNamed` says what they are, and `key?_eq_some_iff` that these are the
      names from which a key is read;
    • `Guarded.key?` takes windows of the bytes that have to exist, and
      `Guarded.key?_eq` says that they always do;
    • `exists_isNamed_iff`: the keys that have a name are those whose type is
      the bytes of a text. -/

namespace Handheld

namespace RawName

/-! ## Names -/

/-- A text is a word of lower-case letters, in either case. -/
def IsInAnyCase (text word : List Char) : Prop :=
  List.Forall₂ (fun c letter => c = letter ∨ c = letter.toUpper) text word

/-- The name of a file that holds the resource of a key: the type, four
    hexadecimal digits, and one of two extensions. -/
inductive IsNamed : String → ResourceKey → Prop where
  | intro {type digits ext extension : String} {key : ResourceKey}
      (bytes : Bytes.ofText type = key.type.bytes)
      (four : digits.toList.length = 4)
      (number : Numeral.Writes 16 digits.toList key.id.toNat)
      (known : extension ∈ extensions)
      (anyCase : IsInAnyCase ext.toList extension.toList) :
      IsNamed (type ++ digits ++ "." ++ ext) key

/-! ## Extensions -/

/-- The letters of the extensions. -/
def letters : List Char := ['b', 'i', 'n', 'g', 'r', 'c']

theorem mem_letters {extension : String} (h : extension ∈ extensions) :
    ∀ letter ∈ extension.toList, letter ∈ letters := by
  have all : extensions.all (fun extension =>
      extension.toList.all fun letter => letter ∈ letters) = true := by
    decide
  intro letter member
  exact of_decide_eq_true (List.all_eq_true.mp
    (List.all_eq_true.mp all extension h) letter member)

/-- Letters are made lower-case from either case, and from nothing else. -/
theorem toLower_eq_iff {c letter : Char} (h : letter ∈ letters) :
    c.toLower = letter ↔ c = letter ∨ c = letter.toUpper := by
  have ascii : letters.all (fun letter =>
      letter.toNat < 128 ∧ letter.toUpper.toNat < 128) = true := by
    decide
  have all : ∀ c : Char, c.toNat < 128 → letters.all (fun letter =>
      c.toLower = letter ↔ c = letter ∨ c = letter.toUpper) = true :=
    Bytes.forall_ascii (by decide +kernel)
  obtain ⟨lower, upper⟩ :=
    of_decide_eq_true (List.all_eq_true.mp ascii letter h)
  have one : c.toNat < 128 →
      (c.toLower = letter ↔ c = letter ∨ c = letter.toUpper) := fun small =>
    of_decide_eq_true (List.all_eq_true.mp (all c small) letter h)
  -- a character outside of ASCII stays as it is, and is no letter
  constructor
  · intro same
    refine (one ?_).mp same
    rw [Char.toLower] at same
    split at same
    case isTrue between =>
      have bound : c.toNat ≤ 'Z'.toNat := between.2
      exact Nat.lt_of_le_of_lt bound (by decide)
    case isFalse => rwa [same]
  · intro same
    refine (one ?_).mpr same
    rcases same with rfl | rfl
    · exact lower
    · exact upper

theorem map_toLower_eq_iff {text word : List Char}
    (h : ∀ letter ∈ word, letter ∈ letters) :
    text.map Char.toLower = word ↔ IsInAnyCase text word := by
  induction word generalizing text with
  | nil => rw [IsInAnyCase, List.forall₂_nil_right_iff, List.map_eq_nil_iff]
  | cons letter word ih =>
      obtain ⟨first, rest⟩ := List.forall_mem_cons.mp h
      cases text with
      | nil => exact iff_of_false nofun nofun
      | cons c text =>
          rw [IsInAnyCase, List.forall₂_cons, List.map_cons, List.cons.injEq,
            toLower_eq_iff first, ih rest]
          rfl

theorem isExtension_iff {text : List Char} :
    isExtension text = true
      ↔ ∃ extension ∈ extensions, IsInAnyCase text extension.toList := by
  rw [isExtension, List.contains_iff_mem]
  constructor
  · intro known
    refine ⟨_, known, (map_toLower_eq_iff (mem_letters known)).mp ?_⟩
    rw [String.toList_ofList]
  · rintro ⟨extension, known, anyCase⟩
    rw [(map_toLower_eq_iff (mem_letters known)).mpr anyCase,
      String.ofList_toList]
    exact known

/-- No extension has a dot. -/
theorem dot_notMem_of_isExtension {text : List Char}
    (h : isExtension text = true) : '.' ∉ text := by
  intro dot
  rw [isExtension, List.contains_iff_mem] at h
  have member : '.' ∈ letters := by
    refine mem_letters h '.' ?_
    rw [String.toList_ofList]
    exact List.mem_map.mpr ⟨'.', dot, by decide⟩
  revert member
  decide

/-! ## Stems -/

/-- The digits at the end of a stem are characters of their own. -/
theorem stemKey?_eq_some_iff {stem : String} {key : ResourceKey} :
    stemKey? stem.toList = some key
      ↔ ∃ type digits, stem = type ++ digits
        ∧ Bytes.ofText type = key.type.bytes ∧ digits.toList.length = 4
        ∧ Numeral.Writes 16 digits.toList key.id.toNat := by
  rw [stemKey?, String.ofList_toList]
  constructor
  · intro read
    split at read
    case isFalse => cases read
    case isTrue eight =>
      obtain ⟨n, found, rfl⟩ := Option.map_eq_some_iff.mp read
      have number := (Numeral.digits?_eq_some_iff (by decide)).mp found
      -- the digits are ASCII, so the stem can be cut in front of them
      have small : ∀ b ∈ (Bytes.ofText stem).drop 4, b < 0x80 := by
        intro b member
        have ascii := number.lt_of_mem (by decide) _ (List.mem_map_of_mem member)
        rw [Bytes.toNat_charOfNat] at ascii
        exact UInt8.lt_iff_toNat_lt.mpr ascii
      obtain ⟨type, whole, front⟩ := Bytes.exists_ofText_append
        (List.take_append_drop 4 (Bytes.ofText stem)).symm small
      have digits : (Bytes.asciiText ((Bytes.ofText stem).drop 4)).toList
          = ((Bytes.ofText stem).drop 4).map fun b => Char.ofNat b.toNat :=
        String.toList_ofList
      have four : (Bytes.asciiText ((Bytes.ofText stem).drop 4)).toList.length
          = 4 := by
        rw [digits, List.length_map, List.length_drop, eight]
      have bound := number.lt_pow
      rw [← digits, four] at bound
      refine ⟨type, _, whole, ?_, four, ?_⟩
      · rw [Tag.bytes_readAt (by omega), front]
        rfl
      · show Numeral.Writes 16 _ n.toUInt16.toNat
        rw [digits, UInt16.toNat_ofNat_of_lt' bound]
        exact number
  · rintro ⟨type, digits, rfl, bytes, four, number⟩
    have ascii := number.lt_of_mem (by decide)
    have whole : Bytes.ofText (type ++ digits)
        = key.type.bytes ++ digits.toList.map fun c => c.toNat.toUInt8 := by
      rw [Bytes.ofText_append, bytes, ← String.ofList_toList (s := digits),
        Bytes.ofText_ofList ascii, String.toList_ofList]
    have eight : (Bytes.ofText (type ++ digits)).length = 8 := by
      rw [whole, List.length_append, Tag.length_bytes, List.length_map, four]
    have back : (digits.toList.map fun c => c.toNat.toUInt8).map
        (fun b => Char.ofNat b.toNat) = digits.toList := by
      rw [List.map_map]
      refine (List.map_congr_left fun c member => ?_).trans (List.map_id _)
      exact Bytes.charOfNat_toUInt8 (ascii c member)
    have read := (Numeral.digits?_eq_some_iff (by decide)).mpr number
    have tag : Tag.readAt (Bytes.ofText (type ++ digits)) 0 = key.type := by
      refine Tag.readAt_eq ?_
      rw [whole]
      rfl
    have same : key.id.toNat.toUInt16 = key.id := UInt16.ofNat_toNat
    rw [if_pos eight, tag, whole, List.drop_left' key.type.length_bytes, back,
      read]
    show some (⟨key.type, key.id.toNat.toUInt16⟩ : ResourceKey) = some key
    rw [same]

/-! ## Names and keys -/

theorem key?_eq_some_iff {name : String} {key : ResourceKey} :
    key? name = some key ↔ IsNamed name key := by
  constructor
  · intro read
    rw [key?] at read
    cases cut : Parts.splitLast? '.' name.toList with
    | none =>
        rw [cut] at read
        cases read
    | some parts =>
        obtain ⟨stem, ext, rfl, rfl, -⟩ := Parts.exists_of_splitLast? cut
        rw [cut] at read
        dsimp only at read
        split at read
        case isFalse => cases read
        case isTrue known =>
          obtain ⟨extension, known, anyCase⟩ := isExtension_iff.mp known
          obtain ⟨type, digits, rfl, bytes, four, number⟩ :=
            stemKey?_eq_some_iff.mp read
          exact .intro bytes four number known anyCase
  · intro named
    obtain @⟨type, digits, ext, extension, _, bytes, four, number, known,
      anyCase⟩ := named
    have isKnown := isExtension_iff.mpr ⟨extension, known, anyCase⟩
    have cut : Parts.splitLast? '.' (type ++ digits ++ "." ++ ext).toList
        = some ((type ++ digits).toList, ext.toList) :=
      Parts.splitLast?_toList_eq_some_iff.mpr
        ⟨rfl, dot_notMem_of_isExtension isKnown⟩
    rw [key?, cut]
    dsimp only
    rw [if_pos isKnown]
    exact stemKey?_eq_some_iff.mpr ⟨type, digits, rfl, bytes, four, number⟩

/-! ## Windows that have to exist -/

namespace Guarded

/-- Whether a byte is a hexadecimal digit. -/
def isHexDigit (b : UInt8) : Bool :=
  (0x30 ≤ b ∧ b ≤ 0x39) ∨ (0x41 ≤ b ∧ b ≤ 0x46) ∨ (0x61 ≤ b ∧ b ≤ 0x66)

/-- The key that the bytes of a stem tell.  The bytes of the digits have to
    be a text before they are read as a number. -/
def stemKey? (stem : Bytes) : Except Image.Stop (Option ResourceKey) :=
  if stem.length = 8 then do
    let digits ← Image.Guarded.window stem 4 4
    if digits.all isHexDigit then do
      let type ← Image.Guarded.tag stem 0
      .ok ((Bytes.toText? digits).bind fun text =>
        (Numeral.parse? 16 0xFFFF text.toList).map fun id =>
          ⟨type, id.toUInt16⟩)
    else .ok none
  else .ok none

/-- The key that the name of a file tells. -/
def key? (name : String) : Except Image.Stop (Option ResourceKey) :=
  match Parts.splitLast? '.' name.toList with
  | some (stem, ext) =>
      if isExtension ext then stemKey? (Bytes.ofText (String.ofList stem))
      else .ok none
  | none => .ok none

theorem isHexDigit_eq (b : UInt8) :
    isHexDigit b
      = (Numeral.digitBelow? 16 (Char.ofNat b.toNat)).isSome := by
  revert b
  exact Bytes.forall_byte (by decide +kernel)

/-- The bytes of a number are hexadecimal digits. -/
theorem all_isHexDigit {digits : Bytes} {n : Nat}
    (h : Numeral.Writes 16 (digits.map fun b => Char.ofNat b.toNat) n) :
    digits.all isHexDigit = true := by
  refine List.all_eq_true.mpr fun b member => ?_
  obtain ⟨digit, isDigit⟩ := h.isDigit_of_mem (List.mem_map_of_mem member)
  rw [isHexDigit_eq, (Numeral.digitBelow?_eq_some_iff (by decide)).mpr isDigit]
  rfl

/-- Four hexadecimal digits are a text, without a sign and within the
    limit. -/
theorem parse_digits {digits : Bytes} (four : digits.length = 4)
    (h : digits.all isHexDigit = true) :
    ((Bytes.toText? digits).bind fun text =>
        Numeral.parse? 16 0xFFFF text.toList)
      = Numeral.digits? 16 (digits.map fun b => Char.ofNat b.toNat) := by
  have digit : ∀ b ∈ digits, ∃ digit,
      Numeral.digitBelow? 16 (Char.ofNat b.toNat) = some digit := by
    intro b member
    have isHex := List.all_eq_true.mp h b member
    rw [isHexDigit_eq] at isHex
    exact Option.isSome_iff_exists.mp isHex
  have small : ∀ b ∈ digits, b < 0x80 := by
    intro b member
    obtain ⟨_, found⟩ := digit b member
    have ascii := ((Numeral.digitBelow?_eq_some_iff (by decide)).mp found).lt
      (by decide)
    rw [Bytes.toNat_charOfNat] at ascii
    exact UInt8.lt_iff_toNat_lt.mpr ascii
  have text : Bytes.toText? digits = some (Bytes.asciiText digits) := by
    have read := Bytes.toText?_ofText (Bytes.asciiText digits)
    rwa [Bytes.ofText_asciiText small] at read
  rw [text, Option.bind_some, Bytes.asciiText, String.toList_ofList]
  refine Option.ext fun n => ?_
  -- the sign that could be read is no digit, and the limit is not reached
  rw [Numeral.parse?_eq_some_iff (by decide),
    Numeral.digits?_eq_some_iff (by decide)]
  constructor
  · rintro ⟨number | ⟨rest, sign, -⟩, -⟩
    · exact number
    · have member : '+' ∈ digits.map fun b => Char.ofNat b.toNat := by
        rw [sign]
        exact List.mem_cons_self
      obtain ⟨b, hb, plus⟩ := List.mem_map.mp member
      obtain ⟨_, found⟩ := digit b hb
      rw [plus] at found
      cases found
  · intro number
    have bound := number.lt_pow
    rw [List.length_map, four] at bound
    exact ⟨.inl number, Nat.le_of_lt_succ bound⟩

/-- No window is missing. -/
theorem stemKey?_eq (stem : List Char) :
    stemKey? (Bytes.ofText (String.ofList stem))
      = .ok (RawName.stemKey? stem) := by
  rw [stemKey?, RawName.stemKey?]
  generalize Bytes.ofText (String.ofList stem) = bytes
  by_cases eight : bytes.length = 8
  · have four : (bytes.drop 4).length = 4 := by
      rw [List.length_drop, eight]
    have window : Image.Guarded.window bytes 4 4 = .ok (bytes.drop 4) := by
      rw [Image.Guarded.window_eq (by omega), Bytes.slice,
        List.take_of_length_le (by omega)]
    rw [if_pos eight, if_pos eight, window]
    show (if (bytes.drop 4).all isHexDigit then _ else _) = _
    by_cases hex : (bytes.drop 4).all isHexDigit = true
    · rw [if_pos hex, Image.Guarded.tag_eq (by omega), ← parse_digits four hex,
        Option.map_bind]
      rfl
    · have none : Numeral.digits? 16
          ((bytes.drop 4).map fun b => Char.ofNat b.toNat) = none := by
        refine Option.eq_none_iff_forall_ne_some.mpr fun n found => hex ?_
        exact all_isHexDigit ((Numeral.digits?_eq_some_iff (by decide)).mp found)
      rw [if_neg hex, none]
      rfl
  · rw [if_neg eight, if_neg eight]

theorem key?_eq (name : String) : key? name = .ok (RawName.key? name) := by
  rw [key?, RawName.key?]
  cases Parts.splitLast? '.' name.toList with
  | none => rfl
  | some parts =>
      dsimp only
      split
      case isTrue => exact stemKey?_eq parts.1
      case isFalse => rfl

end Guarded

/-! ## Keys that have a name -/

/-- The number in upper case, and the first of the extensions. -/
theorem isNamed_upperHex {type : String} {key : ResourceKey}
    (h : Bytes.ofText type = key.type.bytes) :
    IsNamed (type ++ Numeral.upperHex 4 key.id.toNat ++ "." ++ "bin") key := by
  have four : (Numeral.upperHex 4 key.id.toNat).toList.length = 4 :=
    Numeral.length_upperHex (by decide) key.id.toNat_lt
  refine .intro h four (Numeral.writes_upperHex 4 key.id.toNat)
    List.mem_cons_self ?_
  exact List.forall₂_same.mpr fun c _ => .inl rfl

theorem exists_isNamed_iff {key : ResourceKey} :
    (∃ name, IsNamed name key)
      ↔ ∃ type, Bytes.ofText type = key.type.bytes := by
  constructor
  · rintro ⟨_, @⟨type, _, _, _, _, bytes, -, -, -, -⟩⟩
    exact ⟨type, bytes⟩
  · rintro ⟨type, bytes⟩
    exact ⟨_, isNamed_upperHex bytes⟩

/-- **Which names tell a key.**  A key is read from the names that
    `IsNamed` describes, and from no other one, and no window of the name
    has to be taken that does not exist.  The keys that have such names are
    those whose type is the bytes of a text, and no two of them share
    one. -/
theorem name_outcome :
    (∀ name : String, Guarded.key? name = .ok (key? name))
      ∧ (∀ (name : String) (key : ResourceKey),
        key? name = some key ↔ IsNamed name key)
      ∧ (∀ name : String, key? name = none ↔ ∀ key, ¬ IsNamed name key)
      ∧ (∀ key : ResourceKey, (∃ name, key? name = some key)
        ↔ ∃ type, Bytes.ofText type = key.type.bytes)
      ∧ ∀ (name : String) (a b : ResourceKey),
        IsNamed name a → IsNamed name b → a = b := by
  refine ⟨Guarded.key?_eq, fun name key => key?_eq_some_iff, fun name => ?_,
    fun key => ?_, fun name a b namedA namedB => ?_⟩
  · simp only [Option.eq_none_iff_forall_ne_some, ne_eq, key?_eq_some_iff]
  · simp only [key?_eq_some_iff]
    exact exists_isNamed_iff
  · have first := key?_eq_some_iff.mpr namedA
    rw [key?_eq_some_iff.mpr namedB] at first
    exact (Option.some.inj first).symm

/-- A type of three characters, one of them a dot; and a character in the
    place of the last byte of the type and the first digit. -/
theorem name_outcome_twoDots :
    IsNamed "é.x03e8.GRC" ⟨⟨0xC3, 0xA9, 0x2E, 0x78⟩, 1000⟩
      ∧ (∀ key, IsNamed "é.x03e8.GRC" key →
        key = ⟨⟨0xC3, 0xA9, 0x2E, 0x78⟩, 1000⟩)
      ∧ ∀ key, ¬ IsNamed "tFRé3e8.bin" key := by
  obtain ⟨-, some, none, -, one⟩ := name_outcome
  have named := (some "é.x03e8.GRC" ⟨⟨0xC3, 0xA9, 0x2E, 0x78⟩, 1000⟩).mp
    (by decide)
  exact ⟨named, fun key other => one _ _ _ other named,
    (none "tFRé3e8.bin").mp (by decide)⟩

end RawName

end Handheld
