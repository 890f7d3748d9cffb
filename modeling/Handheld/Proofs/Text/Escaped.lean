import Handheld.Text.Escaped
import Handheld.Proofs.Text.Spelling
import Handheld.Proofs.Text.Utf8

/-! # Escaped bytes — how bytes are shown, and which bytes a text shows

    A byte takes one, two or four characters when it is shown, and the
    characters of an escape may also stand for themselves.  Still no text can
    be divided in two ways:

    • `IsPlain`: the bytes that are shown as themselves, and
      `length_encode_iff` counts the characters of the others;
    • `next?` reads off the byte that a text begins with, and
      `next?_encodeByte_append` says that it leaves alone what follows;
    • `flatMap_encodeByte_append_inj` goes from byte to byte, and so
      `encode_injective`: different bytes are never shown as one text. -/

namespace Handheld.Escaped

/-! ## Bytes that are shown as themselves -/

/-- A byte that prints, but the backslash. -/
def IsPlain (b : UInt8) : Prop :=
  0x20 ≤ b ∧ b ≤ 0x7E ∧ b ≠ 0x5C

instance (b : UInt8) : Decidable (IsPlain b) :=
  inferInstanceAs (Decidable (_ ∧ _ ∧ _))

theorem encodeByte_of_plain {b : UInt8} (h : IsPlain b) :
    encodeByte b = [Char.ofNat b.toNat] := by
  obtain ⟨low, high, backslash⟩ := h
  have control : ∀ c : UInt8, c < 0x20 → b ≠ c := by
    rintro c small rfl
    exact absurd low (UInt8.not_le.mpr small)
  rw [encodeByte, if_neg (control 0x00 (by decide)),
    if_neg (control 0x09 (by decide)), if_neg (control 0x0A (by decide)),
    if_neg (control 0x0D (by decide)), if_neg backslash,
    if_pos ⟨low, high⟩]

/-- An escape has two characters at least. -/
theorem two_le_length_encodeByte {b : UInt8} (h : ¬ IsPlain b) :
    2 ≤ (encodeByte b).length := by
  rw [encodeByte]
  split
  case isTrue => exact Nat.le_refl 2
  split
  case isTrue => exact Nat.le_refl 2
  split
  case isTrue => exact Nat.le_refl 2
  split
  case isTrue => exact Nat.le_refl 2
  split
  case isTrue => exact Nat.le_refl 2
  case isFalse backslash =>
  split
  case isTrue printed => exact absurd ⟨printed.1, printed.2, backslash⟩ h
  case isFalse => exact Nat.le_add_left 2 _

/-- What is shown is ASCII. -/
theorem toNat_lt_of_mem_encodeByte : ∀ (b : UInt8), ∀ c ∈ encodeByte b,
    c.toNat < 0x80 := by
  have all : ∀ b : UInt8,
      (encodeByte b).all (fun c => c.toNat < 0x80) = true :=
    Bytes.forall_byte (by decide +kernel)
  intro b c hc
  exact of_decide_eq_true (List.all_eq_true.mp (all b) c hc)

/-- A byte string has at least as many characters as bytes when it is shown,
    and no more exactly if all bytes are shown as themselves. -/
theorem length_encode_iff (bytes : Bytes) :
    bytes.length ≤ (bytes.flatMap encodeByte).length
      ∧ ((bytes.flatMap encodeByte).length = bytes.length
        ↔ ∀ b ∈ bytes, IsPlain b) := by
  induction bytes with
  | nil => exact ⟨Nat.le_refl 0, iff_of_true rfl (List.forall_mem_nil _)⟩
  | cons b bytes ih =>
      obtain ⟨atLeast, exactly⟩ := ih
      rw [List.flatMap_cons, List.length_append, List.length_cons,
        List.forall_mem_cons, ← exactly]
      by_cases plain : IsPlain b
      · rw [encodeByte_of_plain plain, List.length_singleton]
        refine ⟨by omega, ?_⟩
        rw [and_iff_right plain]
        omega
      · have escape := two_le_length_encodeByte plain
        refine ⟨by omega, ?_⟩
        rw [iff_false_right fun both => plain both.1]
        omega

/-- Bytes that are all shown as themselves. -/
theorem flatMap_encodeByte_of_plain {bytes : Bytes}
    (h : ∀ b ∈ bytes, IsPlain b) :
    bytes.flatMap encodeByte = bytes.map fun b => Char.ofNat b.toNat := by
  induction bytes with
  | nil => rfl
  | cons b bytes ih =>
      obtain ⟨first, rest⟩ := List.forall_mem_cons.mp h
      rw [List.flatMap_cons, encodeByte_of_plain first, ih rest]
      rfl

/-! ## The byte that a text begins with -/

/-- The letters of the short escapes. -/
def letters : List (Char × UInt8) :=
  [('0', 0x00), ('t', 0x09), ('n', 0x0A), ('r', 0x0D), ('\\', 0x5C)]

/-- The byte of an escape without its backslash, and what follows. -/
def escaped? : List Char → Option (UInt8 × List Char)
  | [] => none
  | letter :: rest =>
      if letter = 'x' then
        (Numeral.digits? 16 (rest.take 2)).map fun n =>
          (n.toUInt8, rest.drop 2)
      else (letters.lookup letter).map fun b => (b, rest)

/-- The byte that a text shows first, and what follows. -/
def next? : List Char → Option (UInt8 × List Char)
  | [] => none
  | c :: rest =>
      if c = '\\' then escaped? rest else some (c.toNat.toUInt8, rest)

/-- A byte is found again, whatever follows it. -/
theorem next?_encodeByte_append (b : UInt8) (rest : List Char) :
    next? (encodeByte b ++ rest) = some (b, rest) := by
  rw [encodeByte]
  -- one case for each way to show a byte
  split
  case isTrue nul => rw [nul]; rfl
  split
  case isTrue tab => rw [tab]; rfl
  split
  case isTrue lineFeed => rw [lineFeed]; rfl
  split
  case isTrue carriageReturn => rw [carriageReturn]; rfl
  split
  case isTrue backslash => rw [backslash]; rfl
  case isFalse backslash =>
  split
  case isTrue printed =>
    have number := Bytes.toNat_charOfNat b
    have other : Char.ofNat b.toNat ≠ '\\' := by
      intro same
      rw [same] at number
      exact backslash (UInt8.toNat_inj.mp number.symm)
    rw [List.singleton_append, next?, if_neg other, number]
    exact congrArg (fun b => some (b, rest)) UInt8.ofNat_toNat
  case isFalse =>
    have digits : (Numeral.upperHex 2 b.toNat).toList.length = 2 :=
      Numeral.length_upperHex (by decide) b.toNat_lt
    have value := (Numeral.digits?_eq_some_iff (by decide)).mpr
      (Numeral.writes_upperHex 2 b.toNat)
    rw [List.cons_append, List.cons_append, next?, if_pos rfl, escaped?,
      if_pos rfl, List.take_left' digits, value, List.drop_left' digits]
    exact congrArg (fun b => some (b, rest)) UInt8.ofNat_toNat

/-! ## Texts that go on -/

/-- Texts of one byte and more are the same only if the bytes are, and what
    follows. -/
theorem encodeByte_append_inj {a b : UInt8} {r s : List Char}
    (h : encodeByte a ++ r = encodeByte b ++ s) : a = b ∧ r = s := by
  have first := congrArg next? h
  rw [next?_encodeByte_append, next?_encodeByte_append] at first
  exact Prod.mk.inj (Option.some.inj first)

theorem encodeByte_ne_nil (b : UInt8) : encodeByte b ≠ [] := by
  intro none
  have found := next?_encodeByte_append b []
  rw [none] at found
  cases found

/-- The same of as many bytes on either side. -/
theorem flatMap_encodeByte_append_inj {a b : Bytes} {r s : List Char}
    (length : a.length = b.length)
    (h : a.flatMap encodeByte ++ r = b.flatMap encodeByte ++ s) :
    a = b ∧ r = s := by
  induction a generalizing b with
  | nil =>
      obtain rfl := List.length_eq_zero_iff.mp length.symm
      exact ⟨rfl, h⟩
  | cons x a ih =>
      cases b with
      | nil => cases length
      | cons y b =>
          rw [List.flatMap_cons, List.flatMap_cons, List.append_assoc,
            List.append_assoc] at h
          obtain ⟨rfl, rest⟩ := encodeByte_append_inj h
          obtain ⟨rfl, after⟩ := ih (Nat.succ.inj length) rest
          exact ⟨rfl, after⟩

/-- Texts that end with their bytes show different ones differently, however
    many they are. -/
theorem encode_injective : Function.Injective encode := by
  intro a b h
  have characters : a.flatMap encodeByte = b.flatMap encodeByte :=
    String.ofList_injective h
  clear h
  induction a generalizing b with
  | nil =>
      cases b with
      | nil => rfl
      | cons y b =>
          exact absurd (List.append_eq_nil_iff.mp characters.symm).1
            (encodeByte_ne_nil y)
  | cons x a ih =>
      cases b with
      | nil =>
          exact absurd (List.append_eq_nil_iff.mp characters).1
            (encodeByte_ne_nil x)
      | cons y b =>
          obtain ⟨rfl, rest⟩ := encodeByte_append_inj characters
          rw [ih rest]

end Handheld.Escaped
