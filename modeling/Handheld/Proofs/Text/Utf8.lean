import Handheld.Bytes
import Mathlib.Data.List.Induction

/-! # UTF-8 — texts and their bytes

    The bytes of a text are those of its characters one after the other.  A
    byte below 0x80 is a character of its own wherever it stands, as the
    bytes of longer characters are all larger:

    • `ofText_ofList` for ASCII characters, `toText?_ofText` for any text;
    • `exists_ofText_append`: a text whose bytes end with such bytes ends
      with these characters, so that it may be cut in front of them. -/

namespace Handheld.Bytes

/-! ## Facts that are checked one by one -/

theorem forall_byte {P : UInt8 → Prop} (h : ∀ n < 256, P (UInt8.ofNat n))
    (b : UInt8) : P b := by
  have fact := h b.toNat b.toNat_lt
  rwa [UInt8.ofNat_toNat] at fact

theorem forall_ascii {P : Char → Prop} (h : ∀ n < 128, P (Char.ofNat n))
    (c : Char) (small : c.toNat < 128) : P c := by
  have fact := h c.toNat small
  rwa [Char.ofNat_toNat] at fact

/-! ## Characters one after the other -/

theorem ofText_ofList_eq (cs : List Char) :
    ofText (String.ofList cs) = cs.flatMap String.utf8EncodeChar := by
  rw [ofText, String.toUTF8_eq_toByteArray, String.toByteArray_ofList]
  exact List.toList_data_toByteArray

theorem ofText_append (s t : String) :
    ofText (s ++ t) = ofText s ++ ofText t := by
  rw [← String.ofList_toList (s := s), ← String.ofList_toList (s := t),
    ← String.ofList_append, ofText_ofList_eq, ofText_ofList_eq,
    ofText_ofList_eq, List.flatMap_append]

/-- The text of the bytes of a text is that text. -/
theorem toText?_ofText (t : String) : toText? (ofText t) = some t := by
  have bytes : (⟨(ofText t).toArray⟩ : ByteArray) = t.toByteArray := by
    rw [ofText, Array.toArray_toList]
    rfl
  rw [toText?, bytes, String.fromUTF8?, dif_pos t.isValidUTF8]
  rfl

/-! ## ASCII -/

/-- An ASCII character is one byte. -/
theorem utf8EncodeChar_of_lt {c : Char} (h : c.toNat < 0x80) :
    String.utf8EncodeChar c = [c.toNat.toUInt8] :=
  String.utf8EncodeChar_eq_singleton
    (Char.utf8Size_eq_one_iff.mpr (Nat.le_of_lt_succ h))

/-- The UTF-8 bytes of ASCII characters are their numbers. -/
theorem ofText_ofList {cs : List Char} (h : ∀ c ∈ cs, c.toNat < 0x80) :
    ofText (String.ofList cs) = cs.map fun c => c.toNat.toUInt8 := by
  rw [ofText_ofList_eq]
  induction cs with
  | nil => rfl
  | cons c cs ih =>
      obtain ⟨ascii, rest⟩ := List.forall_mem_cons.mp h
      rw [List.flatMap_cons, utf8EncodeChar_of_lt ascii, ih rest]
      rfl

/-- Bytes that end with a character end with one below 0x80 only if the
    character is ASCII. -/
theorem lt_of_append_utf8EncodeChar_eq {c : Char} {before front : Bytes}
    {b : UInt8} (h : before ++ String.utf8EncodeChar c = front ++ [b])
    (small : b < 0x80) : c.toNat < 0x80 := by
  have last := congrArg List.getLast? h
  rw [List.getLast?_append, List.getLast?_concat] at last
  have large : ∀ x : UInt8, ¬ x ||| 0x80 < 0x80 := by
    intro x below
    have upper := UInt8.lt_iff_toNat_lt.mp below
    rw [UInt8.toNat_or] at upper
    exact absurd upper (Nat.not_lt.mpr Nat.right_le_or)
  rcases Char.utf8Size_eq c with one | two | three | four
  · exact Nat.lt_succ_of_le (Char.utf8Size_eq_one_iff.mp one)
  · rw [String.utf8EncodeChar_eq_cons_cons two] at last
    cases last
    exact absurd small (large _)
  · rw [String.utf8EncodeChar_eq_cons_cons_cons three] at last
    cases last
    exact absurd small (large _)
  · rw [String.utf8EncodeChar_eq_cons_cons_cons_cons four] at last
    cases last
    exact absurd small (large _)

/-- Every byte is the number of a character. -/
theorem toNat_charOfNat (b : UInt8) : (Char.ofNat b.toNat).toNat = b.toNat := by
  have small : b.toNat < 256 := b.toNat_lt
  rw [Char.ofNat, dif_pos (.inl (by omega))]
  rfl

/-- An ASCII character is that of its byte. -/
theorem charOfNat_toUInt8 {c : Char} (h : c.toNat < 0x80) :
    Char.ofNat c.toNat.toUInt8.toNat = c := by
  have number : c.toNat.toUInt8.toNat = c.toNat :=
    UInt8.toNat_ofNat_of_lt (Nat.lt_trans h (by decide))
  rw [number, Char.ofNat_toNat]

/-- The characters of bytes below 0x80. -/
def asciiText (bytes : Bytes) : String :=
  String.ofList (bytes.map fun b => Char.ofNat b.toNat)

theorem ofText_asciiText {bytes : Bytes} (h : ∀ b ∈ bytes, b < 0x80) :
    ofText (asciiText bytes) = bytes := by
  rw [asciiText, ofText_ofList]
  · rw [List.map_map]
    refine (List.map_congr_left fun b hb => ?_).trans (List.map_id bytes)
    show (Char.ofNat b.toNat).toNat.toUInt8 = b
    rw [toNat_charOfNat]
    exact UInt8.ofNat_toNat
  · intro c hc
    obtain ⟨b, hb, rfl⟩ := List.mem_map.mp hc
    rw [toNat_charOfNat]
    exact UInt8.lt_iff_toNat_lt.mp (h b hb)

/-- A text whose bytes end with some below 0x80 ends with their
    characters. -/
theorem exists_ofText_append {t : String} {front ascii : Bytes}
    (h : ofText t = front ++ ascii) (small : ∀ b ∈ ascii, b < 0x80) :
    ∃ s, t = s ++ asciiText ascii ∧ ofText s = front := by
  induction ascii using List.reverseRecOn generalizing t with
  | nil =>
      rw [List.append_nil] at h
      exact ⟨t, String.append_empty.symm, h⟩
  | append_singleton ascii b ih =>
      obtain ⟨earlier, below⟩ := List.forall_mem_append.mp small
      obtain ⟨cs, rfl⟩ : ∃ cs, t = String.ofList cs :=
        ⟨t.toList, String.ofList_toList.symm⟩
      rw [ofText_ofList_eq, ← List.append_assoc] at h
      rcases List.eq_nil_or_concat cs with rfl | ⟨cs, c, rfl⟩
      · exact absurd h.symm (List.append_ne_nil_of_right_ne_nil _
          (List.cons_ne_nil _ _))
      · rw [List.concat_eq_append] at h ⊢
        rw [List.flatMap_append, List.flatMap_singleton] at h
        -- the last character ends with `b`, so it is that byte and no more
        have one := lt_of_append_utf8EncodeChar_eq h
          (below b (List.mem_singleton_self b))
        rw [utf8EncodeChar_of_lt one] at h
        obtain ⟨before, same⟩ := List.append_inj' h rfl
        obtain ⟨s, whole, bytes⟩ :=
          ih ((ofText_ofList_eq cs).trans before) earlier
        refine ⟨s, ?_, bytes⟩
        rw [String.ofList_append, whole, String.append_assoc, asciiText,
          asciiText, List.map_append, String.ofList_append]
        cases same
        rw [List.map_singleton, charOfNat_toUInt8 one]

end Handheld.Bytes
