import Handheld.Report
import Handheld.Proofs.Database.KeyText
import Handheld.Proofs.Json.RoundTrip
import Handheld.Proofs.Text.Escaped

/-! # Keys as JSON — which of them are read back

    Tags are written as they are shown, with escapes, and read by their UTF-8
    bytes, which knows of no escapes.  Each escape makes the text longer than
    the tag, so that what is not four characters then is not read at all.

    • `Tag.ofText_text`: a tag whose bytes are all shown as themselves is read
      back, and no other one;
    • `ResourceKey.ofJson?_ofMembers`: so is a key, in whatever object it
      stands;
    • `Json.ReadsBack` is all that matters of how objects become texts;
    • `ResourceKey.printed_outcome` puts them together for the texts that are
      printed here. -/

namespace Handheld

/-! ## Tags -/

namespace Tag

/-- The UTF-8 bytes of a tag as it is shown. -/
theorem ofText_bytes (t : Tag) : Bytes.ofText t.text
    = (t.bytes.flatMap Escaped.encodeByte).map fun c => c.toNat.toUInt8 := by
  refine Bytes.ofText_ofList fun c hc => ?_
  obtain ⟨b, -, member⟩ := List.mem_flatMap.mp hc
  exact Escaped.toNat_lt_of_mem_encodeByte b c member

/-- Whether all bytes of a tag are shown as themselves. -/
def isPlain (t : Tag) : Bool :=
  t.bytes.all fun b => Escaped.IsPlain b

theorem isPlain_iff (t : Tag) :
    t.isPlain = true ↔ ∀ b ∈ t.bytes, Escaped.IsPlain b := by
  rw [isPlain, List.all_eq_true]
  simp only [decide_eq_true_eq]

/-- A plain tag is read back, and no other one is read at all. -/
theorem ofText_text (t : Tag) :
    (ofText t.text).toOption = if t.isPlain then some t else none := by
  rw [ofText, ofText_bytes]
  by_cases plain : t.isPlain
  · have same : (t.bytes.flatMap Escaped.encodeByte).map
        (fun c => c.toNat.toUInt8) = t.bytes := by
      rw [Escaped.flatMap_encodeByte_of_plain (t.isPlain_iff.mp plain),
        List.map_map]
      refine List.map_congr_left (fun b hb => ?_) |>.trans (List.map_id _)
      show (Char.ofNat b.toNat).toNat.toUInt8 = b
      rw [Bytes.toNat_charOfNat]
      exact UInt8.ofNat_toNat
    rw [same, ofBytes_bytes, if_pos plain]
    rfl
  · have longer : (t.bytes.flatMap Escaped.encodeByte).length ≠ 4 := fun four =>
      plain (t.isPlain_iff.mpr ((Escaped.length_encode_iff t.bytes).2.mp four))
    rw [if_neg plain, ofBytes_of_length_ne (by rwa [List.length_map])]
    rfl

theorem ofJson?_toJson (t : Tag) :
    ofJson? t.toJson = if t.isPlain then some t else none :=
  t.ofText_text

end Tag

/-! ## Keys -/

namespace ResourceKey

theorem natural?_id (id : UInt16) :
    (Json.ofNat id.toNat).natural? 0xFFFF = some id.toNat := by
  refine if_pos ⟨rfl, rfl, rfl, ?_⟩
  exact Nat.le_of_lt_succ id.toNat_lt

/-- The members of a key and others are those of one object. -/
theorem keysSound_members (key : ResourceKey) {others : List (String × Json)}
    (apart : ∀ m ∈ others, m.1 ≠ "type" ∧ m.1 ≠ "id") :
    Json.keysSound ["type", "id"]
      ((key.members ++ others).map fun m => (some m.1, m.2)) = true := by
  have none : ∀ name ∈ ["type", "id"],
      (others.map fun m => (some m.1, m.2)).filter
        (fun m => m.1 = some name) = ([] : List (Option String × Json)) := by
    intro name hname
    refine List.filter_eq_nil_iff.mpr fun m hm same => ?_
    obtain ⟨other, member, rfl⟩ := List.mem_map.mp hm
    obtain rfl : other.1 = name := Option.some.inj (of_decide_eq_true same)
    rcases List.mem_cons.mp hname with type | id
    · exact (apart other member).1 type
    · exact (apart other member).2 (List.mem_singleton.mp id)
  obtain ⟨type, id, -⟩ := by
    simpa only [List.forall_mem_cons] using none
  rw [Json.keysSound, Bool.and_eq_true]
  constructor
  · refine List.all_eq_true.mpr fun m hm => ?_
    obtain ⟨other, -, rfl⟩ := List.mem_map.mp hm
    rfl
  · simp [members, type, id]

/-- A key is read from an object with its members, whatever others the object
    has. -/
theorem ofJson?_ofMembers (key : ResourceKey) {others : List (String × Json)}
    (apart : ∀ m ∈ others, m.1 ≠ "type" ∧ m.1 ≠ "id") :
    ofJson? (.ofMembers (key.members ++ others))
      = if key.type.isPlain then some key else none := by
  have fields : (Json.ofMembers (key.members ++ others)).fields? ["type", "id"]
      = some [key.type.toJson, .ofNat key.id.toNat] :=
    if_pos (keysSound_members key apart)
  rw [ofJson?, fields]
  show ofFields? [key.type.toJson, .ofNat key.id.toNat] = _
  rw [ofFields?, Tag.ofJson?_toJson, natural?_id]
  by_cases plain : key.type.isPlain
  · have id : key.id.toNat.toUInt16 = key.id := UInt16.ofNat_toNat
    simp only [if_pos plain, id]
  · simp only [if_neg plain]

end ResourceKey

/-! ## Printed keys -/

/-- Whether a reader gets back all plain values that a printer prints. -/
def Json.ReadsBack (print : Json → String) (read? : String → Option Json) :
    Prop :=
  ∀ v : Json, v.isPlain = true → read? (print v) = some v

theorem Json.readsBack : ReadsBack print read? :=
  fun _ plain => read?_print plain

section Printed

variable {print : Json → String} {read? : String → Option Json}
  (back : Json.ReadsBack print read?)

include back

/-- A tag that is printed on its own. -/
theorem Tag.ofJson?_print (t : Tag) :
    (read? (print t.toJson)).bind ofJson?
      = if t.isPlain then some t else none := by
  rw [back t.toJson (Json.isPlain_ofText _), Option.bind_some, t.ofJson?_toJson]

/-- A key whose members are printed in an object with others. -/
theorem ResourceKey.ofJson?_print (key : ResourceKey)
    {others : List (String × Json)}
    (apart : ∀ m ∈ others, m.1 ≠ "type" ∧ m.1 ≠ "id")
    (plain : ∀ m ∈ others, m.2.isPlain = true) :
    (read? (print (.ofMembers (key.members ++ others)))).bind ofJson?
      = if key.type.isPlain then some key else none := by
  have id : (Json.ofNat key.id.toNat).isPlain = true :=
    Json.isPlain_ofNat (Nat.lt_of_lt_of_le key.id.toNat_lt (by decide))
  have all : ∀ m ∈ key.members ++ others, m.2.isPlain = true := by
    intro m hm
    rcases List.mem_append.mp hm with own | other
    · rcases List.mem_cons.mp own with rfl | own
      · exact Json.isPlain_ofText _
      · rw [List.mem_singleton.mp own]
        exact id
    · exact plain m other
  rw [back _ (Json.isPlain_ofMembers all), Option.bind_some,
    key.ofJson?_ofMembers apart]

/-- A key that is printed on its own. -/
theorem ResourceKey.ofJson?_print_toJson (key : ResourceKey) :
    (read? (print key.toJson)).bind ofJson?
      = if key.type.isPlain then some key else none := by
  have alone := @ofJson?_print _ _ back key [] (List.forall_mem_nil _)
    (List.forall_mem_nil _)
  rwa [List.append_nil] at alone

/-- A key that is printed in the entry of a database. -/
theorem ResourceKey.ofJson?_print_entryJson (key : ResourceKey) {data : Bytes}
    (fits : data.length < Number.coefficientLimit) :
    (read? (print (Kind.entryJson .resource (key, data)))).bind ofJson?
      = if key.type.isPlain then some key else none := by
  refine ofJson?_print back key ?_ ?_
  · intro m hm
    have size : m.1 = "size" := congrArg Prod.fst (List.mem_singleton.mp hm)
    rw [size]
    decide
  · intro m hm
    rw [List.mem_singleton.mp hm]
    exact Json.isPlain_ofNat fits

/-- Which tags and keys are read back, by any reader from any printer that it
    gets plain values back from. -/
theorem ResourceKey.outcome_of_readsBack (key : ResourceKey) {data : Bytes}
    (fits : data.length < Number.coefficientLimit) :
    (read? (print key.type.toJson)).bind Tag.ofJson?
        = (if key.type.isPlain then some key.type else none)
      ∧ (read? (print key.toJson)).bind ofJson?
        = (if key.type.isPlain then some key else none)
      ∧ (read? (print (Kind.entryJson .resource (key, data)))).bind ofJson?
        = if key.type.isPlain then some key else none :=
  ⟨key.type.ofJson?_print back, key.ofJson?_print_toJson back,
    key.ofJson?_print_entryJson back fits⟩

end Printed

/-- **Which tags and keys are read back.**  What is printed for a tag, for a
    key, or for an entry of a database is read as that tag or that key if the
    type is shown as it is, and is not read at all if there is an escape
    in it. -/
theorem ResourceKey.printed_outcome (key : ResourceKey) (data : Bytes)
    (fits : data.length < Number.coefficientLimit) :
    (Json.read? key.type.toJson.print).bind Tag.ofJson?
        = (if key.type.isPlain then some key.type else none)
      ∧ (Json.read? key.toJson.print).bind ofJson?
        = (if key.type.isPlain then some key else none)
      ∧ (Json.read? (Kind.entryJson .resource (key, data)).print).bind ofJson?
        = if key.type.isPlain then some key else none :=
  key.outcome_of_readsBack Json.readsBack fits

/-- The key of ordinary code is read back, alone and in the entry of a byte
    of code. -/
theorem ResourceKey.printed_outcome_code :
    (Json.read? (⟨.ofChars 'c' 'o' 'd' 'e', 1⟩ : ResourceKey).toJson.print).bind ofJson?
        = some ⟨.ofChars 'c' 'o' 'd' 'e', 1⟩
      ∧ (Json.read? (Kind.entryJson .resource
          ((⟨.ofChars 'c' 'o' 'd' 'e', 1⟩ : ResourceKey), ([0x4E] : Bytes))).print).bind ofJson?
        = some ⟨.ofChars 'c' 'o' 'd' 'e', 1⟩ := by
  have plain : (Tag.ofChars 'c' 'o' 'd' 'e').isPlain = true := by decide
  obtain ⟨-, alone, entry⟩ :=
    ResourceKey.printed_outcome ⟨.ofChars 'c' 'o' 'd' 'e', 1⟩ [0x4E] (by decide)
  rw [if_pos plain] at alone entry
  exact ⟨alone, entry⟩

/-- A tag that begins with a NUL is not read back, neither on its own nor in
    a key. -/
theorem escapedType_lost :
    (Json.read? (⟨0x00, 0x61, 0x62, 0x63⟩ : Tag).toJson.print).bind Tag.ofJson?
        ≠ some ⟨0x00, 0x61, 0x62, 0x63⟩
      ∧ (Json.read? (⟨⟨0x00, 0x61, 0x62, 0x63⟩, 1⟩ : ResourceKey).toJson.print
          ).bind ResourceKey.ofJson?
        ≠ some ⟨⟨0x00, 0x61, 0x62, 0x63⟩, 1⟩ := by
  have escaped : ¬ (⟨0x00, 0x61, 0x62, 0x63⟩ : Tag).isPlain = true := by decide
  constructor
  · rw [Tag.ofJson?_print Json.readsBack, if_neg escaped]
    exact (Option.some_ne_none _).symm
  · rw [ResourceKey.ofJson?_print_toJson Json.readsBack, if_neg escaped]
    exact (Option.some_ne_none _).symm

end Handheld
