import Handheld.Proofs.Database.Written

/-! # Database round trip — what is written is read back

    `parse_serialize`: the image of a database is read as the database in
    normal form, by readers of its kind and by those that go by the header.
    A database that is in normal form already is read back as it is. -/

namespace Handheld

variable {k : Kind}

/-- A database as one of either kind. -/
def Database.toAny : {k : Kind} → Database k → AnyDatabase
  | .resource, d => .resource d
  | .record, d => .record d

namespace Image

/-- A reader that goes by the header finds the database of its kind. -/
theorem parseAny_eq_ok {image : Bytes} {d : Database k}
    (h : parse k image = .ok d) : parseAny image = .ok d.toAny := by
  obtain ⟨_, _, reads⟩ := parse_eq_ok_iff.mp h
  have long : ¬ image.length < Header.size := by
    have inside := reads.opened.inside
    rw [directoryEnd] at inside
    omega
  have kind_eq : kind image = .ok k := by
    rw [kind, RawHeader.read, if_neg long, Except.map,
      reads.opened.isResource]
    cases k <;> rfl
  rw [parseAny, kind_eq]
  cases k with
  | resource =>
      show (parse .resource image).map _ = _
      rw [h]
      rfl
  | record =>
      show (parse .record image).map _ = _
      rw [h]
      rfl

end Image

namespace Database

/-- **A written database is read back.**  Whatever the header, the gap, the
    side blocks and the entries are, what is read is the database with the
    resource flag of its kind and with the attribute bytes of its records
    split anew.  Nothing changes if the flag agrees already and no record
    has attributes among the bits of its category. -/
theorem parse_serialize (d : Database k) {image : Bytes}
    (h : d.serialize = .ok image) :
    Image.parse k image = .ok d.normalize
      ∧ Image.parseAny image = .ok d.normalize.toAny
      ∧ (d.header.isResource = k.isResource →
          (∀ entry ∈ d.toList, k.IsSplit entry.2) → d.normalize = d) := by
  obtain ⟨fits, rfl⟩ := serialize_eq_ok_iff.mp h
  have parsed := parse_image fits
  exact ⟨parsed, Image.parseAny_eq_ok parsed, normalize_eq_self⟩

/-- Two records, one without data and one with attributes among the bits of
    its category, behind an AppInfo block that is present but empty. -/
def sampleRecords : Database .record where
  header := Header.blank
  appInfo := some []
  sortInfo := some [0x51]
  gap := conventionalGap
  entries := ((new .record Header.blank).insertAll
    [((7 : RecordId), ⟨⟨0x4A⟩, 5, [1, 2]⟩), ((3 : RecordId), ⟨⟨0x80⟩, 1, []⟩)]).entries

theorem parse_serialize_sampleRecords :
    sampleRecords.serialize = .ok sampleRecords.image
      ∧ Image.parse .record sampleRecords.image = .ok sampleRecords.normalize
      ∧ Image.parseAny sampleRecords.image
        = .ok (.record sampleRecords.normalize)
      ∧ sampleRecords.normalize.normalize = sampleRecords.normalize := by
  have written : sampleRecords.serialize = .ok sampleRecords.image := by rfl
  have again : sampleRecords.normalize.serialize
      = .ok sampleRecords.normalize.image := by rfl
  obtain ⟨parsed, any, -⟩ := parse_serialize sampleRecords written
  obtain ⟨-, -, normal⟩ := parse_serialize sampleRecords.normalize again
  exact ⟨written, parsed, any, normal (by decide) (by decide)⟩

end Database

end Handheld
