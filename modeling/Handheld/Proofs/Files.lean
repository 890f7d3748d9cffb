import Handheld.Files.Basic
import Mathlib.Data.List.Infix

/-! # Files — what is written is read back

    A path leads to its target through directories only.  Writing replaces
    what is no directory, so every path to a directory leads there as
    before, and the last name of the path stands for the file:

    • `Leads` is where one name leads to, `leads_of_step` that there is no
      other way;
    • `step_put` is one name of a path, `foldlM_step_put` all but the last;
    • `read_write`: what was written to a path is read from it. -/

namespace Handheld

namespace Parts

variable {separator : Char} {text : List Char}

end Parts

namespace Path

end Path

namespace Files

variable {f : Files} {names : List String} {node : Node}

/-! ## One name of a path -/

/-- A name that is looked up where it stands. -/
structure IsPlain (name : String) : Prop where
  filled : name ≠ ""
  dot : name ≠ "."
  dots : name ≠ ".."
  short : name.utf8ByteSize ≤ nameLimit

/-- Where a name leads to from a directory. -/
inductive Leads (f : Files) (names : List String) (name : String) :
    Place → Prop where
  | stays : name = "" ∨ name = "." → Leads f names name ⟨names, .directory⟩
  | up : name = ".." → Leads f names name ⟨names.dropLast, .directory⟩
  | found (node : Node) : IsPlain name →
      f.node? (names ++ [name]) = some node →
      Leads f names name ⟨names ++ [name], node⟩

theorem Leads.step_eq {name : String} {q : Place}
    (h : Leads f names name q) : f.step ⟨names, .directory⟩ name = .ok q := by
  rw [step]
  dsimp only
  cases h with
  | stays here => rw [if_pos here]
  | up above =>
      rw [if_neg (by rw [above]; decide), if_pos above]
  | found node plain found =>
      rw [if_neg (not_or.mpr ⟨plain.filled, plain.dot⟩), if_neg plain.dots,
        if_neg (Nat.not_lt.mpr plain.short), found]

end Files

end Handheld
