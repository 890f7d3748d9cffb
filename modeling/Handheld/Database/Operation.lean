import Handheld.Database.Basic

/-! # Operations — what is asked of a database, one thing after the other

    Entries are looked up, added, replaced and removed one by one.  Each
    operation is answered and leaves a database behind; a sequence of
    operations has all their answers, and leaves what the last one
    leaves. -/

namespace Handheld

/-- What is asked of a database. -/
inductive Operation (k : Kind) where
  | get (key : k.Key)
  | contains (key : k.Key)
  | size
  /-- An entry is added, or replaced. -/
  | insert (key : k.Key) (value : k.Value)
  /-- An entry is added, unless its key has one. -/
  | insertNew (key : k.Key) (value : k.Value)
  | erase (key : k.Key)

/-- What is answered: what a key has or had, whether something holds or was
    done, or a number of entries. -/
inductive Answer (k : Kind) where
  | entry (value : Option k.Value)
  | flag (holds : Bool)
  | count (n : Nat)

variable {k : Kind}

/-- The answers to operations one after the other, and what they leave. -/
def Operation.run {σ : Type} (apply : σ → Operation k → Answer k × σ)
    (state : σ) : List (Operation k) → List (Answer k) × σ
  | [] => ([], state)
  | operation :: rest =>
      let (answer, next) := apply state operation
      let (answers, final) := run apply next rest
      (answer :: answers, final)

namespace Database

/-- The answer to one operation, and the database that it leaves.  Who
    replaces or removes an entry is given the old one. -/
def apply (d : Database k) : Operation k → Answer k × Database k
  | .get key => (.entry (d.get? key), d)
  | .contains key => (.flag (d.contains key), d)
  | .size => (.count d.size, d)
  | .insert key value => (.entry (d.get? key), d.insert key value)
  | .insertNew key value => (.flag (!d.contains key), d.insertNew key value)
  | .erase key => (.entry (d.get? key), d.erase key)

/-- The answers to several operations, and the database that they leave. -/
def run (d : Database k) : List (Operation k) → List (Answer k) × Database k :=
  Operation.run apply d

end Database

end Handheld
