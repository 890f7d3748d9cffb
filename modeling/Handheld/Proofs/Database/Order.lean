import Handheld.Proofs.Bytes
import Handheld.Proofs.Database.Canonical

/-! # The order of keys — by bytes, by numbers and by fields

    Keys are compared by their rank, the number that their bytes are.  As all
    keys of a kind have as many bytes, this is the order of a dictionary:

    • `Bytes.value_lt_iff` compares strings of one length;
    • `Kind.rank_lt_iff` says so of the bytes of keys, and
      `keyBytes_resource_lt_iff` and `keyBytes_record_lt_iff` go on to their
      fields;
    • `Database.pairwise_keys`: the keys of a database are listed in this
      order. -/

namespace Handheld

/-! ## Strings of bytes -/

namespace Bytes

theorem value_append (front back : Bytes) :
    value (front ++ back)
      = value front * 256 ^ back.length + value back := by
  induction back using List.reverseRecOn with
  | nil =>
      rw [List.append_nil, List.length_nil, Nat.pow_zero, Nat.mul_one]
      rfl
  | append_singleton back digit ih =>
      rw [← List.append_assoc, value_append_singleton, value_append_singleton,
        ih, List.length_append, List.length_singleton, Nat.pow_succ,
        Nat.add_mul, Nat.mul_assoc, Nat.add_assoc]

/-- The first digits decide; only if they are equal do the others. -/
theorem digits_lt_iff {limit m n x y : Nat} (hx : x < limit)
    (hy : y < limit) :
    m * limit + x < n * limit + y ↔ m < n ∨ m = n ∧ x < y := by
  rcases Nat.lt_trichotomy m n with less | rfl | more
  · have room : (m + 1) * limit ≤ n * limit := Nat.mul_le_mul_right _ less
    rw [Nat.succ_mul] at room
    omega
  · omega
  · have room : (n + 1) * limit ≤ m * limit := Nat.mul_le_mul_right _ more
    rw [Nat.succ_mul] at room
    omega

/-- Strings of one length are in the order of their numbers. -/
theorem value_lt_iff {a b : Bytes} (h : a.length = b.length) :
    value a < value b ↔ a < b := by
  induction a generalizing b with
  | nil =>
      obtain rfl := List.length_eq_zero_iff.mp h.symm
      exact iff_of_false (Nat.lt_irrefl _) (List.not_lt_nil _)
  | cons x a ih =>
      cases b with
      | nil => cases h
      | cons y b =>
          have length : a.length = b.length := Nat.succ.inj h
          have digit : ∀ x : UInt8, value [x] = x.toNat := by
            intro x
            exact (value_append_singleton [] x).trans (Nat.zero_add _)
          have small := value_lt a
          rw [length] at small
          rw [List.cons_lt_cons_iff, ← ih length, ← List.singleton_append,
            value_append, ← List.singleton_append (l := b), value_append,
            length, digits_lt_iff small (value_lt b), digit, digit,
            UInt8.lt_iff_toNat_lt, UInt8.toNat_inj]

end Bytes

/-! ## Keys -/

namespace Kind

variable {k : Kind}

/-- Keys are in the order of their bytes. -/
theorem rank_lt_iff {a b : k.Key} :
    k.rank a < k.rank b ↔ k.keyBytes a < k.keyBytes b :=
  Bytes.value_lt_iff ((k.length_keyBytes a).trans (k.length_keyBytes b).symm)

/-- Keys of resources are in the order of their types, and those of one type
    in the order of their numbers. -/
theorem keyBytes_resource_lt_iff {a b : ResourceKey} :
    Kind.resource.keyBytes a < Kind.resource.keyBytes b
      ↔ a.type.bytes < b.type.bytes ∨ a.type = b.type ∧ a.id < b.id := by
  have id : ∀ key : ResourceKey,
      Bytes.value (Bytes.bigEndian 2 key.id.toNat) = key.id.toNat := by
    intro key
    exact Bytes.value_bigEndian_of_lt key.id.toNat_lt
  have types : Bytes.value a.type.bytes = Bytes.value b.type.bytes
      ↔ a.type = b.type := by
    constructor
    · intro same
      exact Tag.bytes_injective (Bytes.value_injective 4 _ _ rfl rfl same)
    · intro same
      rw [same]
  rw [← rank_lt_iff, UInt16.lt_iff_toNat_lt, ← types,
    ← Bytes.value_lt_iff (a.type.length_bytes.trans b.type.length_bytes.symm)]
  show Bytes.value (a.type.bytes ++ _) < Bytes.value (b.type.bytes ++ _) ↔ _
  rw [Bytes.value_append, Bytes.value_append, id, id, Bytes.length_bigEndian,
    Bytes.length_bigEndian]
  exact Bytes.digits_lt_iff a.id.toNat_lt b.id.toNat_lt

/-- Records are in the order of their numbers. -/
theorem keyBytes_record_lt_iff {a b : RecordId} :
    Kind.record.keyBytes a < Kind.record.keyBytes b ↔ a < b := by
  have id : ∀ id : RecordId, Kind.record.rank id = id.toNat := by
    intro id
    exact Bytes.value_bigEndian_of_lt id.isLt
  rw [← rank_lt_iff, id, id]
  rfl

end Kind

/-- The keys of a database are listed in the order of their bytes. -/
theorem Database.pairwise_keys {k : Kind} (d : Database k) :
    d.keys.Pairwise fun a b => k.keyBytes a < k.keyBytes b := by
  refine List.pairwise_map.mpr (d.pairwise_toList.imp fun before => ?_)
  exact Kind.rank_lt_iff.mp before

end Handheld
