import Handheld.Text.Numeral
import Handheld.Text.Parts
import Handheld.Proofs.Text.Utf8
import Mathlib

/-! # Spelling — texts that are cut, and texts that write numbers

    What a text asks for is found by cutting it at its last separator and
    reading digits.  Both are said here without the functions that do it:

    • `Parts.splitLast?_eq_some_iff`: a text is cut where the separator is
      not found again, and only a text without separators is not cut;
    • `Numeral.Writes` is the grammar of numbers in a base, digit by digit,
      and `digits?_eq_some_iff` says that this is what is read;
    • `writes_toDigits` and `Writes.zeros`: every number has its digits, also
      with zeros in front. -/

namespace Handheld

/-! ## The last separator -/

namespace Parts

variable {separator : Char} {text before after : List Char}

theorem splitLast?_eq_none_iff :
    splitLast? separator text = none ↔ separator ∉ text := by
  induction text with
  | nil => exact iff_of_true rfl (List.not_mem_nil)
  | cons c text ih =>
      rw [splitLast?, List.mem_cons, not_or, ← ih]
      cases splitLast? separator text with
      | some parts => exact iff_of_false nofun fun none => nomatch none.2
      | none =>
          show (if c = separator then some ([], text) else none) = none ↔ _
          by_cases same : c = separator
          · rw [if_pos same]
            exact iff_of_false nofun fun both => both.1 same.symm
          · rw [if_neg same]
            exact iff_of_true rfl ⟨fun equal => same equal.symm, rfl⟩

/-- A text is cut at the separator after which there is none. -/
theorem splitLast?_eq_some_iff :
    splitLast? separator text = some (before, after)
      ↔ text = before ++ separator :: after ∧ separator ∉ after := by
  induction text generalizing before after with
  | nil =>
      refine iff_of_false nofun ?_
      rintro ⟨empty, -⟩
      exact List.append_ne_nil_of_right_ne_nil _ (List.cons_ne_nil _ _)
        empty.symm
  | cons c text ih =>
      rw [splitLast?]
      cases found : splitLast? separator text with
      | some parts =>
          -- the rest is cut, so the first character stands before the cut
          obtain ⟨front, back⟩ := parts
          obtain ⟨cut, last⟩ := ih.mp found
          show some (c :: front, back) = some (before, after) ↔ _
          constructor
          · intro same
            cases same
            exact ⟨by rw [cut]; rfl, last⟩
          · rintro ⟨whole, none⟩
            cases before with
            | nil =>
                obtain ⟨-, rfl⟩ := List.cons.inj whole
                rw [cut] at none
                exact absurd (List.mem_append_right _ List.mem_cons_self) none
            | cons d before =>
                obtain ⟨rfl, rest⟩ := List.cons.inj whole
                cases found.symm.trans (ih.mpr ⟨rest, none⟩)
                rfl
      | none =>
          have absent := splitLast?_eq_none_iff.mp found
          show (if c = separator then some ([], text) else none) = _ ↔ _
          constructor
          · intro cut
            split at cut
            case isTrue same =>
                cases cut
                exact ⟨by rw [same]; rfl, absent⟩
            case isFalse => cases cut
          · rintro ⟨whole, none⟩
            cases before with
            | nil =>
                obtain ⟨rfl, rfl⟩ := List.cons.inj whole
                exact if_pos rfl
            | cons d before =>
                obtain ⟨-, rest⟩ := List.cons.inj whole
                rw [rest] at absent
                exact absurd (List.mem_append_right _ List.mem_cons_self)
                  absent

/-- The same of whole texts. -/
theorem splitLast?_toList_eq_some_iff {text before after : String} :
    splitLast? separator text.toList = some (before.toList, after.toList)
      ↔ text = before ++ String.ofList [separator] ++ after
        ∧ separator ∉ after.toList := by
  rw [splitLast?_eq_some_iff, ← String.toList_inj, String.toList_append,
    String.toList_append, String.toList_ofList, List.append_assoc,
    List.singleton_append]

/-- What a text is cut into are texts. -/
theorem exists_of_splitLast? {text : String} {parts : List Char × List Char}
    (h : splitLast? separator text.toList = some parts) :
    ∃ before after : String, parts = (before.toList, after.toList)
      ∧ text = before ++ String.ofList [separator] ++ after
      ∧ separator ∉ after.toList := by
  obtain ⟨before, after⟩ := parts
  rw [← String.toList_ofList (l := before),
    ← String.toList_ofList (l := after)] at h
  refine ⟨String.ofList before, String.ofList after, ?_,
    splitLast?_toList_eq_some_iff.mp h⟩
  rw [String.toList_ofList, String.toList_ofList]

end Parts

/-! ## Digits -/

namespace Numeral

/-- The digits of the bases up to sixteen, in lower case. -/
def lowerDigits : List Char :=
  ['0', '1', '2', '3', '4', '5', '6', '7', '8', '9', 'a', 'b', 'c', 'd',
    'e', 'f']

/-- The same in upper case. -/
def upperDigits : List Char :=
  ['0', '1', '2', '3', '4', '5', '6', '7', '8', '9', 'A', 'B', 'C', 'D',
    'E', 'F']

/-- A character is a digit of a base, in either case. -/
def IsDigit (base : Nat) (c : Char) (digit : Nat) : Prop :=
  digit < base
    ∧ (lowerDigits[digit]? = some c ∨ upperDigits[digit]? = some c)

/-- A digit is found from its character. -/
theorem digit?_of_listed : ∀ digit < 16,
    (lowerDigits[digit]?).bind digit? = some digit
      ∧ (upperDigits[digit]?).bind digit? = some digit := by
  decide

/-- Only ASCII characters have a value. -/
theorem lt_of_digit? {c : Char} {digit : Nat} (h : digit? c = some digit) :
    c.toNat < 128 := by
  have bound : ∀ high : Char, c ≤ high → c.toNat ≤ high.toNat :=
    fun _ below => below
  rw [digit?] at h
  split at h
  case isTrue between =>
    exact Nat.lt_of_le_of_lt (bound '9' between.2) (by decide)
  case isFalse =>
  split at h
  case isTrue between =>
    exact Nat.lt_of_le_of_lt (bound 'z' between.2) (by decide)
  case isFalse =>
  split at h
  case isTrue between =>
    exact Nat.lt_of_le_of_lt (bound 'Z' between.2) (by decide)
  case isFalse => cases h

/-- The characters that have a value below sixteen are those listed. -/
theorem listed_of_digit? {c : Char} {digit : Nat} (h : digit? c = some digit)
    (small : digit < 16) :
    lowerDigits[digit]? = some c ∨ upperDigits[digit]? = some c := by
  have ascii : ∀ c : Char, c.toNat < 128 → ∀ digit < 16,
      digit? c = some digit →
        lowerDigits[digit]? = some c ∨ upperDigits[digit]? = some c :=
    Bytes.forall_ascii (by decide +kernel)
  exact ascii c (lt_of_digit? h) digit small h

theorem digitBelow?_eq_some_iff {base digit : Nat} {c : Char}
    (small : base ≤ 16) :
    digitBelow? base c = some digit ↔ IsDigit base c digit := by
  rw [digitBelow?, Option.filter_eq_some_iff, decide_eq_true_eq]
  constructor
  · rintro ⟨value, below⟩
    exact ⟨below, listed_of_digit? value (Nat.lt_of_lt_of_le below small)⟩
  · rintro ⟨below, lower | upper⟩
    · have value := (digit?_of_listed digit (by omega)).1
      rw [lower] at value
      exact ⟨value, below⟩
    · have value := (digit?_of_listed digit (by omega)).2
      rw [upper] at value
      exact ⟨value, below⟩

/-! ## Numbers -/

/-- One or more digits write a number, the most significant one first. -/
inductive Writes (base : Nat) : List Char → Nat → Prop where
  | digit {c : Char} {digit : Nat} (first : IsDigit base c digit) :
      Writes base [c] digit
  | more {text : List Char} {n : Nat} {c : Char} {digit : Nat}
      (front : Writes base text n) (last : IsDigit base c digit) :
      Writes base (text ++ [c]) (n * base + digit)

theorem Writes.ne_nil {base n : Nat} {text : List Char}
    (h : Writes base text n) : text ≠ [] := by
  cases h with
  | digit => exact List.cons_ne_nil _ _
  | more => exact List.append_ne_nil_of_right_ne_nil _ (List.cons_ne_nil _ _)

/-- What is written are digits. -/
theorem Writes.isDigit_of_mem {base n : Nat} {text : List Char}
    (h : Writes base text n) {c : Char} (member : c ∈ text) :
    ∃ digit, IsDigit base c digit := by
  induction h with
  | digit first =>
      rw [List.mem_singleton.mp member]
      exact ⟨_, first⟩
  | more front last ih =>
      rcases List.mem_append.mp member with earlier | latest
      · exact ih earlier
      · rw [List.mem_singleton.mp latest]
        exact ⟨_, last⟩

/-- What is no digit is not part of a number. -/
theorem Writes.notMem {base n : Nat} {text : List Char} {c : Char}
    (h : Writes base text n) (small : base ≤ 16)
    (none : digitBelow? base c = none) : c ∉ text := by
  intro member
  obtain ⟨digit, isDigit⟩ := h.isDigit_of_mem member
  cases none.symm.trans ((digitBelow?_eq_some_iff small).mpr isDigit)

/-- Digits are ASCII. -/
theorem IsDigit.lt {base digit : Nat} {c : Char} (h : IsDigit base c digit)
    (small : base ≤ 16) : c.toNat < 0x80 := by
  have value := (digitBelow?_eq_some_iff small).mpr h
  exact lt_of_digit? (Option.filter_eq_some_iff.mp value).1

theorem Writes.lt_of_mem {base n : Nat} {text : List Char}
    (h : Writes base text n) (small : base ≤ 16) :
    ∀ c ∈ text, c.toNat < 0x80 := by
  intro c member
  obtain ⟨digit, isDigit⟩ := h.isDigit_of_mem member
  exact isDigit.lt small

/-- So many digits write a number below this power of the base. -/
theorem Writes.lt_pow {base n : Nat} {text : List Char}
    (h : Writes base text n) : n < base ^ text.length := by
  induction h with
  | digit first =>
      rw [List.length_singleton, Nat.pow_one]
      exact first.1
  | @more text n c digit front last ih =>
      have bound : n * base + base ≤ base ^ text.length * base := by
        rw [← Nat.succ_mul]
        exact Nat.mul_le_mul_right base ih
      rw [List.length_append, List.length_singleton, Nat.pow_succ]
      exact Nat.lt_of_lt_of_le (Nat.add_lt_add_left last.1 _) bound

theorem digits?_singleton (base : Nat) (c : Char) :
    digits? base [c] = digitBelow? base c := by
  rw [digits?, List.foldl_cons, List.foldl_nil]
  cases digitBelow? base c with
  | none => rfl
  | some digit =>
      show some (0 * base + digit) = some digit
      rw [Nat.zero_mul, Nat.zero_add]

/-- The last digit is read after those in front of it. -/
theorem digits?_concat {base : Nat} {text : List Char} (h : text ≠ [])
    (c : Char) :
    digits? base (text ++ [c])
      = (digits? base text).bind fun value =>
          (digitBelow? base c).map (value * base + ·) := by
  obtain ⟨first, rest, rfl⟩ := List.exists_cons_of_ne_nil h
  rw [List.cons_append, digits?, digits?, ← List.cons_append,
    List.foldl_append, List.foldl_cons, List.foldl_nil]
  generalize List.foldl _ (some 0) (first :: rest) = front
  cases front with
  | none => rfl
  | some value => cases digitBelow? base c <;> rfl

/-- Digits are read exactly if they write a number, which is the one that is
    read. -/
theorem digits?_eq_some_iff {base n : Nat} {text : List Char}
    (small : base ≤ 16) :
    digits? base text = some n ↔ Writes base text n := by
  constructor
  · intro h
    induction text using List.reverseRecOn generalizing n with
    | nil => cases h
    | append_singleton text c ih =>
        by_cases empty : text = []
        · rw [empty, List.nil_append, digits?_singleton,
            digitBelow?_eq_some_iff small] at h
          rw [empty]
          exact .digit h
        · rw [digits?_concat empty] at h
          obtain ⟨front, value, last⟩ := Option.bind_eq_some_iff.mp h
          obtain ⟨digit, found, rfl⟩ := Option.map_eq_some_iff.mp last
          exact .more (ih value) ((digitBelow?_eq_some_iff small).mp found)
  · intro h
    induction h with
    | digit first =>
        rw [digits?_singleton]
        exact (digitBelow?_eq_some_iff small).mpr first
    | more front last ih =>
        rw [digits?_concat front.ne_nil, ih,
          (digitBelow?_eq_some_iff small).mpr last]
        rfl

/-- A plus sign or none, and then a number. -/
def WritesSigned (base : Nat) (text : List Char) (n : Nat) : Prop :=
  Writes base text n ∨ ∃ digits, text = '+' :: digits ∧ Writes base digits n

/-- A number is read exactly if it is written, with or without a sign, and
    within the limit. -/
theorem parse?_eq_some_iff {base limit n : Nat} {text : List Char}
    (small : base ≤ 16) :
    parse? base limit text = some n
      ↔ WritesSigned base text n ∧ n ≤ limit := by
  unfold parse?
  rw [Option.filter_eq_some_iff, decide_eq_true_eq]
  refine and_congr_left fun _ => ?_
  split
  case h_1 digits =>
    rw [digits?_eq_some_iff small]
    constructor
    · intro number
      exact .inr ⟨digits, rfl, number⟩
    · rintro (unsigned | ⟨_, same, number⟩)
      · exact absurd List.mem_cons_self (unsigned.notMem small rfl)
      · cases same
        exact number
  case h_2 unsigned =>
    rw [digits?_eq_some_iff small]
    constructor
    · exact .inl
    · rintro (number | ⟨digits, same, -⟩)
      · exact number
      · exact absurd same (unsigned digits)

/-! ## Numbers that are written -/

/-- A zero in front changes nothing. -/
theorem Writes.zero_cons {base n : Nat} {text : List Char}
    (pos : 0 < base) (h : Writes base text n) :
    Writes base ('0' :: text) n := by
  have zero : IsDigit base '0' 0 := ⟨pos, .inl rfl⟩
  induction h with
  | @digit c digit first =>
      have both := Writes.more (.digit zero) first
      rwa [Nat.zero_mul, Nat.zero_add] at both
  | more front last ih => exact .more ih last

theorem Writes.zeros {base n : Nat} {text : List Char} (pos : 0 < base)
    (h : Writes base text n) (count : Nat) :
    Writes base (List.replicate count '0' ++ text) n := by
  induction count with
  | zero => exact h
  | succ count ih => exact ih.zero_cons pos

theorem IsDigit.toUpper {base digit : Nat} {c : Char} (small : base ≤ 16)
    (h : IsDigit base c digit) : IsDigit base c.toUpper digit := by
  have upper : ∀ digit < 16,
      (lowerDigits[digit]?).map Char.toUpper = upperDigits[digit]?
        ∧ (upperDigits[digit]?).map Char.toUpper = upperDigits[digit]? := by
    decide
  obtain ⟨ofLower, ofUpper⟩ := upper digit (Nat.lt_of_lt_of_le h.1 small)
  refine ⟨h.1, .inr ?_⟩
  rcases h.2 with listed | listed
  · rw [← ofLower, listed]
    rfl
  · rw [← ofUpper, listed]
    rfl

/-- The digits may be written in upper case. -/
theorem Writes.map_toUpper {base n : Nat} {text : List Char}
    (small : base ≤ 16) (h : Writes base text n) :
    Writes base (text.map Char.toUpper) n := by
  induction h with
  | digit first => exact .digit (first.toUpper small)
  | more front last ih =>
      rw [List.map_append]
      exact .more ih (last.toUpper small)

theorem isDigit_digitChar {base digit : Nat} (small : base ≤ 16)
    (h : digit < base) : IsDigit base digit.digitChar digit := by
  have listed : ∀ digit < 16, lowerDigits[digit]? = some digit.digitChar := by
    decide
  exact ⟨h, .inl (listed digit (Nat.lt_of_lt_of_le h small))⟩

/-- Every number is written by its digits. -/
theorem writes_toDigits {base : Nat} (one : 1 < base) (small : base ≤ 16)
    (n : Nat) : Writes base (Nat.toDigits base n) n := by
  induction n using Nat.strongRecOn with
  | ind n ih =>
      by_cases short : n < base
      · rw [Nat.toDigits_of_lt_base short]
        exact .digit (isDigit_digitChar small short)
      · have long : base ≤ n := Nat.le_of_not_lt short
        have front := ih (n / base) (Nat.div_lt_self (by omega) one)
        have last := isDigit_digitChar small (Nat.mod_lt n (by omega))
        have both := Writes.more front last
        rw [Nat.toDigits_of_base_le one long]
        rwa [Nat.mul_comm, Nat.div_add_mod] at both

theorem toList_upperHex (width n : Nat) :
    (upperHex width n).toList
      = List.replicate (width - (Nat.toDigits 16 n).length) '0'
        ++ (Nat.toDigits 16 n).map Char.toUpper := by
  rw [upperHex, padLeft, String.toList_append, String.toList_ofList,
    String.toList_ofList, String.length_ofList, List.length_map]

theorem writes_upperHex (width n : Nat) :
    Writes 16 (upperHex width n).toList n := by
  rw [toList_upperHex]
  have digits : Writes 16 (Nat.toDigits 16 n) n :=
    writes_toDigits (by decide) (by decide) n
  exact (digits.map_toUpper (by decide)).zeros (by decide) _

/-- A number that needs no more digits is written with as many as asked
    for. -/
theorem length_upperHex {width n : Nat} (pos : 0 < width)
    (h : n < 16 ^ width) : (upperHex width n).toList.length = width := by
  have digits := (Nat.length_toDigits_le_iff (b := 16) (by decide) pos).mpr h
  rw [toList_upperHex, List.length_append, List.length_replicate,
    List.length_map]
  omega

end Numeral

end Handheld
