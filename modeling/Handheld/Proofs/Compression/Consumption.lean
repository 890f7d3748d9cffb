import Handheld.Proofs.Compression.Canonical
import Handheld.Proofs.Compression.Readers

/-! # Consumption — compressed data tell where they end

    Compressed data have no length of their own.  What is read of them ends
    where the third pass does, which the bytes themselves decide:

    • `Takes`: a reader takes a string for a value, whatever follows the
      string, and finds every shorter beginning of it truncated;
    • `DelimitsItself`: all that a reader reads it takes in this way.
      Single parts of an expansion do so, and `DelimitsItself.andThen` hands
      it on to parts in sequence;
    • `expand_self_delimiting` is the statement on expansions. -/

namespace Handheld.Compression

namespace Reader

variable {α β : Type}

/-! ## Strings that are taken -/

/-- A reader takes this string for this value: what follows the string is
    left, and a beginning of it is found truncated. -/
structure Takes (read : Reader α) (taken : Bytes) (value : α) : Prop where
  whole (total : Nat) (rest : Bytes) :
    read total (taken ++ rest) = .ok (rest, value)
  cut (total : Nat) {count : Nat} (short : count < taken.length) :
    read total (taken.take count) = .error (.truncated total)

/-- What is read off this input is a string that the reader takes. -/
def DelimitsItself (read : Reader α) (total : Nat) (input : Bytes) : Prop :=
  ∀ rest value, read total input = .ok (rest, value) →
    ∃ taken, input = taken ++ rest ∧ Takes read taken value

/-- Readers in sequence take strings in sequence. -/
theorem Takes.andThen {first : Reader α} {next : α → Reader β}
    {a b : Bytes} {x : α} {y : β} (h : Takes first a x)
    (h' : Takes (next x) b y) : Takes (first.andThen next) (a ++ b) y where
  whole total rest := by
    rw [List.append_assoc, Reader.andThen, h.whole]
    exact h'.whole total rest
  cut total count short := by
    -- the first string is cut, or it is whole and the second one is cut
    rcases Nat.lt_or_ge count a.length with inside | after
    · rw [List.take_append_of_le_length (Nat.le_of_lt inside),
        Reader.andThen, h.cut total inside]
    · obtain ⟨later, rfl⟩ := Nat.exists_eq_add_of_le after
      rw [List.length_append] at short
      rw [List.take_length_add_append, Reader.andThen, h.whole]
      exact h'.cut total (Nat.lt_of_add_lt_add_left short)

theorem DelimitsItself.andThen {first : Reader α} {next : α → Reader β}
    {total : Nat} {input : Bytes} (h : DelimitsItself first total input)
    (later : ∀ rest value, first total input = .ok (rest, value) →
      DelimitsItself (next value) total rest) :
    DelimitsItself (first.andThen next) total input := by
  intro rest value read
  rw [Reader.andThen] at read
  split at read
  case h_1 => cases read
  case h_2 middle x begun =>
    obtain ⟨a, rfl, takes⟩ := h middle x begun
    obtain ⟨b, rfl, takes'⟩ := later middle x begun rest value read
    exact ⟨a ++ b, (List.append_assoc a b rest).symm, takes.andThen takes'⟩

/-! ## The parts of an expansion -/

/-- An attempt takes nothing. -/
theorem delimitsItself_attempt (result : Except Error α) (total : Nat)
    (input : Bytes) : DelimitsItself (attempt result) total input := by
  intro rest value read
  cases result with
  | error e => cases read
  | ok x =>
      cases read
      exact ⟨[], rfl, fun _ _ => rfl, fun _ _ short => nomatch short⟩

/-- The start of a pass takes four bytes. -/
theorem delimitsItself_start (size total : Nat) (input : Bytes) :
    DelimitsItself (start size) total input := by
  intro rest position read
  rw [start, passStart] at read
  split at read
  case h_1 => cases read
  case h_2 started =>
    cases read
    split at started
    case isFalse => cases started
    case isTrue four =>
      dsimp only at started
      split at started
      case isFalse => cases started
      case isTrue inside =>
        cases started
        refine ⟨input.take 4, (List.take_append_drop 4 input).symm, ?_, ?_⟩
        · intro total rest
          rw [start, passStart, List.take_left' four, List.drop_left' four,
            if_pos four, if_pos inside]
        · intro total count short
          rw [four] at short
          have cut : ¬ ((input.take 4).take count |>.take 4).length = 4 := by
            rw [List.length_take, List.length_take, four]
            omega
          rw [start, passStart, if_neg cut]

/-- An instruction takes its tag and its operand. -/
theorem delimitsItself_instruction (total : Nat) (input : Bytes) :
    DelimitsItself instruction total input := by
  intro rest i read
  rw [instruction] at read
  split at read
  case h_1 => cases read
  case h_2 decoded =>
    cases read
    cases input with
    | nil => cases decoded
    | cons tag tail =>
        have outcome := Instruction.decodeTagged_outcome tag tail
        rw [show Instruction.decodeTagged tag tail = _ from decoded] at outcome
        cases outcome with
        | made count i operand enough within written =>
            refine ⟨tag :: tail.take count, ?_, ?_, ?_⟩
            · rw [List.cons_append, List.take_append_drop]
            · intro total rest
              rw [← written, instruction, Instruction.decode_encode rest within]
            · intro total n short
              cases n with
              | zero => rfl
              | succ n =>
                  -- the tag is there, and it asks for more than there is
                  have few : ((tail.take count).take n).length < count := by
                    rw [List.length_cons, List.length_take] at short
                    rw [List.length_take]
                    omega
                  have outcome := Instruction.decodeTagged_outcome tag
                    ((tail.take count).take n)
                  rw [List.take_succ_cons, instruction, Instruction.decode]
                  generalize Instruction.decodeTagged tag
                    ((tail.take count).take n) = read at outcome
                  cases outcome with
                  | unknown none => cases none.symm.trans operand
                  | missing => rfl
                  | made count' _ operand' enough' _ _ =>
                      cases operand'.symm.trans operand
                      omega

/-- The code of a pass takes the instructions up to its end mark. -/
theorem delimitsItself_code (total : Nat) (input : Bytes)
    (output : Array UInt8) (cursor : Nat) :
    DelimitsItself (code output cursor) total input := by
  -- each instruction leaves fewer bytes for the code after it
  induction size : input.length using Nat.strongRecOn
    generalizing input output cursor with
  | ind n ih =>
      rw [code_eq]
      refine (delimitsItself_instruction total input).andThen ?_
      intro rest i read
      rw [afterInstruction]
      split
      case isTrue => exact delimitsItself_attempt _ total rest
      case isFalse =>
        refine (delimitsItself_attempt _ total rest).andThen ?_
        intro left after executed
        obtain rfl := rest_of_attempt executed
        exact ih _ (size ▸ length_lt_of_instruction read) _ _ _ rfl

/-- The byte after the end mark is taken whatever it is. -/
theorem delimitsItself_padding (total : Nat) (input : Bytes) :
    DelimitsItself padding total input := by
  intro rest value read
  cases input with
  | nil => cases read
  | cons pad tail =>
      cases read
      refine ⟨[pad], rfl, fun _ _ => rfl, ?_⟩
      intro total count short
      obtain rfl := Nat.lt_one_iff.mp short
      rfl

theorem delimitsItself_pass (total : Nat) (input : Bytes)
    (output : Array UInt8) : DelimitsItself (pass output) total input := by
  rw [pass_eq]
  refine (delimitsItself_start output.size total input).andThen ?_
  intro rest position _
  refine (delimitsItself_code total rest output position).andThen ?_
  intro left after _
  refine (delimitsItself_padding total left).andThen ?_
  intro last _ _
  exact delimitsItself_attempt _ total last

theorem delimitsItself_passes (total count : Nat) (input : Bytes)
    (output : Array UInt8) :
    DelimitsItself (passes count output) total input := by
  induction count generalizing input output with
  | zero =>
      rw [passes_zero_eq]
      exact delimitsItself_attempt _ total input
  | succ count ih =>
      rw [passes_succ_eq]
      refine (delimitsItself_pass total input output).andThen ?_
      intro rest after _
      exact ih rest after

end Reader

/-! ## Expansions -/

open Reader

/-- An expansion that takes this string into this output. -/
def ExpandsTo (size : Nat) (taken : Bytes) (output : Array UInt8) : Prop :=
  Takes (Reader.passes 3 (Array.replicate size 0)) taken output

/-- What is read in an expansion is a string that it takes. -/
theorem exists_expandsTo {input image : Bytes} {size count : Nat}
    (h : expand input size = .ok (image, count)) :
    ∃ taken rest output, input = taken ++ rest ∧ count = taken.length
      ∧ image = output.toList ∧ ExpandsTo size taken output := by
  rw [expand] at h
  split at h
  case h_1 => cases h
  case h_2 rest output ran =>
    cases h
    obtain ⟨taken, rfl, takes⟩ :=
      delimitsItself_passes input.length 3 input _ rest output ran
    refine ⟨taken, rest, output, rfl, ?_, rfl, takes⟩
    rw [List.length_append, Nat.add_sub_cancel]

namespace ExpandsTo

variable {size : Nat} {taken : Bytes} {output : Array UInt8}

/-- What follows the string is not read. -/
theorem expand_append (h : ExpandsTo size taken output) (rest : Bytes) :
    expand (taken ++ rest) size = .ok (output.toList, taken.length) := by
  have ran : runPasses (taken ++ rest).length 3 (taken ++ rest)
      (Array.replicate size 0) = .ok (rest, output) := h.whole _ rest
  rw [expand, ran]
  dsimp only
  rw [List.length_append, Nat.add_sub_cancel]

/-- A beginning of the string is truncated. -/
theorem expand_take (h : ExpandsTo size taken output) {count : Nat}
    (short : count < taken.length) :
    expand (taken.take count) size = .error (.truncated count) := by
  have ran : runPasses (taken.take count).length 3 (taken.take count)
      (Array.replicate size 0)
        = .error (.truncated (taken.take count).length) := h.cut _ short
  rw [expand, ran]
  dsimp only
  rw [List.length_take_of_le (Nat.le_of_lt short)]

end ExpandsTo

/-- An expansion does the same with all data that begin with what it
    reads. -/
theorem expand_of_take_eq {input other image : Bytes} {size count : Nat}
    (h : expand input size = .ok (image, count))
    (same : other.take count = input.take count) :
    expand other size = .ok (image, count) := by
  obtain ⟨taken, rest, output, rfl, rfl, rfl, expands⟩ := exists_expandsTo h
  have begins := List.take_append_drop taken.length other
  rw [same, List.take_left] at begins
  rw [← begins]
  exact expands.expand_append _

/-- A shorter beginning of what an expansion reads is truncated. -/
theorem expand_of_lt {input front image : Bytes} {size count : Nat}
    (h : expand input size = .ok (image, count)) (begins : front <+: input)
    (short : front.length < count) :
    expand front size = .error (.truncated front.length) := by
  obtain ⟨taken, rest, output, rfl, rfl, rfl, expands⟩ := exists_expandsTo h
  have cut : front = taken.take front.length := by
    have whole := List.prefix_iff_eq_take.mp begins
    rwa [List.take_append_of_le_length (Nat.le_of_lt short)] at whole
  have truncated := expands.expand_take short
  rwa [← cut] at truncated

theorem count_le_of_expand {input image : Bytes} {size count : Nat}
    (h : expand input size = .ok (image, count)) : count ≤ input.length := by
  obtain ⟨taken, rest, output, rfl, rfl, -⟩ := exists_expandsTo h
  rw [List.length_append]
  exact Nat.le_add_right _ _

/-- Data that are expanded and read to their last byte. -/
def IsStream (size : Nat) (data : Bytes) : Prop :=
  ∃ image, expand data size = .ok (image, data.length)

/-- **Compressed data tell where they end.**  An expansion that reads `count`
    bytes does the same with all data that begin with these bytes, and finds
    every shorter beginning truncated, where it ends and in no other way.
    So no stream is a proper beginning of another one. -/
theorem expand_self_delimiting (size : Nat) :
    (∀ (input image : Bytes) (count : Nat),
      expand input size = .ok (image, count) →
        count ≤ input.length
          ∧ (∀ other : Bytes, other.take count = input.take count →
            expand other size = .ok (image, count))
          ∧ ∀ front : Bytes, front <+: input → front.length < count →
            expand front size = .error (.truncated front.length))
    ∧ ∀ stream longer : Bytes, IsStream size stream → IsStream size longer →
      stream <+: longer → stream = longer := by
  constructor
  · intro input image count expanded
    refine ⟨count_le_of_expand expanded, ?_, ?_⟩
    · intro other same
      exact expand_of_take_eq expanded same
    · intro front begins short
      exact expand_of_lt expanded begins short
  · rintro stream longer ⟨image, ends⟩ ⟨image', expanded⟩ begins
    refine begins.eq_of_length_le (Nat.le_of_not_lt fun short => ?_)
    cases (expand_of_lt expanded begins short).symm.trans ends

/-- A pass that writes one byte after a zero, two empty passes, and a byte
    that is not read. -/
def sampleStream : Bytes :=
  [0x00, 0x00, 0x00, 0x01, 0x80, 0x42, 0x00, 0x00,
    0x00, 0x00, 0x00, 0x00, 0x00, 0x00,
    0x00, 0x00, 0x00, 0x00, 0x00, 0x00, 0x99]

theorem expand_self_delimiting_sample :
    expand sampleStream 3 = .ok ([0x00, 0x42, 0x00], 20)
      ∧ expand (sampleStream.take 20) 3 = .ok ([0x00, 0x42, 0x00], 20)
      ∧ expand (sampleStream.take 5) 3 = .error (.truncated 5)
      ∧ ∀ longer, IsStream 3 longer → sampleStream.take 20 <+: longer →
        sampleStream.take 20 = longer := by
  have expanded : expand sampleStream 3 = .ok ([0x00, 0x42, 0x00], 20) := by
    cbv
  obtain ⟨reads, free⟩ := expand_self_delimiting 3
  obtain ⟨-, same, short⟩ := reads _ _ _ expanded
  have stream := same (sampleStream.take 20) (by decide)
  refine ⟨expanded, stream, short (sampleStream.take 5) (by decide) (by decide),
    ?_⟩
  intro longer ends begins
  exact free _ longer ⟨_, stream⟩ ends begins

end Handheld.Compression
