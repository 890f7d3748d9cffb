import Handheld.Json.Printing
import Handheld.Json.Token
import Mathlib.Data.Nat.Notation

/-! # Scanning — the words of what is printed

    A scan is read on character by character.  What is printed for a text, a
    number or one of the three names is one token, and it depends on nothing
    but the next character where such a token ends.

    • `Scan.tokens?` are the tokens of a text that is read on from a scan;
    • `Scan.tokens?_quote`: a text is read as it was before it was escaped;
    • `Number.ofChars?_numberText`: a number whose digits fit is read as it
      was before it was written;
    • `Scan.tokens?_word`: a word ends where something begins that is none. -/

namespace Handheld

namespace Scan

/-! ## Reading on -/

/-- The tokens of a text that is read on from here. -/
def tokens? (s : Scan) (text : List Char) : Option (List Token) :=
  (text.foldlM step? s).bind finish?

/-- The tokens so far, and nothing begun. -/
def after (tokens : List Token) : Scan := ⟨tokens, .between⟩

theorem tokens?_cons (s : Scan) (c : Char) (text : List Char) :
    s.tokens? (c :: text) = (s.step? c).bind (tokens? · text) := by
  rw [tokens?, List.foldlM_cons]
  cases s.step? c with
  | none => rfl
  | some next => rfl

/-- A step that succeeds. -/
theorem tokens?_of_step {s next : Scan} {c : Char} (h : s.step? c = some next)
    (text : List Char) : s.tokens? (c :: text) = next.tokens? text := by
  rw [tokens?_cons, h]
  rfl

theorem all?_eq (text : String) :
    Token.all? text = (after []).tokens? text.toList := rfl

/-- Blanks between tokens are passed over. -/
theorem tokens?_blank {c : Char} (h : isBlank c = true) (ts : List Token)
    (text : List Char) :
    (after ts).tokens? (c :: text) = (after ts).tokens? text := by
  refine tokens?_of_step ?_ text
  show begin? ts c = some (after ts)
  rw [begin?, h, if_pos rfl]
  rfl

theorem tokens?_blanks (count : Nat) (ts : List Token) (text : List Char) :
    (after ts).tokens? (List.replicate count ' ' ++ text)
      = (after ts).tokens? text := by
  induction count with
  | zero => rfl
  | succ count ih =>
      rw [List.replicate_succ, List.cons_append, tokens?_blank rfl, ih]

/-- A line break with the indentation of a level. -/
theorem tokens?_newline (level : Nat) (ts : List Token) (text : List Char) :
    (after ts).tokens? ((Json.newline level).toList ++ text)
      = (after ts).tokens? text := by
  have chars : (Json.newline level).toList ++ text
      = '\n' :: (List.replicate (2 * level) ' ' ++ text) := by
    rw [Json.newline, String.toList_append, List.append_assoc]
    simp only [String.toList_ofList]
    rfl
  rw [chars, tokens?_blank rfl, tokens?_blanks]

/-! ## Words -/

/-- A text that does not go on with a word. -/
def EndsWord (text : List Char) : Prop :=
  ∀ c, text.head? = some c → isWordChar c = false

theorem endsWord_nil : EndsWord [] := by
  intro c h
  cases h

theorem endsWord_cons {c : Char} (h : isWordChar c = false)
    (text : List Char) : EndsWord (c :: text) := by
  intro c' h'
  cases h'
  exact h

/-- A character of a word begins one. -/
theorem begin?_wordChar {c : Char} (h : isWordChar c = true)
    (ts : List Token) : begin? ts c = some ⟨ts, .word [c]⟩ := by
  have notBlank : isBlank c = false := by
    refine Bool.eq_false_iff.mpr fun blank => ?_
    simp only [isBlank, Bool.or_eq_true, decide_eq_true_eq] at blank
    rcases blank with ((rfl | rfl) | rfl) | rfl <;> cases h
  have notQuote : c ≠ '"' := by
    rintro rfl
    cases h
  rw [begin?, notBlank, if_neg Bool.false_ne_true, if_neg notQuote, h,
    if_pos rfl]

/-- A word that has been begun goes on. -/
theorem tokens?_wordChars {more : List Char}
    (h : ∀ c ∈ more, isWordChar c = true) (ts : List Token)
    (chars text : List Char) :
    (Scan.mk ts (.word chars)).tokens? (more ++ text)
      = (Scan.mk ts (.word (more.reverse ++ chars))).tokens? text := by
  induction more generalizing chars with
  | nil => rfl
  | cons c more ih =>
      obtain ⟨first, rest⟩ := List.forall_mem_cons.mp h
      have step : step? ⟨ts, .word chars⟩ c = some ⟨ts, .word (c :: chars)⟩ :=
        if_pos first
      rw [List.cons_append, tokens?_of_step step, ih rest, List.reverse_cons,
        List.append_assoc]
      rfl

/-- A word ends before what is none. -/
theorem tokens?_endWord {chars : List Char} {token : Token}
    (h : wordToken? chars.reverse = some token) (ts : List Token)
    {text : List Char} (ends : EndsWord text) :
    (Scan.mk ts (.word chars)).tokens? text
      = (after (token :: ts)).tokens? text := by
  cases text with
  | nil =>
      show (wordToken? chars.reverse).map (fun token => (token :: ts).reverse)
        = some (token :: ts).reverse
      rw [h]
      rfl
  | cons c text =>
      have step : step? ⟨ts, .word chars⟩ c
          = step? (after (token :: ts)) c := by
        refine (if_neg (by rw [ends c rfl]; decide)).trans ?_
        rw [h]
        rfl
      rw [tokens?_cons, tokens?_cons, step]

/-- The token that a word is. -/
theorem tokens?_word {word : List Char} {token : Token}
    (nonempty : word ≠ []) (chars : word.all isWordChar = true)
    (h : wordToken? word = some token) (ts : List Token) {text : List Char}
    (ends : EndsWord text) :
    (after ts).tokens? (word ++ text) = (after (token :: ts)).tokens? text := by
  obtain ⟨c, more, rfl⟩ := List.exists_cons_of_ne_nil nonempty
  obtain ⟨first, rest⟩ := List.forall_mem_cons.mp (List.all_eq_true.mp chars)
  have step : step? (after ts) c = some ⟨ts, .word [c]⟩ :=
    begin?_wordChar first ts
  rw [List.cons_append, tokens?_of_step step, tokens?_wordChars rest]
  refine tokens?_endWord ?_ ts ends
  rw [List.reverse_append, List.reverse_reverse]
  exact h

/-! ## Texts -/

end Scan

theorem not_surrogate (c : Char) :
    isHighSurrogate c.toNat = false ∧ isLowSurrogate c.toNat = false := by
  have valid := c.valid
  rw [isHighSurrogate, isLowSurrogate, decide_eq_false_iff_not,
    decide_eq_false_iff_not]
  have bounds : c.toNat < 0xD800 ∨ 0xDFFF < c.toNat ∧ c.toNat < 0x110000 :=
    valid
  omega

/-- The characters of a text by number are those characters. -/
theorem charsOf?_map_toNat (cs : List Char) :
    charsOf? (cs.map Char.toNat) = some cs := by
  induction cs with
  | nil => rfl
  | cons c cs ih =>
      obtain ⟨high, low⟩ := not_surrogate c
      cases cs with
      | nil =>
          rw [List.map_cons, List.map_nil, charsOf?, high, low,
            Char.ofNat_toNat]
          rfl
      | cons d cs =>
          have rest : charsOf? (d.toNat :: cs.map Char.toNat) = some (d :: cs) :=
            ih
          rw [List.map_cons, List.map_cons, charsOf?, high, low, rest,
            Char.ofNat_toNat]
          rfl

namespace Json

/-- The characters that are written with a letter of their own, and what
    follows the backslash then. -/
def shortEscapes : List (Char × Char) :=
  [('"', '"'), ('\\', '\\'), ('\x08', 'b'), ('\x0c', 'f'), ('\n', 'n'),
    ('\r', 'r'), ('\t', 't')]

theorem escapeChar_short : ∀ p ∈ shortEscapes,
    escapeChar p.1 = ['\\', p.2] ∧ p.2 ≠ 'u'
      ∧ escaped? p.2 = some p.1.toNat := by
  decide

/-- Other characters are neither a quote nor a backslash, and escaped only
    if they do not print. -/
theorem escapeChar_of_notMem {c : Char} (h : ∀ p ∈ shortEscapes, c ≠ p.1) :
    c ≠ '"' ∧ c ≠ '\\' ∧ escapeChar c
      = if c.toNat < 0x20 then
          '\\' :: 'u' :: (Numeral.padLeft '0' 4 (Numeral.hex c.toNat)).toList
        else [c] := by
  simp only [shortEscapes, List.forall_mem_cons] at h
  obtain ⟨quote, backslash, b, f, n, r, t, -⟩ := h
  refine ⟨quote, backslash, ?_⟩
  rw [escapeChar, if_neg quote, if_neg backslash, if_neg b, if_neg f,
    if_neg n, if_neg r, if_neg t]

end Json

/-- How the number of a control character is written. -/
theorem map_digitBelow_hex : ∀ n < 0x20,
    (Numeral.padLeft '0' 4 (Numeral.hex n)).toList.map (Numeral.digitBelow? 16)
      = [some 0, some 0, some (n / 16), some (n % 16)] := by
  decide

namespace Scan

/-- A backslash in a text. -/
theorem tokens?_backslash (ts : List Token) (units : List Nat)
    (text : List Char) :
    (Scan.mk ts (.text units)).tokens? ('\\' :: text)
      = (Scan.mk ts (.escape units)).tokens? text :=
  tokens?_of_step rfl text

/-- A character that is written with a letter of its own. -/
theorem tokens?_escape {c : Char} {unit : Nat} (notNumber : c ≠ 'u')
    (h : escaped? c = some unit) (ts : List Token) (units : List Nat)
    (text : List Char) :
    (Scan.mk ts (.text units)).tokens? ('\\' :: c :: text)
      = (Scan.mk ts (.text (unit :: units))).tokens? text := by
  have step : step? ⟨ts, .escape units⟩ c = some ⟨ts, .text (unit :: units)⟩ := by
    refine (if_neg notNumber).trans ?_
    rw [h]
    rfl
  rw [tokens?_backslash, tokens?_of_step step]

/-- One digit of the number of a character. -/
theorem step?_digit {c : Char} {digit : Nat}
    (h : Numeral.digitBelow? 16 c = some digit) (ts : List Token)
    (units : List Nat) (left value : Nat) :
    step? ⟨ts, .unit units left value⟩ c
      = if left ≤ 1 then some ⟨ts, .text ((value * 16 + digit) :: units)⟩
        else some ⟨ts, .unit units (left - 1) (value * 16 + digit)⟩ := by
  rw [step?]
  simp only [h]

/-- A character that is written with its number. -/
theorem tokens?_unit {n : Nat} {digits : List Char}
    (h : digits.map (Numeral.digitBelow? 16)
      = [some 0, some 0, some (n / 16), some (n % 16)]) (ts : List Token)
    (units : List Nat) (text : List Char) :
    (Scan.mk ts (.text units)).tokens? ('\\' :: 'u' :: (digits ++ text))
      = (Scan.mk ts (.text (n :: units))).tokens? text := by
  obtain ⟨a, _, rfl, ha, h⟩ := List.map_eq_cons_iff.mp h
  obtain ⟨b, _, rfl, hb, h⟩ := List.map_eq_cons_iff.mp h
  obtain ⟨c, _, rfl, hc, h⟩ := List.map_eq_cons_iff.mp h
  obtain ⟨d, _, rfl, hd, h⟩ := List.map_eq_cons_iff.mp h
  obtain rfl := List.map_eq_nil_iff.mp h
  have number : ((0 * 16 + 0) * 16 + n / 16) * 16 + n % 16 = n := by omega
  have begun : step? ⟨ts, .escape units⟩ 'u' = some ⟨ts, .unit units 4 0⟩ := rfl
  have last := step?_digit hd ts units 1 ((0 * 16 + 0) * 16 + n / 16)
  rw [number] at last
  rw [tokens?_backslash, tokens?_of_step begun, List.cons_append,
    tokens?_of_step (step?_digit ha ts units 4 0), List.cons_append,
    tokens?_of_step (step?_digit hb ts units 3 _), List.cons_append,
    tokens?_of_step (step?_digit hc ts units 2 _), List.cons_append,
    tokens?_of_step last]
  rfl

/-- An escaped character is read as it was. -/
theorem tokens?_escapeChar (ts : List Token) (units : List Nat) (c : Char)
    (text : List Char) :
    (Scan.mk ts (.text units)).tokens? (Json.escapeChar c ++ text)
      = (Scan.mk ts (.text (c.toNat :: units))).tokens? text := by
  by_cases short : ∃ p ∈ Json.shortEscapes, c = p.1
  · obtain ⟨p, hp, rfl⟩ := short
    obtain ⟨written, notNumber, stands⟩ := Json.escapeChar_short p hp
    rw [written]
    exact tokens?_escape notNumber stands ts units text
  · have long := Json.escapeChar_of_notMem fun p hp same => short ⟨p, hp, same⟩
    rw [long.2.2]
    split
    case isTrue control =>
        exact tokens?_unit (map_digitBelow_hex c.toNat control) ts units text
    case isFalse printed =>
        have step : step? ⟨ts, .text units⟩ c
            = some ⟨ts, .text (c.toNat :: units)⟩ :=
          (if_neg long.1).trans ((if_neg long.2.1).trans (if_neg printed))
        exact tokens?_of_step step text

theorem tokens?_escapeChars (ts : List Token) (units : List Nat)
    (chars text : List Char) :
    (Scan.mk ts (.text units)).tokens? (chars.flatMap Json.escapeChar ++ text)
      = (Scan.mk ts (.text ((chars.map Char.toNat).reverse ++ units))).tokens?
          text := by
  induction chars generalizing units with
  | nil => rfl
  | cons c chars ih =>
      rw [List.flatMap_cons, List.append_assoc, tokens?_escapeChar, ih,
        List.map_cons, List.reverse_cons, List.append_assoc]
      rfl

/-- A text is read as it was before it was escaped. -/
theorem tokens?_quote (ts : List Token) (t : String) (text : List Char) :
    (after ts).tokens? ((Json.quote t).toList ++ text)
      = (after (.text (some t) :: ts)).tokens? text := by
  have chars : (Json.quote t).toList ++ text
      = '"' :: (t.toList.flatMap Json.escapeChar ++ '"' :: text) := by
    rw [Json.quote, String.toList_ofList, List.cons_append, List.cons_append,
      List.append_assoc]
    rfl
  have begun : step? (after ts) '"' = some ⟨ts, .text []⟩ := rfl
  have ended : ∀ units, step? ⟨ts, .text units⟩ '"' = some (after
      (.text ((charsOf? units.reverse).map String.ofList) :: ts)) :=
    fun _ => rfl
  rw [chars, tokens?_of_step begun, tokens?_escapeChars,
    tokens?_of_step (ended _), List.append_nil, List.reverse_reverse,
    charsOf?_map_toNat, Option.map_some, String.ofList_toList]

end Scan

/-! ## Numbers -/

namespace Number

theorem isDigit_of_mem_toDigits {n : Nat} {c : Char}
    (h : c ∈ Nat.toDigits 10 n) : isDigit c = true := by
  have digit := Nat.isDigit_of_mem_toDigits (by decide) (by decide) h
  rw [Char.isDigit, Bool.and_eq_true, decide_eq_true_eq, decide_eq_true_eq]
    at digit
  exact decide_eq_true digit

/-- No number but zero is written with a zero in front. -/
theorem head?_toDigits_ne {n : Nat} (pos : 0 < n) :
    (Nat.toDigits 10 n).head? ≠ some '0' := by
  induction n using Nat.strongRecOn with
  | ind n ih =>
      by_cases small : n < 10
      · have digits : ∀ n < 10, 0 < n → [n.digitChar].head? ≠ some '0' := by
          decide
        rw [Nat.toDigits_of_lt_base small]
        exact digits n small pos
      · have shorter := ih (n / 10) (by omega) (by omega)
        rw [Nat.toDigits_of_base_le (by decide) (by omega), List.head?_append]
        obtain ⟨c, more, digits⟩ := List.exists_cons_of_ne_nil
          (Nat.toDigits_ne_nil (b := 10) (n := n / 10))
        rw [digits] at shorter ⊢
        exact shorter

/-- Digits only make a number larger. -/
theorem le_foldl_digits (digits : List Char) (n : Nat) :
    n ≤ digits.foldl (fun n c => n * 10 + digitValue c) n := by
  induction digits generalizing n with
  | nil => exact Nat.le_refl n
  | cons c digits ih =>
      have longer := ih (n * 10 + digitValue c)
      rw [List.foldl_cons]
      omega

/-- Digits that fit are all taken. -/
theorem extend_eq {digits : List Char} {n : Nat}
    (h : digits.foldl (fun n c => n * 10 + digitValue c) n < coefficientLimit) :
    extend n digits
      = (digits.foldl (fun n c => n * 10 + digitValue c) n, 0) := by
  induction digits generalizing n with
  | nil => rfl
  | cons c digits ih =>
      rw [List.foldl_cons] at h ⊢
      have first := Nat.lt_of_le_of_lt (le_foldl_digits digits _) h
      rw [extend, if_pos first, ih h]

theorem foldl_toDigits (n : Nat) :
    (Nat.toDigits 10 n).foldl (fun n c => n * 10 + digitValue c) 0 = n := by
  have value := Nat.ofDigitChars_ten_toDigits (n := n)
  rw [Nat.ofDigitChars_eq_foldl] at value
  simp only [Nat.mul_comm 10] at value
  exact value

/-- The digits of a number are read as that number. -/
theorem unsigned?_toDigits {n : Nat} (h : n < coefficientLimit)
    (negative : Bool) :
    unsigned? negative (Nat.toDigits 10 n) = some ⟨negative, n, 0, true⟩ := by
  have digits : ∀ c ∈ Nat.toDigits 10 n, isDigit c = true :=
    fun c hc => isDigit_of_mem_toDigits hc
  have taken : takeDigits? (Nat.toDigits 10 n)
      = some (Nat.toDigits 10 n, []) := by
    obtain ⟨c, more, same⟩ := List.exists_cons_of_ne_nil
      (Nat.toDigits_ne_nil (b := 10) (n := n))
    have all : (Nat.toDigits 10 n).takeWhile isDigit = Nat.toDigits 10 n := by
      rw [← List.append_nil (Nat.toDigits 10 n),
        List.takeWhile_append_of_pos digits]
      rfl
    have none : (Nat.toDigits 10 n).dropWhile isDigit = [] := by
      rw [← List.append_nil (Nat.toDigits 10 n),
        List.dropWhile_append_of_pos digits]
      rfl
    rw [takeDigits?, all, none, same]
  have noZero : ¬ ((Nat.toDigits 10 n).head? = some '0'
      ∧ (Nat.toDigits 10 n).length ≠ 1) := by
    rintro ⟨zero, long⟩
    obtain rfl | pos := Nat.eq_zero_or_pos n
    · exact long rfl
    · exact head?_toDigits_ne pos zero
  have value : ofDigits negative (Nat.toDigits 10 n) [] 0 true
      = ⟨negative, n, 0, true⟩ := by
    have all : extend 0 (Nat.toDigits 10 n) = (n, 0) := by
      refine (extend_eq ?_).trans ?_
      · rwa [foldl_toDigits]
      · rw [foldl_toDigits]
    rw [ofDigits, all]
    rfl
  rw [unsigned?, taken]
  simp only [if_neg noZero]
  rw [← value]
  rfl

/-- A number that is printed is read as it was. -/
theorem ofChars?_numberText {n : Number} (plain : n.plain = true)
    (whole : n.exponent = 0) (fits : n.coefficient < coefficientLimit) :
    ofChars? (Json.numberText n).toList = some n := by
  obtain ⟨negative, coefficient, exponent, isPlain⟩ := n
  obtain rfl : isPlain = true := plain
  obtain rfl : exponent = 0 := whole
  have digits : (toString coefficient).toList = Nat.toDigits 10 coefficient := by
    rw [Nat.toString_eq_ofList_toDigits, String.toList_ofList]
  rw [Json.numberText, String.toList_append, digits]
  cases negative with
  | true =>
      have sign : "-".toList = ['-'] := rfl
      rw [if_pos rfl, sign]
      exact unsigned?_toDigits fits true
  | false =>
      have sign : "".toList = [] := rfl
      rw [if_neg Bool.false_ne_true, sign, List.nil_append, ofChars?]
      · exact unsigned?_toDigits fits false
      · intro rest minus
        -- no digit is a sign
        have digit := isDigit_of_mem_toDigits (minus ▸ List.mem_cons_self)
        cases digit

theorem all_isWordChar_numberText (n : Number) :
    (Json.numberText n).toList.all Scan.isWordChar = true := by
  refine List.all_eq_true.mpr fun c h => ?_
  rw [Json.numberText, String.toList_append, Nat.toString_eq_ofList_toDigits,
    String.toList_ofList] at h
  rcases List.mem_append.mp h with sign | digit
  · have minus : c ∈ ['-'] := by
      split at sign
      · exact sign
      · cases sign
    rw [List.mem_singleton.mp minus]
    rfl
  · have digit := Nat.isDigit_of_mem_toDigits (by decide) (by decide) digit
    rw [Scan.isWordChar, Char.isAlphanum, digit, Bool.or_true]
    rfl

end Number

/-! ## Tokens that are words -/

namespace Scan

theorem wordToken?_of_ofChars? {word : List Char} {n : Number}
    (h : Number.ofChars? word = some n) :
    wordToken? word = some (.scalar (.number n)) := by
  have noName : ∀ name ∈ [['n', 'u', 'l', 'l'], ['t', 'r', 'u', 'e'],
      ['f', 'a', 'l', 's', 'e']], word ≠ name := by
    rintro name hname rfl
    have none : ∀ name ∈ [['n', 'u', 'l', 'l'], ['t', 'r', 'u', 'e'],
        ['f', 'a', 'l', 's', 'e']], Number.ofChars? name = none := by
      decide
    rw [none _ hname] at h
    cases h
  obtain ⟨null, yes, no, -⟩ := by
    simpa only [List.forall_mem_cons] using noName
  rw [wordToken?, if_neg null, if_neg yes, if_neg no, h]
  rfl

/-- A number is one token. -/
theorem tokens?_number {n : Number} (plain : n.plain = true)
    (whole : n.exponent = 0) (fits : n.coefficient < Number.coefficientLimit)
    (ts : List Token) {text : List Char} (ends : EndsWord text) :
    (after ts).tokens? ((Json.numberText n).toList ++ text)
      = (after (.scalar (.number n) :: ts)).tokens? text := by
  have read := Number.ofChars?_numberText plain whole fits
  have nonempty : (Json.numberText n).toList ≠ [] := by
    intro none
    rw [none] at read
    cases read
  exact tokens?_word nonempty n.all_isWordChar_numberText
    (wordToken?_of_ofChars? read) ts ends

/-- A mark is a token. -/
theorem tokens?_mark {c : Char} {token : Token} (h : mark? c = some token)
    (ts : List Token) (text : List Char) :
    (after ts).tokens? (c :: text) = (after (token :: ts)).tokens? text := by
  unfold mark? at h
  split at h
  all_goals cases h
  all_goals exact tokens?_of_step rfl text

end Scan

end Handheld
