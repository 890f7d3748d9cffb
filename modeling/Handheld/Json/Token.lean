import Handheld.Json.Basic
import Handheld.Text.Numeral

/-! # Tokens — the words of a JSON text

    A text is cut into tokens character by character; `ScanState` is what
    has been begun.  Words that are neither texts nor marks are the longest
    runs of letters, digits, signs and points, and each must be a number or
    one of the three names. -/

namespace Handheld

/-- A token. -/
inductive Token where
  | openArray
  | closeArray
  | openObject
  | closeObject
  | comma
  | colon
  | text (t : Option String)
  | scalar (value : Json)

/-! ## Numbers -/

namespace Number

/-- Whether a character is a decimal digit. -/
def isDigit (c : Char) : Bool :=
  '0' ≤ c ∧ c ≤ '9'

/-- The value of a decimal digit. -/
def digitValue (c : Char) : Nat :=
  c.toNat - '0'.toNat

/-- The number that decimal digits write. -/
def digitsValue (digits : List Char) : Nat :=
  digits.foldl (fun n c => n * 10 + digitValue c) 0

/-- A coefficient with further digits, as long as it stays below its limit,
    and the number of digits that are left then. -/
def extend (coefficient : Nat) : List Char → Nat × Nat
  | [] => (coefficient, 0)
  | c :: rest =>
      let longer := coefficient * 10 + digitValue c
      if longer < coefficientLimit then extend longer rest
      else (coefficient, rest.length + 1)

/-- The number of these digits before and after the point, multiplied by a
    power of ten. -/
def ofDigits (negative : Bool) (whole fraction : List Char) (exponent : Int)
    (plain : Bool) : Number :=
  let (coefficient, wholeLeft) := extend 0 whole
  let (coefficient, fractionLeft) := extend coefficient fraction
  ⟨negative, coefficient,
    wholeLeft - (fraction.length - fractionLeft : Nat) + exponent, plain⟩

/-- One or more digits, and what follows them. -/
def takeDigits? (s : List Char) : Option (List Char × List Char) :=
  match s.takeWhile isDigit with
  | [] => none
  | digits => some (digits, s.dropWhile isDigit)

/-- The exponent that a text is, which may be empty. -/
def exponent? (s : List Char) : Option Int :=
  match s with
  | [] => some 0
  | e :: rest =>
      if e ≠ 'e' ∧ e ≠ 'E' then none
      else
        let (negative, digits) := match rest with
          | '-' :: digits => (true, digits)
          | '+' :: digits => (false, digits)
          | digits => (false, digits)
        match takeDigits? digits with
        | some (digits, []) =>
            let n : Int := digitsValue digits
            some (if negative then -n else n)
        | _ => none

/-- The number that is written without sign by a text. -/
def unsigned? (negative : Bool) (s : List Char) : Option Number :=
  match takeDigits? s with
  | none => none
  | some (whole, rest) =>
      if whole.head? = some '0' ∧ whole.length ≠ 1 then none
      else match rest with
        | '.' :: rest =>
            match takeDigits? rest with
            | none => none
            | some (fraction, rest) =>
                (exponent? rest).map fun e =>
                  ofDigits negative whole fraction e false
        | rest =>
            (exponent? rest).map fun e =>
              ofDigits negative whole [] e rest.isEmpty

/-- The number that a text writes. -/
def ofChars? (s : List Char) : Option Number :=
  match s with
  | '-' :: rest => unsigned? true rest
  | rest => unsigned? false rest

end Number

/-! ## Texts -/

/-- Whether a code unit is the first of a pair. -/
def isHighSurrogate (unit : Nat) : Bool :=
  0xD800 ≤ unit ∧ unit < 0xDC00

/-- Whether a code unit is the second of a pair. -/
def isLowSurrogate (unit : Nat) : Bool :=
  0xDC00 ≤ unit ∧ unit < 0xE000

/-- The characters that code units and characters by number are, unless a
    surrogate stands alone. -/
def charsOf? : List Nat → Option (List Char)
  | [] => some []
  | [unit] =>
      if isHighSurrogate unit || isLowSurrogate unit then none
      else some [Char.ofNat unit]
  | unit :: next :: rest =>
      if isHighSurrogate unit then
        if isLowSurrogate next then
          (charsOf? rest).map
            (Char.ofNat (0x10000 + (unit - 0xD800) * 0x400
              + (next - 0xDC00)) :: ·)
        else none
      else if isLowSurrogate unit then none
      else (charsOf? (next :: rest)).map (Char.ofNat unit :: ·)

/-- What a character after a backslash stands for. -/
def escaped? (c : Char) : Option Nat :=
  [('"', 0x22), ('\\', 0x5C), ('/', 0x2F), ('b', 0x08), ('f', 0x0C),
    ('n', 0x0A), ('r', 0x0D), ('t', 0x09)].lookup c

/-! ## Scanning -/

/-- What has been begun: a word, or a text with its characters by number,
    latest first; after a backslash; or within the number of a character,
    of which `left` digits are to come. -/
inductive ScanState where
  | between
  | word (chars : List Char)
  | text (units : List Nat)
  | escape (units : List Nat)
  | unit (units : List Nat) (left value : Nat)

/-- The tokens so far, latest first, and what has been begun. -/
structure Scan where
  tokens : List Token
  state : ScanState

namespace Scan

/-- Whether a character belongs to a word. -/
def isWordChar (c : Char) : Bool :=
  c.isAlphanum || c = '-' || c = '+' || c = '.'

/-- The token that a word is. -/
def wordToken? (word : List Char) : Option Token :=
  if word = ['n', 'u', 'l', 'l'] then some (.scalar .null)
  else if word = ['t', 'r', 'u', 'e'] then some (.scalar (.boolean true))
  else if word = ['f', 'a', 'l', 's', 'e'] then
    some (.scalar (.boolean false))
  else (Number.ofChars? word).map fun n => .scalar (.number n)

/-- The marks and what tokens they are. -/
def mark? (c : Char) : Option Token :=
  match c with
  | '[' => some .openArray
  | ']' => some .closeArray
  | '\x7b' => some .openObject
  | '\x7d' => some .closeObject
  | ',' => some .comma
  | ':' => some .colon
  | _ => none

/-- Whether a character separates words and is none. -/
def isBlank (c : Char) : Bool :=
  c = ' ' || c = '\t' || c = '\n' || c = '\r'

/-- Reads a character that begins something. -/
def begin? (tokens : List Token) (c : Char) : Option Scan :=
  if isBlank c then some ⟨tokens, .between⟩
  else if c = '"' then some ⟨tokens, .text []⟩
  else if isWordChar c then some ⟨tokens, .word [c]⟩
  else (mark? c).map fun token => ⟨token :: tokens, .between⟩

/-- Reads one character. -/
def step? (s : Scan) (c : Char) : Option Scan :=
  match s.state with
  | .between => begin? s.tokens c
  | .word chars =>
      if isWordChar c then some ⟨s.tokens, .word (c :: chars)⟩
      else match wordToken? chars.reverse with
        | some token => begin? (token :: s.tokens) c
        | none => none
  | .text units =>
      if c = '"' then
        some ⟨.text ((charsOf? units.reverse).map String.ofList) :: s.tokens,
          .between⟩
      else if c = '\\' then some ⟨s.tokens, .escape units⟩
      else if c.toNat < 0x20 then none
      else some ⟨s.tokens, .text (c.toNat :: units)⟩
  | .escape units =>
      if c = 'u' then some ⟨s.tokens, .unit units 4 0⟩
      else (escaped? c).map fun unit => ⟨s.tokens, .text (unit :: units)⟩
  | .unit units left value =>
      match Numeral.digitBelow? 16 c with
      | none => none
      | some digit =>
          let value := value * 16 + digit
          if left ≤ 1 then some ⟨s.tokens, .text (value :: units)⟩
          else some ⟨s.tokens, .unit units (left - 1) value⟩

/-- The tokens when the text is at its end. -/
def finish? (s : Scan) : Option (List Token) :=
  match s.state with
  | .between => some s.tokens.reverse
  | .word chars =>
      (wordToken? chars.reverse).map fun token => (token :: s.tokens).reverse
  | _ => none

end Scan

/-- The tokens of a text. -/
def Token.all? (text : String) : Option (List Token) :=
  (text.toList.foldlM Scan.step? ⟨[], .between⟩).bind Scan.finish?

end Handheld
