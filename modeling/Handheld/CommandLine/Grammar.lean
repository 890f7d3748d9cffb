import Handheld.Diagnostic

/-! # Grammars — how the words of a command line are read

    Words that begin with a hyphen are options, all others operands:

    • `--name value` and `--name=value` give an option its value;
    • so do `-n value`, `-nvalue` and `-n=value`, and options without a
      value may share one word, as in `-ab`;
    • after `--` all words are operands.

    A value in a word of its own does not begin with a hyphen.  An option is
    given once unless it may be repeated.  Words are read one by one, and
    the first that stops the reading decides how it ends. -/

namespace Handheld

/-- Why a command line is not carried out. -/
inductive Stop where
  /-- It is not understood. -/
  | usage
  /-- It asks for help or for the version. -/
  | help
deriving DecidableEq

/-- The exit status of a command line that is not carried out. -/
def Stop.exitStatus : Stop → Nat
  | .usage => Diagnostics.usageStatus
  | .help => 0

/-- What an option changes of what is asked for.  A value that is not
    accepted changes nothing. -/
inductive Effect (α : Type) where
  | help
  | verbose
  | flag (change : α → α)
  | value (repeats : Bool) (change? : String → α → Option α)

/-- An option. -/
structure Parameter (α : Type) where
  long : String
  short : Option Char
  effect : Effect α

/-- The options of a command, and what its operands change.  An operand
    that is not accepted changes nothing. -/
structure Grammar (α : Type) where
  parameters : List (Parameter α)
  operand? : String → α → Option α

/-- What has been read: what is asked for, whether the journal is to be
    verbose, the options that were given and may not be again, the option
    that waits for its value, and whether options have ended. -/
structure Reading (α : Type) where
  asked : α
  verbose : Bool
  given : List String
  awaited : Option (String → α → Option α)
  ended : Bool

namespace Reading

variable {α : Type}

/-- Before the first word. -/
def start (asked : α) (verbose : Bool) : Reading α :=
  ⟨asked, verbose, [], none, false⟩

/-- What is asked for, or the stop if it is refused. -/
def changed (r : Reading α) : Option α → Except Stop (Reading α)
  | some asked => .ok ⟨asked, r.verbose, r.given, none, r.ended⟩
  | none => .error .usage

/-- Notes that an option was given. -/
def note (r : Reading α) (p : Parameter α) : Except Stop (Reading α) :=
  match p.effect with
  | .value true _ => .ok r
  | _ =>
      if r.given.contains p.long then .error .usage
      else .ok ⟨r.asked, r.verbose, p.long :: r.given, r.awaited, r.ended⟩

/-- Reads an option whose value does not stand in the same word. -/
def plain (r : Reading α) (p : Parameter α) : Except Stop (Reading α) := do
  match p.effect with
  | .help => .error .help
  | .verbose =>
      let r ← r.note p
      return ⟨r.asked, true, r.given, r.awaited, r.ended⟩
  | .flag change =>
      let r ← r.note p
      return ⟨change r.asked, r.verbose, r.given, r.awaited, r.ended⟩
  | .value _ change? =>
      let r ← r.note p
      return ⟨r.asked, r.verbose, r.given, some change?, r.ended⟩

/-- Reads an option whose value stands in the same word. -/
def valued (r : Reading α) (p : Parameter α) (value : List Char) :
    Except Stop (Reading α) := do
  match p.effect with
  | .value _ change? =>
      let r ← r.note p
      r.changed (change? (String.ofList value) r.asked)
  | _ => .error .usage

end Reading

namespace Grammar

variable {α : Type}

/-- Reads a word after its two hyphens. -/
def long (g : Grammar α) (r : Reading α) (body : List Char) :
    Except Stop (Reading α) :=
  let name := String.ofList (body.takeWhile (· ≠ '='))
  match g.parameters.find? (·.long = name), body.dropWhile (· ≠ '=') with
  | none, _ => .error .usage
  | some p, [] => r.plain p
  | some p, _ :: value => r.valued p value

/-- The value in the rest of a word, which an equals sign may precede. -/
def attached : List Char → List Char
  | '=' :: value => value
  | value => value

/-- Whether an option has a value. -/
def hasValue (p : Parameter α) : Bool :=
  match p.effect with
  | .value _ _ => true
  | _ => false

/-- Reads a word after its only hyphen. -/
def cluster (g : Grammar α) (r : Reading α) :
    List Char → Except Stop (Reading α)
  | [] => .ok r
  | c :: rest =>
      match g.parameters.find? (·.short = some c) with
      | none => .error .usage
      | some p =>
          if hasValue p ∧ rest ≠ [] then r.valued p (attached rest)
          else match r.plain p with
            | .ok r => cluster g r rest
            | .error stop => .error stop

/-- Reads one word. -/
def step (g : Grammar α) (r : Reading α) (word : String) :
    Except Stop (Reading α) :=
  match r.awaited, word.toList with
  | some _, '-' :: _ :: _ => .error .usage
  | some change?, _ => r.changed (change? word r.asked)
  | none, chars =>
      if r.ended then r.changed (g.operand? word r.asked)
      else match chars with
        | ['-', '-'] =>
            .ok ⟨r.asked, r.verbose, r.given, none, true⟩
        | '-' :: '-' :: body => g.long r body
        | '-' :: c :: rest => g.cluster r (c :: rest)
        | _ => r.changed (g.operand? word r.asked)

/-- Reads all words. -/
def read (g : Grammar α) (asked : α) (verbose : Bool)
    (words : List String) : Except Stop (Reading α) :=
  match words.foldlM g.step (Reading.start asked verbose) with
  | .error stop => .error stop
  | .ok r => if r.awaited.isSome then .error .usage else .ok r

end Grammar

end Handheld
