import Handheld.Diagnostic
import Handheld.Text.Terminal

/-! # Journals — what a run says while it works

    Work is reported line by line: each event has a level and a text, and
    some events are problems with the inputs.  A `Run` is a computation
    that keeps a journal and may fail; what it said before a failure stays
    said. -/

namespace Handheld

/-- How much an event matters. -/
inductive Level where
  | debug
  | info
  | warn
  | error
deriving DecidableEq

/-- The name of a level. -/
def Level.label : Level → String
  | .debug => "DEBUG"
  | .info => "INFO"
  | .warn => "WARN"
  | .error => "ERROR"

/-- One line of a journal: a remark, or a problem. -/
inductive Event where
  | note (level : Level) (text : String)
  | problem (diagnostic : Diagnostic)
deriving DecidableEq

namespace Event

/-- The level of an event. -/
def level : Event → Level
  | .note level _ => level
  | .problem ⟨.warning, _, _⟩ => .warn
  | .problem ⟨.error, _, _⟩ => .error

/-- The text of an event. -/
def text : Event → String
  | .note _ text => text
  | .problem diagnostic => s!"{diagnostic.origin}: {diagnostic.message}"

/-- The problem that an event is. -/
def diagnostic? : Event → Option Diagnostic
  | .note _ _ => none
  | .problem diagnostic => some diagnostic

/-- Whether an event is shown: debugging events only on request. -/
def isShown (verbose : Bool) (event : Event) : Bool :=
  verbose || event.level ≠ .debug

/-- An event as it is printed: the level in a column of five, the text. -/
def line (event : Event) : String :=
  Numeral.padLeft ' ' 5 event.level.label ++ " "
    ++ Terminal.encode event.text

/-- A remark for those who look for faults in the program. -/
def debug (text : String) : Event :=
  .note .debug text

/-- A warning about `origin`. -/
def warning (origin message : String) : Event :=
  .problem ⟨.warning, origin, message⟩

/-- An error about `origin`. -/
def error (origin message : String) : Event :=
  .problem ⟨.error, origin, message⟩

end Event

/-- The problems among the events of a journal. -/
def diagnosticsOf (journal : List Event) : Diagnostics :=
  journal.filterMap Event.diagnostic?

theorem diagnosticsOf_append (j k : List Event) :
    diagnosticsOf (j ++ k) = diagnosticsOf j ++ diagnosticsOf k :=
  List.filterMap_append

/-- A finished computation: its journal, and its result or the error it
    stopped with. -/
structure Run (ε α : Type) where
  journal : List Event
  result : Except ε α

namespace Run

variable {ε δ α β : Type}

/-- A computation that says nothing. -/
def ofExcept (result : Except ε α) : Run ε α :=
  ⟨[], result⟩

/-- A computation that only says something. -/
def tell (events : List Event) : Run ε Unit :=
  ⟨events, .ok ()⟩

/-- One computation after the other; a failure ends both. -/
def andThen (x : Run ε α) (f : α → Run ε β) : Run ε β :=
  match x.result with
  | .ok a => ⟨x.journal ++ (f a).journal, (f a).result⟩
  | .error e => ⟨x.journal, .error e⟩

instance : Monad (Run ε) where
  pure a := ofExcept (.ok a)
  bind := andThen

instance : MonadExceptOf ε (Run ε) where
  throw e := ofExcept (.error e)
  tryCatch x handle :=
    match x.result with
    | .ok _ => x
    | .error e => ⟨x.journal ++ (handle e).journal, (handle e).result⟩

/-- The problems that were met. -/
def diagnostics (x : Run ε α) : Diagnostics :=
  diagnosticsOf x.journal

/-- The same computation with its error seen as another. -/
def mapError (f : ε → δ) (x : Run ε α) : Run δ α :=
  ⟨x.journal, x.result.mapError f⟩

/-! ## Results of sequences -/

theorem result_pure (a : α) : (pure a : Run ε α).result = .ok a := rfl

theorem journal_pure (a : α) : (pure a : Run ε α).journal = [] := rfl

theorem result_bind (x : Run ε α) (f : α → Run ε β) :
    (x >>= f).result = (x.result >>= fun a => (f a).result) := by
  show (andThen x f).result = _
  cases h : x.result <;> simp [andThen, h, bind, Except.bind]

theorem journal_bind_ok {x : Run ε α} {a : α} (f : α → Run ε β)
    (h : x.result = .ok a) :
    (x >>= f).journal = x.journal ++ (f a).journal := by
  show (andThen x f).journal = _
  simp [andThen, h]

theorem journal_bind_error {x : Run ε α} {e : ε} (f : α → Run ε β)
    (h : x.result = .error e) :
    (x >>= f).journal = x.journal := by
  show (andThen x f).journal = _
  simp [andThen, h]

end Run

end Handheld
