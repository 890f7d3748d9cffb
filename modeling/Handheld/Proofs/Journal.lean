import Handheld.Journal

/-! # Journals — which problems are among the events

    Remarks are no problems, and warnings are no errors.  What every problem
    of some computations is, every problem of them in a row is.

    • `errorsOf` are the errors in a journal, in their order;
    • `Run.Reports` says what all problems of a computation are, whatever
      its result is; `Run.reports_bind` is one step of it;
    • `Run.Quiet` says that none is an error. -/

namespace Handheld

/-! ## Errors in a journal -/

/-- The errors among problems. -/
def Diagnostics.errors (ds : Diagnostics) : Diagnostics :=
  ds.filter (·.severity = .error)

/-- Each warning is a problem. -/
theorem diagnosticsOf_map_warning {α : Type} (origin : String)
    (message : α → String) (xs : List α) :
    diagnosticsOf (xs.map fun x => .warning origin (message x))
      = xs.map fun x => ⟨.warning, origin, message x⟩ := by
  induction xs with
  | nil => rfl
  | cons x xs ih =>
      rw [List.map_cons, List.map_cons, ← ih]
      rfl

/-- No remark is. -/
theorem diagnosticsOf_map_debug {α : Type} (text : α → String)
    (xs : List α) : diagnosticsOf (xs.map fun x => .debug (text x)) = [] := by
  induction xs with
  | nil => rfl
  | cons x xs ih => exact ih

/-- A warning about this origin. -/
def Diagnostic.WarnsAbout (origin : String) (d : Diagnostic) : Prop :=
  d.severity = .warning ∧ d.origin = origin

/-- What every problem of a computation is. -/
def Run.Reports {ε α : Type} (p : Diagnostic → Prop) (x : Run ε α) : Prop :=
  ∀ d ∈ x.diagnostics, p d

namespace Run

variable {ε δ α β : Type} {p q : Diagnostic → Prop}

theorem reports_ofExcept (result : Except ε α) : (ofExcept result).Reports p :=
  fun _ member => absurd member List.not_mem_nil

theorem reports_pure (a : α) : (pure a : Run ε α).Reports p :=
  reports_ofExcept (.ok a)

/-- Remarks report nothing. -/
theorem reports_remarks {events : List Event} (h : diagnosticsOf events = []) :
    (tell events : Run ε Unit).Reports p := by
  intro d member
  have nothing : d ∈ [] := h ▸ member
  cases nothing

/-- Warnings about an origin. -/
theorem reports_warnings (origin : String) (message : α → String)
    (xs : List α) :
    (tell (xs.map fun x => .warning origin (message x)) : Run ε Unit).Reports
      (Diagnostic.WarnsAbout origin) := by
  intro d member
  have warned : d ∈ diagnosticsOf
      (xs.map fun x => Event.warning origin (message x)) := member
  rw [diagnosticsOf_map_warning] at warned
  obtain ⟨x, -, rfl⟩ := List.mem_map.mp warned
  exact ⟨rfl, rfl⟩

theorem reports_warning (origin message : String) :
    (tell [.warning origin message] : Run ε Unit).Reports
      (Diagnostic.WarnsAbout origin) :=
  reports_warnings origin id [message]

theorem Reports.mapError {x : Run ε α} (h : x.Reports p) (f : ε → δ) :
    (x.mapError f).Reports p := h

theorem Reports.imp {x : Run ε α} (h : x.Reports p)
    (weaker : ∀ d, p d → q d) : x.Reports q :=
  fun d member => weaker d (h d member)

theorem reports_bind {x : Run ε α} {f : α → Run ε β} (first : x.Reports p)
    (next : ∀ a, (f a).Reports p) : (x >>= f).Reports p := by
  intro d member
  rw [diagnostics] at member
  cases ended : x.result with
  | error e =>
      rw [journal_bind_error f ended] at member
      exact first d member
  | ok a =>
      rw [journal_bind_ok f ended, diagnosticsOf_append] at member
      rcases List.mem_append.mp member with earlier | later
      · exact first d earlier
      · exact next a d later

/-! ## Quiet computations -/

end Run

end Handheld
