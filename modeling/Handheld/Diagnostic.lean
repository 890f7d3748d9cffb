/-! # Diagnostics — problems with the inputs, and how a run ends

    A problem is a warning or an error about a file.  The exit status of a
    run follows from the problems it met: any error is fatal, warnings
    alone are told apart from a clean run. -/

namespace Handheld

/-- How bad a problem is. -/
inductive Severity where
  | warning
  | error
deriving DecidableEq

/-- The name of a severity. -/
def Severity.label : Severity → String
  | .warning => "warning"
  | .error => "error"

/-- A problem with the file (or other source) `origin`. -/
structure Diagnostic where
  severity : Severity
  origin : String
  message : String
deriving DecidableEq

/-- A problem as it is shown. -/
def Diagnostic.text (d : Diagnostic) : String :=
  s!"{d.origin}: {d.severity.label}: {d.message}"

/-- The problems of a run, in the order in which they were met. -/
abbrev Diagnostics := List Diagnostic

namespace Diagnostics

/-- The number of problems of a severity. -/
def count (severity : Severity) (ds : Diagnostics) : Nat :=
  (ds.filter (·.severity = severity)).length

/-- Whether any problem is an error. -/
def hasErrors (ds : Diagnostics) : Bool :=
  0 < count .error ds

/-- The exit status for arguments that are not understood. -/
def usageStatus : Nat := 1

/-- The exit status: 2 after errors, 3 after warnings alone, else 0. -/
def exitStatus (ds : Diagnostics) : Nat :=
  if hasErrors ds then 2
  else if 0 < count .warning ds then 3
  else 0

theorem count_append (severity : Severity) (ds es : Diagnostics) :
    count severity (ds ++ es) = count severity ds + count severity es := by
  simp [count]

theorem hasErrors_append (ds es : Diagnostics) :
    hasErrors (ds ++ es) = (hasErrors ds || hasErrors es) := by
  rw [Bool.eq_iff_iff]
  simp only [hasErrors, count_append, decide_eq_true_eq, Bool.or_eq_true]
  omega

end Diagnostics

end Handheld
