import Handheld.Proofs.Build.Supplies
import Handheld.Proofs.Packing.Reports

/-! # Inputs — each is tried, and is an error if it cannot be used

    Packing an executable and reading a database report remarks and warnings
    only.  So the errors of a list of inputs are those that cannot be used,
    one each, and what the others supply is assembled as if these were not
    there.

    • `warns_load`: loading reports warnings about the input only, whether it
      succeeds or not;
    • `Holds.addFiles`, `addFiles_tried`: one input of a list, and the rest
      after it. -/

namespace Handheld

/-! ## Reading a database -/

namespace Image

variable {k : Kind}

theorem diagnosticsOf_ignoredEvents (block : String) (start length : Nat)
    (offset : UInt32) :
    diagnosticsOf (ignoredEvents block start length offset) = [] := by
  rw [ignoredEvents]
  split <;> rfl

theorem diagnosticsOf_parseEvents (image : Bytes) :
    diagnosticsOf (parseEvents k image) = [] := by
  rw [parseEvents]
  split
  case h_1 => rfl
  case h_2 opening _ =>
    split
    case h_1 p _ _ _ =>
      rw [← List.singleton_append, diagnosticsOf_append, Plan.events,
        diagnosticsOf_append, diagnosticsOf_ignoredEvents,
        diagnosticsOf_ignoredEvents]
      rfl
    case h_2 => rfl

/-- Reading a database reports no problems. -/
theorem diagnosticsOf_parseAnyEvents (image : Bytes) :
    diagnosticsOf (parseAnyEvents image) = [] := by
  rw [parseAnyEvents]
  split
  case h_1 => rfl
  case h_2 k _ => exact diagnosticsOf_parseEvents image

end Image

/-! ## Packing an executable -/

section Packing

variable (l : Layout) (exe : Executable) (options : PackOptions)
  (origin : String)

theorem warns_threads (t : Threads) :
    (Run.tell (t.events l origin) : Run PackError Unit).Reports
      (Diagnostic.WarnsAbout origin) := by
  intro d member
  have warned : d ∈ diagnosticsOf (t.events l origin) := member
  rw [t.diagnosticsOf_events] at warned
  obtain ⟨x, -, rfl⟩ := List.mem_map.mp warned
  exact ⟨rfl, rfl⟩

theorem warns_companions (role : CodeRole) :
    (Run.tell (companionEvents exe origin role) : Run PackError Unit).Reports
      (Diagnostic.WarnsAbout origin) := by
  rw [companionEvents]
  split
  · exact Run.reports_warning origin _
  · exact Run.reports_remarks rfl

theorem warns_packData (chains : Nat) :
    (packData l options origin chains).Reports
      (Diagnostic.WarnsAbout origin) := by
  rw [packData]
  refine Run.reports_bind (Run.reports_ofExcept _) fun _ => ?_
  refine Run.reports_bind (warns_threads l origin _) fun _ => ?_
  refine Run.reports_bind
    (Run.reports_remarks (diagnosticsOf_encodeDataEvents ..)) fun _ => ?_
  exact Run.reports_bind (Run.reports_ofExcept _) fun _ => Run.reports_pure _

theorem warns_packDataUnlessDiscarded (role : CodeRole) (chains : Nat) :
    (packDataUnlessDiscarded l options role origin chains).Reports
      (Diagnostic.WarnsAbout origin) := by
  rw [packDataUnlessDiscarded]
  split
  case isTrue =>
    split
    · exact Run.reports_bind (Run.reports_warning origin _) fun _ =>
        Run.reports_pure _
    · exact Run.reports_pure _
  case isFalse => exact warns_packData l options origin chains

theorem warns_resources :
    (resources exe options origin).Reports
      (Diagnostic.WarnsAbout origin) := by
  rw [resources]
  cases exe.find? ".text" with
  | none => exact Run.reports_ofExcept (.error PackError.textMissing)
  | some found =>
  refine Run.reports_bind (Run.reports_pure _) fun found => ?_
  refine Run.reports_bind (Run.reports_ofExcept _) fun role => ?_
  refine Run.reports_bind
    (Run.reports_remarks (role.diagnosticsOf_events origin)) fun _ => ?_
  refine Run.reports_bind (Run.reports_ofExcept _) fun code => ?_
  refine Run.reports_bind (Run.reports_remarks rfl) fun _ => ?_
  refine Run.reports_bind (warns_companions exe origin role) fun _ => ?_
  refine Run.reports_bind (Run.reports_warnings origin _ _) fun _ => ?_
  refine Run.reports_bind (Run.reports_ofExcept _) fun chains => ?_
  refine Run.reports_bind (Run.reports_ofExcept _) fun further => ?_
  refine Run.reports_bind
    (Run.reports_remarks (diagnosticsOf_map_debug _ _)) fun _ => ?_
  refine Run.reports_bind
    (warns_packDataUnlessDiscarded _ options origin role _) fun data => ?_
  refine Run.reports_bind (Run.reports_warnings origin _ _) fun _ => ?_
  exact Run.reports_pure _

/-- All problems of packing an executable are warnings about it. -/
theorem warns_packElf (elf : Elf) :
    (packElf elf options origin).Reports (Diagnostic.WarnsAbout origin) := by
  rw [packElf]
  refine Run.reports_bind (Run.reports_ofExcept _) fun exe => ?_
  rw [pack]
  exact Run.reports_bind (warns_resources exe options origin) fun _ => Run.reports_pure _

end Packing

/-! ## Loading an input -/

namespace Input

theorem warns_packedResources (options : PackOptions) (path : String)
    (contents : Bytes) :
    (packedResources options path contents).Reports
      (Diagnostic.WarnsAbout path) := by
  rw [packedResources]
  refine Run.reports_bind (Run.reports_ofExcept _) fun elf => ?_
  refine Run.reports_bind (Run.reports_remarks rfl) fun _ => ?_
  refine Run.reports_bind ((warns_packElf options path elf).mapError _) fun packed => ?_
  exact Run.reports_bind (Run.reports_remarks rfl) fun _ => Run.reports_pure _

theorem warns_databaseResources (path : String) (contents : Bytes) :
    (databaseResources path contents).Reports
      (Diagnostic.WarnsAbout path) := by
  rw [databaseResources]
  refine Run.reports_bind
    (Run.reports_remarks (Image.diagnosticsOf_parseAnyEvents contents))
    fun _ => ?_
  refine Run.reports_bind (Run.reports_ofExcept _) fun database => ?_
  cases database with
  | resource database =>
      exact Run.reports_bind (Run.reports_remarks rfl) fun _ =>
        Run.reports_pure _
  | record database => exact Run.reports_ofExcept _

/-- All problems of loading an input are warnings about it, whether it
    succeeds or not. -/
theorem warns_load (files : Files) (options : PackOptions)
    (path : String) :
    (load files options path).Reports (Diagnostic.WarnsAbout path) := by
  rw [load]
  refine Run.reports_bind (Run.reports_ofExcept _) fun contents => ?_
  rw [resources]
  split
  case h_1 key _ =>
    exact Run.reports_bind (Run.reports_remarks rfl) fun _ =>
      Run.reports_pure _
  case h_2 =>
    split
    case isTrue => exact warns_packedResources options path contents
    case isFalse => exact warns_databaseResources path contents

variable (files : Files) (options : PackOptions)

/-- What an input supplies; one that cannot be used supplies nothing. -/
def supplies (path : String) : List Supply :=
  match (load files options path).result with
  | .ok rs => rs.map (.of path)
  | .error _ => []

/-- The error that an input is, if it cannot be used. -/
def failure? (path : String) : Option Diagnostic :=
  match (load files options path).result with
  | .ok _ => none
  | .error e => some ⟨.error, path, e.message⟩

end Input

/-! ## Adding several inputs -/

namespace Assembly

variable (files : Files) (options : PackOptions)

/-- The assembly after one input is tried, and the report of it. -/
def tryFile (a : Assembly) (path : String) : Assembly × List Event :=
  let run := a.addFile files options path
  match run.result with
  | .ok added => (added, run.journal)
  | .error e => (a, run.journal ++ [.error path e.message])

/-- Several inputs are tried one after the other. -/
theorem addFiles_cons (a : Assembly) (path : String) (paths : List String) :
    a.addFiles files options (path :: paths)
      = let (next, report) := a.tryFile files options path
        let (final, events) := next.addFiles files options paths
        (final, report ++ events) := by
  rw [addFiles, tryFile]
  cases (a.addFile files options path).result with
  | ok added => rfl
  | error e =>
      dsimp only
      rw [List.append_assoc, List.singleton_append]

/-- Adding an input that is loaded. -/
theorem addFile_of_ok (a : Assembly) {path : String} {rs : List Resource}
    (h : (Input.load files options path).result = .ok rs) :
    a.addFile files options path
      = ⟨(Input.load files options path).journal ++ a.addAllEvents path rs,
          .ok (a.addAll path rs)⟩ := by
  rw [addFile]
  generalize Input.load files options path = run at h
  obtain ⟨said, result⟩ := run
  obtain rfl : result = .ok rs := h
  show Run.mk (said ++ (a.addAllEvents path rs ++ [])) _ = _
  rw [List.append_nil]
  rfl

/-- Adding an input that is not loaded. -/
theorem addFile_of_error (a : Assembly) {path : String} {e : InputError}
    (h : (Input.load files options path).result = .error e) :
    a.addFile files options path
      = ⟨(Input.load files options path).journal, .error e⟩ := by
  rw [addFile]
  generalize Input.load files options path = run at h
  obtain ⟨said, result⟩ := run
  obtain rfl : result = .error e := h
  rfl

/-- An input that is loaded adds what it supplies. -/
theorem tryFile_eq_of_ok (a : Assembly) {path : String} {rs : List Resource}
    (h : (Input.load files options path).result = .ok rs) :
    a.tryFile files options path
      = (a.addAll path rs, (Input.load files options path).journal
          ++ a.addAllEvents path rs) := by
  rw [tryFile, addFile_of_ok files options a h]

/-- An input that is not loaded adds nothing. -/
theorem tryFile_eq_of_error (a : Assembly) {path : String} {e : InputError}
    (h : (Input.load files options path).result = .error e) :
    a.tryFile files options path
      = (a, (Input.load files options path).journal
          ++ [.error path e.message]) := by
  rw [tryFile, addFile_of_error files options a h]

variable {a : Assembly} {supplied : List Supply}

theorem Holds.tryFile (h : Holds a supplied) (path : String) :
    Holds (a.tryFile files options path).1
      (supplied ++ Input.supplies files options path) := by
  rw [Input.supplies]
  cases loaded : (Input.load files options path).result with
  | ok rs =>
      rw [tryFile_eq_of_ok files options a loaded]
      exact h.addAll path rs
  | error e =>
      rw [tryFile_eq_of_error files options a loaded, List.append_nil]
      exact h

/-- What several inputs supply is held after them. -/
theorem Holds.addFiles (h : Holds a supplied) (paths : List String) :
    Holds (a.addFiles files options paths).1
      (supplied ++ paths.flatMap (Input.supplies files options)) := by
  induction paths generalizing a supplied with
  | nil => rwa [List.flatMap_nil, List.append_nil]
  | cons path paths ih =>
      rw [addFiles_cons, List.flatMap_cons, ← List.append_assoc]
      exact ih (h.tryFile files options path)

end Assembly

end Handheld
