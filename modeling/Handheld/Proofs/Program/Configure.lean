import Handheld.Program.Configure
import Handheld.Proofs.Build.Ranking
import Handheld.Proofs.Packing.Resources

/-! # Configuring — which sources decide the settings of a packing

    The options, the positional form, the project file and its section for
    the output are four sources of one ranking:

    • `PackRequest.sources` is what each of them chooses;
    • `result_configure`: configuring asks all of them in turn, and nothing
      else;
    • `configure_outcome`: they are accepted exactly if they agree, the
      highest one that gives a value decides, and otherwise a setting is
      named on which two of them differ. -/

namespace Handheld

/-! ## The sources of a packing -/

namespace PackRequest

/-- The choices of a name and a creator before the input files. -/
def positionalChoices : Option (String × Tag) → Choices
  | none => .nothing
  | some (name, creator) =>
      { Choices.nothing with name := some name, creator := some creator }

/-- What each source of a packing chooses: the options, the positional
    form, a project file for every output, and its section for the output
    of this name. -/
def sources (r : PackRequest) (files : Files) (project : Option Project) :
    Priority → Choices
  | .builtIn => .nothing
  | .commandLine => r.choices
  | .positional => positionalChoices (r.positional files).1
  | .project => (project.map Project.general).getD .nothing
  | .target =>
      (project.bind fun p =>
        p.targets[(Path.fileName? r.output).getD ""]?).getD .nothing

/-- The project file of a packing is loaded, if one is named. -/
inductive Loads (r : PackRequest) (files : Files) : Option Project → Prop
    where
  | unnamed : r.project = none → Loads r files none
  | named (path text : String) (project : Project) :
      r.project = some path → files.readText path = .ok text →
      Project.ofText text = .ok project → Loads r files (some project)

end PackRequest

namespace Settings

/-- The positional form is one source. -/
theorem result_choosePositional (s : Settings)
    (found : Option (String × Tag)) :
    (s.choosePositional found).result
      = s.tryChoose .positional (PackRequest.positionalChoices found) := by
  cases found with
  | none => rfl
  | some found =>
      obtain ⟨name, creator⟩ := found
      rw [choosePositional, Run.result_tell_bind]
      rfl

/-- A project file is two sources, one after the other. -/
theorem result_tryApply (s : Settings) (project : Project)
    (output : String) :
    (project.tryApply s output).result
      = (s.tryChoose .project project.general >>= fun s =>
          s.tryChoose .target (project.targets[output]?.getD .nothing)) := by
  rw [Project.tryApply, Run.result_tell_bind, Project.apply, tryChoose]
  rcases s.choose .project project.general with ⟨s₁, _ | e⟩
  · cases project.targets[output]? with
    | none => rfl
    | some choices =>
        show _ = s₁.tryChoose .target choices
        rw [tryChoose]
        dsimp only
        rcases s₁.choose .target choices with ⟨s₂, _ | e⟩
        · rfl
        · rfl
  · cases project.targets[output]? with
    | none => rfl
    | some choices => rfl

theorem result_configure {files : Files} {r : PackRequest}
    {project : Option Project} (loads : r.Loads files project) :
    (configure files r).result
      = chooseAll (r.sources files project) initial Priority.asked := by
  rw [configure, Run.result_bind]
  show (initial.tryChoose .commandLine r.choices >>= _)
    = (initial.tryChoose .commandLine r.choices >>= _)
  congr 1
  funext s
  rw [Run.result_bind, result_choosePositional]
  show (s.tryChoose .positional _ >>= _) = (s.tryChoose .positional _ >>= _)
  congr 1
  funext s
  cases loads with
  | unnamed unnamed =>
      rw [unnamed]
      rfl
  | named path text project named read parsed =>
      have loaded : (s.chooseProject files r.output (some path)).result
          = (project.tryApply s ((Path.fileName? r.output).getD "")).result := by
        rw [chooseProject, read, Run.result_bind]
        show Run.result (Run.ofExcept (Project.ofText text) >>= _) = _
        rw [parsed, Run.result_bind]
        rfl
      rw [named, loaded, result_tryApply]
      show _ = (s.tryChoose .project project.general >>= fun s =>
        s.tryChoose .target _ >>= pure)
      congr 1
      funext s
      exact (bind_pure _).symm

end Settings

/-- **The sources of a packing are ranked.**  If the project file, where one
    is named, is loaded, and all sources name known attributes and levels of
    compression, then configuring succeeds exactly if the sources of every
    setting agree.  If it does, then each setting has the value of the first
    source that gives one, of the options, the positional form, the section
    for the output and the rest of the project file, and names that source;
    without any it has the built-in value and names none.  Otherwise it
    fails with a conflict over a setting to which the two sources it names
    give different values. -/
theorem configure_outcome {files : Files} {r : PackRequest}
    {project : Option Project} (loads : r.Loads files project)
    (valid : ∀ p, (r.sources files project p).IsValid) :
    let given (f : Field) (p : Priority) : Option f.Value :=
      (r.sources files project p).given? f
    ((∃ s, (configure files r).result = .ok s)
        ↔ ∀ f, Setting.Agree (given f))
      ∧ (∀ s, (configure files r).result = .ok s →
          ∀ f, s.setting f = Setting.resolve f.standard (given f))
      ∧ ∀ e, (configure files r).result = .error e →
          ∃ f high low x y, e = .conflict ⟨f, high, low⟩
            ∧ low.rank < high.rank ∧ given f high = some x
            ∧ given f low = some y ∧ y ≠ x := by
  intro given
  have accepted (s : Settings) : (configure files r).result = .ok s
      ↔ ∀ f, Setting.Agree (given f)
        ∧ s.setting f = Setting.resolve f.standard (given f) := by
    rw [Settings.result_configure loads, Settings.chooseAll_eq_ok_iff valid]
    exact forall_congr' fun f =>
      Setting.offerAll?_eq_some_iff f.standard (given f) (s.setting f)
  refine ⟨⟨?_, ?_⟩, ?_, ?_⟩
  · rintro ⟨s, configured⟩ f
    exact ((accepted s).mp configured f).1
  · intro agree
    exact ⟨⟨fun f => Setting.resolve f.standard (given f)⟩,
      (accepted _).mpr fun f => ⟨agree f, rfl⟩⟩
  · intro s configured f
    exact ((accepted s).mp configured f).2
  · intro e failed
    rw [Settings.result_configure loads] at failed
    obtain ⟨f, high, low, rfl, below, x, y, hx, hy, ne⟩ :=
      Settings.chooseAll_eq_error valid (Settings.backed_initial _) failed
    exact ⟨f, high, low, x, y, rfl, below, hx, hy, ne⟩

/-! ## A packing with all four sources -/

/-- A project file with a section for one output. -/
def rankedProjectText : String :=
  "\x7b\"stack_size\":2048,\"targets\":\x7b\"out.prc\":\x7b\"stack_size\":8192\x7d\x7d\x7d"

/-- A directory with this project file only. -/
def rankedFiles : Files :=
  (Files.empty []).put ["p.json"] (.file (Bytes.ofText rankedProjectText))

/-- A packing with a creator as an option and again in the positional
    form. -/
def rankedRequest : PackRequest where
  choices := { Choices.nothing with creator := some ⟨72, 101, 76, 111⟩ }
  project := some "p.json"
  output := "out.prc"
  inputs := ["Hello", "HeLo", "data0000.bin"]

/-- What its sources choose. -/
def rankedSources : Priority → Choices
  | .builtIn => .nothing
  | .commandLine => rankedRequest.choices
  | .positional =>
      PackRequest.positionalChoices (some ("Hello", ⟨72, 101, 76, 111⟩))
  | .project => { Choices.nothing with stackSize := some 2048 }
  | .target => { Choices.nothing with stackSize := some 8192 }

theorem rankedProject_eq :
    (Project.ofText rankedProjectText).toOption.map
        (fun p => (p.general, p.targets["out.prc"]?))
      = some (rankedSources .project, some (rankedSources .target)) := by
  decide +kernel

theorem exists_loads_ranked : ∃ project,
    rankedRequest.Loads rankedFiles (some project)
      ∧ rankedRequest.sources rankedFiles (some project) = rankedSources := by
  obtain ⟨project, parsed, parts⟩ :=
    Option.map_eq_some_iff.mp rankedProject_eq
  obtain ⟨general, target⟩ := Prod.mk.inj parts
  have read : rankedFiles.readText "p.json" = .ok rankedProjectText := by cbv
  have found : rankedRequest.positional rankedFiles
      = (some ("Hello", ⟨72, 101, 76, 111⟩), ["data0000.bin"]) := by cbv
  have output : Path.fileName? rankedRequest.output = some "out.prc" := by cbv
  refine ⟨project, .named _ _ _ rfl read ?_, funext fun p => ?_⟩
  · cases text : Project.ofText rankedProjectText with
    | ok made =>
        rw [text] at parsed
        exact congrArg Except.ok (Option.some.inj parsed)
    | error e =>
        rw [text] at parsed
        cases parsed
  · cases p with
    | builtIn => rfl
    | commandLine => rfl
    | positional => rw [PackRequest.sources, found]; rfl
    | project => exact general
    | target =>
        rw [PackRequest.sources, output]
        show (project.targets["out.prc"]?).getD .nothing = _
        rw [target]
        rfl

/-- An option, the positional form, the section for the output and the
    built-in value each decide one of these settings. -/
theorem configure_outcome_ranked : ∃ project,
    rankedRequest.Loads rankedFiles (some project)
      ∧ (∀ p, (rankedRequest.sources rankedFiles (some project) p).IsValid)
      ∧ ∃ s, (configure rankedFiles rankedRequest).result = .ok s
        ∧ s.setting .creator = ⟨⟨72, 101, 76, 111⟩, some .commandLine⟩
        ∧ s.setting .name = ⟨some (Name.ofText "Hello"), some .positional⟩
        ∧ s.setting .stackSize = ⟨8192, some .target⟩
        ∧ s.setting .version = ⟨1, none⟩ := by
  obtain ⟨project, loads, sources⟩ := exists_loads_ranked
  have valid (p : Priority) :
      (rankedRequest.sources rankedFiles (some project) p).IsValid := by
    rw [sources]
    constructor
    · intro names chosen
      cases p <;> cases chosen
    · intro level chosen
      cases p <;> cases chosen
  obtain ⟨accepted, settings, -⟩ := configure_outcome loads valid
  simp only [sources] at accepted settings
  have agree (f : Field) :
      Setting.Agree fun p => (rankedSources p).given? f := by
    refine ⟨?_, ?_, ?_⟩
    · intro x y option positional
      cases f with
      | creator =>
          cases option
          cases positional
          rfl
      | _ => cases option
    · intro x y top given
      cases f with
      | stackSize => cases top
      | _ => cases given
    · intro x y top given
      cases f with
      | stackSize => cases top
      | _ => cases given
  obtain ⟨s, configured⟩ := accepted.mpr agree
  have setting := settings s configured
  exact ⟨project, loads, valid, s, configured, setting .creator,
    setting .name, setting .stackSize, setting .version⟩

end Handheld
