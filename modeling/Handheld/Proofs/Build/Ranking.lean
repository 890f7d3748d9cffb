import Handheld.Build.Choices
import Mathlib

/-! # Ranked sources — which value a setting ends up with

    Four sources may give a value to a setting.  They are asked in an order
    that is not that of their ranks, so a value may be replaced by a later
    one, or stay and have to be repeated:

    • `Setting.offer?` is one setting through one source, and
      `offerAll?_eq_some_iff` says what four of them come to;
    • `Choices.IsValid` excludes values that are none, and
      `tryChoose_eq_ok_iff` is one source through all settings;
    • `chooseAll_eq_ok_iff` is several sources through all settings, and
      `chooseAll_eq_error` says on which of them they differ if they
      fail. -/

namespace Handheld

/-! ## One setting -/

namespace Setting

variable {α : Type} [DecidableEq α]

/-- The setting after a source that may leave it alone; `none` if that is a
    conflict. -/
def offer? (s : Setting α) (value : Option α) (p : Priority) :
    Option (Setting α) :=
  match value with
  | some v => s.trySet v p
  | none => some s

/-- A source may not give a value to a setting which a higher one has given
    another. -/
structure Refuses (s : Setting α) (value : α) (p incumbent : Priority) :
    Prop where
  source : s.source = some incumbent
  below : p.rank < incumbent.rank
  differs : value ≠ s.value

omit [DecidableEq α] in
theorem outranks_iff (s : Setting α) (p : Priority) :
    s.outranks p = true
      ↔ ∃ incumbent, s.source = some incumbent ∧ p.rank < incumbent.rank := by
  rw [outranks]
  cases s.source with
  | none => simp
  | some incumbent => simp

theorem trySet_eq_none_iff (s : Setting α) (value : α) (p : Priority) :
    s.trySet value p = none ↔ ∃ incumbent, s.Refuses value p incumbent := by
  by_cases outranked : s.outranks p
  · obtain ⟨incumbent, source, below⟩ := (s.outranks_iff p).mp outranked
    rw [trySet_of_outranks value outranked]
    constructor
    · intro none
      exact ⟨incumbent, source, below, fun same => by simp [same] at none⟩
    · rintro ⟨_, refuses⟩
      exact if_neg refuses.differs
  · rw [trySet_of_not_outranks value outranked]
    refine iff_of_false (Option.some_ne_none _) ?_
    rintro ⟨incumbent, refuses⟩
    exact outranked
      ((s.outranks_iff p).mpr ⟨incumbent, refuses.source, refuses.below⟩)

/-- A lower source must repeat the value, or say nothing. -/
theorem offer?_lower {s : Setting α} {p incumbent : Priority}
    (source : s.source = some incumbent) (below : p.rank < incumbent.rank)
    (value : Option α) (s' : Setting α) :
    s.offer? value p = some s' ↔ (∀ v, value = some v → v = s.value) ∧ s' = s := by
  cases value with
  | none =>
      show some s = some s' ↔ _
      simp [eq_comm]
  | some v =>
      have outranked := (s.outranks_iff p).mpr ⟨incumbent, source, below⟩
      rw [offer?, trySet_of_outranks v outranked]
      by_cases same : v = s.value
      · rw [if_pos same]
        simp [same, eq_comm]
      · rw [if_neg same]
        simp [same]

/-- A source that is not lower sets the value, or leaves it. -/
theorem offer?_of_not_outranks {s : Setting α} {p : Priority}
    (h : ¬ s.outranks p) (value : Option α) :
    s.offer? value p = some (value.elim s fun v => ⟨v, some p⟩) := by
  cases value with
  | none => rfl
  | some v => exact trySet_of_not_outranks v h

/-- The setting after several sources in turn. -/
def offerAll? (given : Priority → Option α) (s : Setting α)
    (sources : List Priority) : Option (Setting α) :=
  sources.foldlM (fun s p => s.offer? (given p) p) s

end Setting

/-! ## Four sources -/

namespace Priority

/-- The sources in the order in which they are asked. -/
def asked : List Priority := [.commandLine, .positional, .project, .target]

/-- The sources from the highest to the lowest. -/
def ranking : List Priority := [.commandLine, .positional, .target, .project]

end Priority

namespace Setting

variable {α : Type} [DecidableEq α]

/-- The sources of a setting agree: what the positional form gives is what
    an option gives, and what the project file gives, for every output or
    for this one, is what an option or else the positional form gives. -/
structure Agree (given : Priority → Option α) : Prop where
  positional : ∀ x y, given .commandLine = some x →
    given .positional = some y → y = x
  project : ∀ x y, (given .commandLine).or (given .positional) = some x →
    given .project = some y → y = x
  target : ∀ x y, (given .commandLine).or (given .positional) = some x →
    given .target = some y → y = x

/-- The setting with the value of the highest source that gives one. -/
def resolve (standard : α) (given : Priority → Option α) : Setting α :=
  (Priority.ranking.findSome? fun p =>
    (given p).map fun v => ⟨v, some p⟩).getD ⟨standard, none⟩

/-- Four sources, one by one. -/
theorem offerAll?_asked (given : Priority → Option α) (s s' : Setting α) :
    offerAll? given s Priority.asked = some s'
      ↔ ∃ s₁, s.offer? (given .commandLine) .commandLine = some s₁
        ∧ ∃ s₂, s₁.offer? (given .positional) .positional = some s₂
        ∧ ∃ s₃, s₂.offer? (given .project) .project = some s₃
        ∧ s₃.offer? (given .target) .target = some s' := by
  simp [offerAll?, Priority.asked, Option.bind_eq_some_iff]

/-- An option decides, and all others must repeat it. -/
theorem offerAll?_of_option {given : Priority → Option α} {v : α}
    (option : given .commandLine = some v) (standard : α) (s : Setting α) :
    offerAll? given ⟨standard, none⟩ Priority.asked = some s
      ↔ Agree given ∧ s = ⟨v, some .commandLine⟩ := by
  have lower (p : Priority) (below : p.rank < Priority.commandLine.rank) :=
    @offer?_lower α _ ⟨v, some .commandLine⟩ p .commandLine rfl below
  rw [offerAll?_asked, option]
  constructor
  · rintro ⟨_, first, _, second, _, third, fourth⟩
    cases first
    obtain ⟨positional, rfl⟩ := (lower .positional (by decide) _ _).mp second
    obtain ⟨project, rfl⟩ := (lower .project (by decide) _ _).mp third
    obtain ⟨target, rfl⟩ := (lower .target (by decide) _ _).mp fourth
    refine ⟨⟨?_, ?_, ?_⟩, rfl⟩
    · intro x y top given
      cases option.symm.trans top
      exact positional y given
    · intro x y top given
      rw [option, Option.some_or] at top
      cases top
      exact project y given
    · intro x y top given
      rw [option, Option.some_or] at top
      cases top
      exact target y given
  · rintro ⟨agree, rfl⟩
    have top : (given .commandLine).or (given .positional) = some v := by
      rw [option, Option.some_or]
    exact ⟨_, rfl,
      _, (lower .positional (by decide) _ _).mpr
        ⟨fun w => agree.positional v w option, rfl⟩,
      _, (lower .project (by decide) _ _).mpr
        ⟨fun w => agree.project v w top, rfl⟩,
      (lower .target (by decide) _ _).mpr
        ⟨fun w => agree.target v w top, rfl⟩⟩

/-- Without an option the positional form decides. -/
theorem offerAll?_of_positional {given : Priority → Option α} {v : α}
    (option : given .commandLine = none)
    (positional : given .positional = some v) (standard : α)
    (s : Setting α) :
    offerAll? given ⟨standard, none⟩ Priority.asked = some s
      ↔ Agree given ∧ s = ⟨v, some .positional⟩ := by
  have lower (p : Priority) (below : p.rank < Priority.positional.rank) :=
    @offer?_lower α _ ⟨v, some .positional⟩ p .positional rfl below
  have top : (given .commandLine).or (given .positional) = some v := by
    rw [option, Option.none_or, positional]
  rw [offerAll?_asked, option, positional]
  constructor
  · rintro ⟨_, first, _, second, _, third, fourth⟩
    cases first
    cases second
    obtain ⟨project, rfl⟩ := (lower .project (by decide) _ _).mp third
    obtain ⟨target, rfl⟩ := (lower .target (by decide) _ _).mp fourth
    refine ⟨⟨?_, ?_, ?_⟩, rfl⟩
    · intro x y none
      cases option.symm.trans none
    · intro x y some given
      cases top.symm.trans some
      exact project y given
    · intro x y some given
      cases top.symm.trans some
      exact target y given
  · rintro ⟨agree, rfl⟩
    exact ⟨_, rfl, _, rfl,
      _, (lower .project (by decide) _ _).mpr
        ⟨fun w => agree.project v w top, rfl⟩,
      (lower .target (by decide) _ _).mpr
        ⟨fun w => agree.target v w top, rfl⟩⟩

/-- Without both, the section for the output goes before the rest of the
    project file, and nothing is refused. -/
theorem offerAll?_of_project {given : Priority → Option α}
    (option : given .commandLine = none)
    (positional : given .positional = none) (standard : α) :
    Agree given ∧ offerAll? given ⟨standard, none⟩ Priority.asked
      = some (resolve standard given) := by
  have nothing : (given .commandLine).or (given .positional) = none := by
    rw [option, positional, Option.none_or]
  refine ⟨⟨?_, ?_, ?_⟩, ?_⟩
  · intro x y some
    cases option.symm.trans some
  · intro x y some
    cases nothing.symm.trans some
  · intro x y some
    cases nothing.symm.trans some
  · rw [offerAll?_asked, option, positional]
    have unset : ¬ Setting.outranks (⟨standard, none⟩ : Setting α) .project
        = true := Bool.false_ne_true
    refine ⟨_, rfl, _, rfl, _, offer?_of_not_outranks unset _, ?_⟩
    have free : ¬ Setting.outranks
        ((given .project).elim ⟨standard, none⟩ fun v => ⟨v, some .project⟩)
        .target = true := by
      cases given .project with
      | none => exact Bool.false_ne_true
      | some v => exact Bool.false_ne_true
    rw [offer?_of_not_outranks free, resolve, Priority.ranking]
    simp only [List.findSome?_cons, List.findSome?_nil, option, positional,
      Option.map_none]
    cases given .target with
    | some v => rfl
    | none =>
        cases given .project with
        | some v => rfl
        | none => rfl

/-- The sources are accepted exactly if they agree, and then the highest
    one that gives a value decides. -/
theorem offerAll?_eq_some_iff (standard : α) (given : Priority → Option α)
    (s : Setting α) :
    offerAll? given ⟨standard, none⟩ Priority.asked = some s
      ↔ Agree given ∧ s = resolve standard given := by
  cases option : given .commandLine with
  | some v =>
      have top : resolve standard given = ⟨v, some .commandLine⟩ := by
        simp [resolve, Priority.ranking, option]
      rw [offerAll?_of_option option, top]
  | none =>
      cases positional : given .positional with
      | some v =>
          have top : resolve standard given = ⟨v, some .positional⟩ := by
            simp [resolve, Priority.ranking, option, positional]
          rw [offerAll?_of_positional option positional, top]
      | none =>
          obtain ⟨agree, accepted⟩ :=
            offerAll?_of_project option positional standard
          rw [accepted]
          simp [agree, eq_comm]

end Setting

/-! ## One source -/

namespace Choices

/-- The value that is chosen for a setting, if it is one. -/
def given? (c : Choices) (f : Field) : Option f.Value :=
  (c.valueFor f).bind Except.toOption

/-- All attributes that are named are known, and the level of compression
    is one. -/
structure IsValid (c : Choices) : Prop where
  attributes : ∀ names, c.attributes = some names →
    ∀ name ∈ names, Attributes.ofSettingName? name ≠ none
  compression : ∀ level, c.compression = some level →
    level ≤ Compression.Effort.maxLevel

theorem isValid_nothing : nothing.IsValid where
  attributes _ chosen := nomatch chosen
  compression _ chosen := nomatch chosen

/-- Known names make flags. -/
theorem exists_ofSettingNames {names : List String}
    (known : ∀ name ∈ names, Attributes.ofSettingName? name ≠ none)
    (bits : Attributes) :
    ∃ flags, Attributes.ofSettingNames bits names = .ok flags := by
  induction names generalizing bits with
  | nil => exact ⟨bits, rfl⟩
  | cons name names ih =>
      obtain ⟨this, rest⟩ := List.forall_mem_cons.mp known
      obtain ⟨flag, found⟩ := Option.ne_none_iff_exists'.mp this
      obtain ⟨flags, made⟩ := ih rest (bits.union flag)
      refine ⟨flags, ?_⟩
      rw [Attributes.ofSettingNames, found]
      exact made

/-- What a valid source chooses is a value. -/
theorem IsValid.valueFor_ne_error {c : Choices} (h : c.IsValid) (f : Field)
    (e : ConfigError) : c.valueFor f ≠ some (.error e) := by
  intro wrong
  cases f with
  | attributes =>
      obtain ⟨names, chosen, failed⟩ := Option.map_eq_some_iff.mp wrong
      obtain ⟨flags, made⟩ :=
        exists_ofSettingNames (h.attributes names chosen) Attributes.none
      cases made.symm.trans failed
  | compression =>
      obtain ⟨level, chosen, failed⟩ := Option.map_eq_some_iff.mp wrong
      rw [Compression.Effort.ofLevel,
        if_pos (h.compression level chosen)] at failed
      cases failed
  | _ =>
      obtain ⟨_, _, failed⟩ := Option.map_eq_some_iff.mp wrong
      cases failed

/-- A valid source gives each setting a value or leaves it alone. -/
theorem IsValid.assignment_eq {c : Choices} (h : c.IsValid) (f : Field) :
    c.assignment f = (c.given? f).map fun value => .ok ⟨f, value⟩ := by
  have valid := h.valueFor_ne_error f
  rw [assignment, given?]
  cases chosen : c.valueFor f with
  | none => rfl
  | some value =>
      cases value with
      | ok value => rfl
      | error e => exact absurd chosen (valid e)

end Choices

namespace Settings

/-- Settings are the same if each of them is. -/
@[ext]
theorem ext {s s' : Settings} (h : ∀ f, s.setting f = s'.setting f) :
    s = s' :=
  congrArg Settings.mk (funext h)

/-- What a source does to the settings of a list: it changes just these, or
    it ends at one that refuses its value. -/
inductive Chosen (c : Choices) (p : Priority) (fields : List Field)
    (s : Settings) : Settings × Option ConfigError → Prop where
  | accepted (s' : Settings) :
      (∀ f ∈ fields,
        (s.setting f).offer? (c.given? f) p = some (s'.setting f)) →
      (∀ f, f ∉ fields → s'.setting f = s.setting f) →
      Chosen c p fields s (s', none)
  | refused (s' : Settings) (f : Field) (value : f.Value)
      (incumbent : Priority) :
      f ∈ fields → c.given? f = some value →
      (s.setting f).Refuses value p incumbent →
      Chosen c p fields s (s', some (.conflict ⟨f, incumbent, p⟩))

variable {c : Choices} {p : Priority}

/-- A setting that accepts a value is replaced, and no other is. -/
theorem set_eq_ok {s : Settings} {f : Field} {value : f.Value}
    {new : Setting f.Value} (h : (s.setting f).trySet value p = some new) :
    s.set p ⟨f, value⟩ = .ok (s.replace f new) := by
  rw [set, h]

/-- A setting that refuses a value is named. -/
theorem set_eq_error {s : Settings} {f : Field} {value : f.Value}
    {incumbent : Priority} (h : (s.setting f).Refuses value p incumbent) :
    s.set p ⟨f, value⟩ = .error ⟨f, incumbent, p⟩ := by
  have refused := ((s.setting f).trySet_eq_none_iff value p).mpr ⟨_, h⟩
  rw [set, refused, h.source]
  rfl

/-- One setting after the other, none of them twice. -/
theorem setAll_chosen (valid : c.IsValid) {fields : List Field}
    (nodup : fields.Nodup) (s : Settings) :
    Chosen c p fields s (setAll p s (fields.filterMap c.assignment)) := by
  induction fields generalizing s with
  | nil => exact .accepted s (fun _ none => nomatch none) fun _ _ => rfl
  | cons f fields ih =>
      obtain ⟨new, nodup⟩ := List.nodup_cons.mp nodup
      have assignment := valid.assignment_eq f
      cases given : c.given? f with
      | none =>
          rw [given] at assignment
          rw [List.filterMap_cons_none assignment]
          have rest := ih nodup s
          generalize setAll p s (fields.filterMap c.assignment) = after at rest
          cases rest with
          | accepted s' kept others =>
              refine .accepted s' ?_ ?_
              · intro g hg
                rcases List.mem_cons.mp hg with rfl | member
                · rw [given, others g new]
                  rfl
                · exact kept g member
              · intro g hg
                exact others g fun member => hg (List.mem_cons_of_mem f member)
          | refused s' g value incumbent member chosen refuses =>
              exact .refused s' g value incumbent
                (List.mem_cons_of_mem f member) chosen refuses
      | some value =>
          rw [given] at assignment
          rw [List.filterMap_cons_some assignment, setAll]
          cases tried : (s.setting f).trySet value p with
          | none =>
              obtain ⟨incumbent, refuses⟩ :=
                ((s.setting f).trySet_eq_none_iff value p).mp tried
              rw [set_eq_error refuses]
              exact .refused s f value incumbent List.mem_cons_self given
                refuses
          | some now =>
              rw [set_eq_ok tried]
              have rest := ih nodup (s.replace f now)
              have other (g : Field) (ne : g ≠ f) :
                  (s.replace f now).setting g = s.setting g :=
                setting_replace_ne s ne.symm now
              show Chosen c p (f :: fields) s
                (setAll p (s.replace f now) (fields.filterMap c.assignment))
              generalize setAll p (s.replace f now)
                (fields.filterMap c.assignment) = after at rest
              cases rest with
              | accepted s' kept others =>
                  refine .accepted s' ?_ ?_
                  · intro g hg
                    rcases List.mem_cons.mp hg with rfl | member
                    · rw [others g new, setting_replace_self, given]
                      exact tried
                    · rw [← kept g member,
                        other g fun same => new (same ▸ member)]
                  · intro g hg
                    rw [List.mem_cons, not_or] at hg
                    rw [others g hg.2, other g hg.1]
              | refused s' g value incumbent member chosen refuses =>
                  rw [other g fun same => new (same ▸ member)] at refuses
                  exact .refused s' g value incumbent
                    (List.mem_cons_of_mem f member) chosen refuses

/-- A source is accepted exactly if every setting accepts what it gives. -/
theorem tryChoose_eq_ok_iff (valid : c.IsValid) (s s' : Settings) :
    s.tryChoose p c = .ok s'
      ↔ ∀ f, (s.setting f).offer? (c.given? f) p = some (s'.setting f) := by
  have chosen : Chosen c p Field.all s (s.choose p c) :=
    setAll_chosen valid (by decide) s
  rw [tryChoose]
  generalize s.choose p c = after at chosen
  cases chosen with
  | accepted s₁ kept _ =>
      constructor
      · intro same f
        cases same
        exact kept f f.mem_all
      · intro kept'
        have same : s₁ = s' := Settings.ext fun f =>
          Option.some.inj ((kept f f.mem_all).symm.trans (kept' f))
        exact congrArg Except.ok same
  | refused s₁ f value incumbent _ given refuses =>
      refine iff_of_false (fun same => nomatch same) fun kept => ?_
      have refused :=
        ((s.setting f).trySet_eq_none_iff value p).mpr ⟨_, refuses⟩
      have accepted := kept f
      rw [given] at accepted
      cases refused.symm.trans accepted

/-- Otherwise it fails with a setting that refuses what it gives. -/
theorem tryChoose_eq_error (valid : c.IsValid) {s : Settings}
    {e : ConfigError} (h : s.tryChoose p c = .error e) :
    ∃ f value incumbent, e = .conflict ⟨f, incumbent, p⟩
      ∧ c.given? f = some value ∧ (s.setting f).Refuses value p incumbent := by
  have chosen : Chosen c p Field.all s (s.choose p c) :=
    setAll_chosen valid (by decide) s
  rw [tryChoose] at h
  generalize s.choose p c = after at chosen h
  cases chosen with
  | accepted => cases h
  | refused s₁ f value incumbent _ given refuses =>
      cases h
      exact ⟨f, value, incumbent, rfl, given, refuses⟩

/-! ## Several sources -/

/-- The settings after several sources in turn. -/
def chooseAll (sources : Priority → Choices) (s : Settings)
    (ps : List Priority) : Except ConfigError Settings :=
  ps.foldlM (fun s p => s.tryChoose p (sources p)) s

variable {sources : Priority → Choices}

/-- Several sources are accepted exactly if every setting accepts what they
    give. -/
theorem chooseAll_eq_ok_iff (valid : ∀ p, (sources p).IsValid)
    (ps : List Priority) (s s' : Settings) :
    chooseAll sources s ps = .ok s'
      ↔ ∀ f, Setting.offerAll? (fun p => (sources p).given? f) (s.setting f) ps
        = some (s'.setting f) := by
  induction ps generalizing s with
  | nil =>
      constructor
      · intro same f
        cases same
        rfl
      · intro same
        have equal : s = s' := Settings.ext fun f => Option.some.inj (same f)
        exact congrArg Except.ok equal
  | cons p ps ih =>
      rw [chooseAll, List.foldlM_cons]
      cases tried : s.tryChoose p (sources p) with
      | ok s₁ =>
          have kept := (tryChoose_eq_ok_iff (valid p) s s₁).mp tried
          have rest := ih s₁
          show chooseAll sources s₁ ps = .ok s' ↔ _
          rw [rest]
          refine forall_congr' fun f => ?_
          rw [Setting.offerAll?, Setting.offerAll?, List.foldlM_cons, kept f]
          rfl
      | error e =>
          obtain ⟨f, value, incumbent, -, given, refuses⟩ :=
            tryChoose_eq_error (valid p) tried
          have refused :=
            ((s.setting f).trySet_eq_none_iff value p).mpr ⟨_, refuses⟩
          refine iff_of_false (fun same => nomatch same) fun kept => ?_
          have accepted := kept f
          rw [Setting.offerAll?, List.foldlM_cons, given, Setting.offer?,
            refused] at accepted
          cases accepted

/-- What a setting holds was given by the source that it names. -/
def Backed (sources : Priority → Choices) (s : Settings) : Prop :=
  ∀ f p, (s.setting f).source = some p →
    (sources p).given? f = some (s.setting f).value

theorem backed_initial (sources : Priority → Choices) :
    Backed sources initial :=
  fun _ _ source => nomatch source

/-- One source keeps this. -/
theorem Backed.tryChoose {s s' : Settings} (h : Backed sources s)
    (valid : (sources p).IsValid)
    (accepted : s.tryChoose p (sources p) = .ok s') : Backed sources s' := by
  intro f q source
  have kept := (tryChoose_eq_ok_iff valid s s').mp accepted f
  cases given : (sources p).given? f with
  | none =>
      rw [given] at kept
      rw [← Option.some.inj kept] at source ⊢
      exact h f q source
  | some value =>
      rw [given] at kept
      by_cases outranked : (s.setting f).outranks p
      · rw [Setting.offer?, Setting.trySet_of_outranks value outranked] at kept
        split at kept
        case isTrue =>
          rw [← Option.some.inj kept] at source ⊢
          exact h f q source
        case isFalse => cases kept
      · rw [Setting.offer?,
          Setting.trySet_of_not_outranks value outranked] at kept
        rw [← Option.some.inj kept] at source ⊢
        cases source
        exact given

/-- Two sources of different ranks that give a setting different values. -/
structure Differ (sources : Priority → Choices) (f : Field)
    (high low : Priority) : Prop where
  below : low.rank < high.rank
  differs : ∃ x y, (sources high).given? f = some x
    ∧ (sources low).given? f = some y ∧ y ≠ x

/-- If several sources fail, then a setting on which two of them differ is
    named. -/
theorem chooseAll_eq_error (valid : ∀ p, (sources p).IsValid)
    {ps : List Priority} {s : Settings} (backed : Backed sources s)
    {e : ConfigError} (h : chooseAll sources s ps = .error e) :
    ∃ f high low, e = .conflict ⟨f, high, low⟩
      ∧ Differ sources f high low := by
  induction ps generalizing s with
  | nil => cases h
  | cons p ps ih =>
      rw [chooseAll, List.foldlM_cons] at h
      cases tried : s.tryChoose p (sources p) with
      | ok s₁ =>
          rw [tried] at h
          exact ih (backed.tryChoose (valid p) tried) h
      | error e' =>
          rw [tried] at h
          cases h
          obtain ⟨f, value, incumbent, rfl, given, refuses⟩ :=
            tryChoose_eq_error (valid p) tried
          exact ⟨f, incumbent, p, rfl, refuses.below, _, value,
            backed f incumbent refuses.source, given, refuses.differs⟩

end Settings

end Handheld
