import Handheld.Proofs.Journal
import Handheld.Proofs.Packing.Resources
import Mathlib.Data.List.Count

/-! # Reports — the problems that packing meets

    Packing reports warnings only, each at its step: of traps, of sections
    that are not found, of relocations that are left out or of data that are,
    and of code that goes nowhere.

    • `Run.Yields` says what a computation returns and which problems it
      reports on the way; it follows a sequence step by step;
    • `Threads.warnings` are the problems of the relocations, one for each
      that is left out, and `dataWarnings` those of the data;
    • `IsMade.pack_yields`: what is made tells all problems that are reported,
      in their order;
    • `IsMade.count_missingWarning`: no other problem has the words in which
      sections are reported that are not found. -/

namespace Handheld

/-! ## Problems of sequences -/

namespace Run

variable {ε α β : Type}

/-- A computation succeeds with this result, and reports these problems. -/
def Yields (x : Run ε α) (a : α) (problems : Diagnostics) : Prop :=
  x.result = .ok a ∧ x.diagnostics = problems

theorem yields_pure (a : α) : (pure a : Run ε α).Yields a [] :=
  ⟨rfl, rfl⟩

theorem yields_tell (events : List Event) :
    (tell events : Run ε Unit).Yields () (diagnosticsOf events) :=
  ⟨rfl, rfl⟩

theorem yields_ofExcept {x : Except ε α} {a : α} (h : x = .ok a) :
    (ofExcept x).Yields a [] :=
  ⟨h, rfl⟩

/-- Problems are reported one step after the other. -/
theorem Yields.bind {x : Run ε α} {f : α → Run ε β} {a : α} {b : β}
    {before after : Diagnostics} (first : x.Yields a before)
    (next : (f a).Yields b after) : (x >>= f).Yields b (before ++ after) := by
  obtain ⟨ended, reported⟩ := first
  obtain ⟨ended', reported'⟩ := next
  constructor
  · rw [result_bind_eq_ok_iff]
    exact ⟨a, ended, ended'⟩
  · rw [diagnostics, journal_bind_ok f ended, diagnosticsOf_append,
      ← reported, ← reported']
    rfl

/-- A step without problems adds none. -/
theorem Yields.then {x : Run ε α} {f : α → Run ε β} {a : α} {b : β}
    {problems : Diagnostics} (first : x.Yields a [])
    (next : (f a).Yields b problems) : (x >>= f).Yields b problems :=
  first.bind next

end Run

/-! ## Warnings -/

/-- What is reported of a relocation that is left out. -/
def Layout.warning (l : Layout) (origin : String) (r : Relocation)
    (cause : Skip) : Diagnostic :=
  ⟨.warning, origin, cause.message (l.executable.sectionAt r.container).name r⟩

/-- What is reported of the relocations, in their order. -/
def Threads.warnings (l : Layout) (origin : String) (t : Threads) :
    Diagnostics :=
  t.skipped.reverse.map fun x => l.warning origin x.1 x.2

theorem Threads.length_warnings (l : Layout) (origin : String)
    (t : Threads) : (t.warnings l origin).length = t.skipped.length := by
  rw [warnings, List.length_map, List.length_reverse]

theorem Threads.diagnosticsOf_events (l : Layout) (origin : String)
    (t : Threads) : diagnosticsOf (t.events l origin) = t.warnings l origin := by
  rw [events, diagnosticsOf_append]
  exact (List.append_nil _).trans (diagnosticsOf_map_warning _ _ _)

/-- What is reported of a section that is asked for and not found. -/
def missingWarning (origin name : String) : Diagnostic :=
  ⟨.warning, origin, s!"code section {name} not found"⟩

/-- What is reported of the names that are not found, in their order. -/
def missingWarnings (exe : Executable) (origin : String)
    (names : List String) : Diagnostics :=
  (names.filter fun name => (exe.find? name).isNone).map (missingWarning origin)

theorem diagnosticsOf_missingEvents (exe : Executable) (origin : String)
    (names : List String) :
    diagnosticsOf (missingEvents exe origin names)
      = missingWarnings exe origin names :=
  diagnosticsOf_map_warning _ _ _

/-- What is reported of data that are left out. -/
def discardedWarning (origin : String) : Diagnostic :=
  ⟨.warning, origin,
    "global data present but packaging configured to discard it"⟩

/-- What is reported of the data of an executable with this role. -/
def dataWarnings (exe : Executable) (options : PackOptions)
    (origin : String) (role : CodeRole) (code : MainCode) : Diagnostics :=
  if discardsData options role then
    if exe.hasData then [discardedWarning origin] else []
  else
    (packedThreads exe options code).warnings
      (layoutOf exe code (packedExtra exe options)) origin

/-- What is reported of code that goes nowhere. -/
def spuriousWarnings (l : Layout) (origin : String) : Diagnostics :=
  diagnosticsOf (spuriousEvents l origin)

theorem CodeRole.diagnosticsOf_events (origin : String) (role : CodeRole) :
    diagnosticsOf (role.events origin) = [] := by
  rw [events]
  split
  · rfl
  · rfl

theorem diagnosticsOf_encodeDataEvents (image : Bytes)
    (effort : Compression.Effort) :
    diagnosticsOf (Compression.encodeDataEvents image effort) = [] := by
  rw [Compression.encodeDataEvents, diagnosticsOf_append,
    Compression.compressEvents, diagnosticsOf_map_debug, List.nil_append]
  split
  · rfl
  · rfl

/-! ## Packing -/

/-- Data that can be encoded are packed, and the problems are those of the
    relocations. -/
theorem packData_yields {l : Layout} {options : PackOptions} {chains : Nat}
    {encoded : Bytes} (sized : l.executable.bssEnd < 2 ^ 64)
    (h : Compression.encodeData
        (threadAll l l.executable.dataImage chains).image options.effort
      = .ok encoded) (origin : String) :
    (packData l options origin chains).Yields
      (headResources options l.executable.architecture
          (threadAll l l.executable.dataImage chains)
        ++ [(⟨dataType, 0⟩, encoded)])
      ((threadAll l l.executable.dataImage chains).warnings l origin) := by
  have threads := Run.yields_tell (ε := PackError)
    ((threadAll l l.executable.dataImage chains).events l origin)
  have encoding := Run.yields_tell (ε := PackError)
    (Compression.encodeDataEvents
      (threadAll l l.executable.dataImage chains).image options.effort)
  rw [Threads.diagnosticsOf_events] at threads
  rw [diagnosticsOf_encodeDataEvents] at encoding
  rw [packData, ← List.append_nil (Threads.warnings _ _ _)]
  have checked := Executable.checkSize_eq_ok_iff.mpr sized
  refine (Run.yields_ofExcept checked).then (threads.bind (encoding.then ?_))
  refine Run.Yields.then (Run.yields_ofExcept ?_) (Run.yields_pure _)
  rw [h]
  rfl

section Made

variable {exe : Executable} {options : PackOptions} {role : CodeRole}
  {code : MainCode} {further data : List Resource}

/-- The step that packs the data or leaves them out. -/
theorem IsMade.data_yields (h : IsMade exe options role code further data)
    (origin : String) :
    (packDataUnlessDiscarded
      (layoutOf exe code (extraSections exe (extraNames options role)))
      options role origin
      (chainCount (extraSections exe (extraNames options role)))).Yields
        data (dataWarnings exe options origin role code) := by
  rw [packDataUnlessDiscarded, dataWarnings]
  cases keeps : discardsData options role with
  | true =>
      rw [if_pos rfl, if_pos rfl, h.discarded keeps]
      show Run.Yields (if exe.hasData then _ else _) [] _
      split
      · exact (Run.yields_tell _).bind (Run.yields_pure _)
      · exact Run.yields_pure _
  | false =>
      obtain ⟨encoded, encodes, rfl⟩ := h.packed keeps
      rw [if_neg Bool.false_ne_true, if_neg Bool.false_ne_true,
        extraNames_of_keeps keeps]
      exact packData_yields (h.sized keeps) encodes origin

/-- All problems of what is made: those of the traps, of sections that are
    not found, of the data, and of code that goes nowhere. -/
theorem IsMade.resources_yields
    (h : IsMade exe options role code further data) (origin : String) :
    (resources exe options origin).Yields
      (firstResources exe options role code ++ further ++ data)
      (diagnosticsOf (companionEvents exe origin role)
        ++ (missingWarnings exe origin (extraNames options role)
        ++ (dataWarnings exe options origin role code
        ++ spuriousWarnings
            (layoutOf exe code (extraSections exe (extraNames options role)))
            origin))) := by
  obtain ⟨chains, counts, number⟩ := exists_countChains h.counted
  have numbers := furtherCode_eq_ok_iff.mpr h.numbers
  have named := Run.yields_tell (ε := PackError) (role.events origin)
  have missing := Run.yields_tell (ε := PackError)
    (missingEvents exe origin (extraNames options role))
  have numbered := Run.yields_tell (ε := PackError) (numberedEvents origin
    (extraSections exe (extraNames options role)) further)
  rw [CodeRole.diagnosticsOf_events] at named
  rw [diagnosticsOf_missingEvents] at missing
  rw [numberedEvents, diagnosticsOf_map_debug] at numbered
  rw [resources, h.main.found]
  refine Run.Yields.then (Run.yields_pure _) ?_
  refine Run.Yields.then (Run.yields_ofExcept h.hasRole) (named.then ?_)
  refine Run.Yields.then (Run.yields_ofExcept h.main.made) ?_
  refine Run.Yields.then (Run.yields_tell _) ?_
  refine (Run.yields_tell _).bind (missing.bind ?_)
  refine Run.Yields.then (Run.yields_ofExcept counts) ?_
  rw [number]
  refine Run.Yields.then (Run.yields_ofExcept numbers) (numbered.then ?_)
  refine (h.data_yields origin).bind ?_
  rw [← List.append_nil (spuriousWarnings _ _)]
  exact (Run.yields_tell _).bind (Run.yields_pure _)

/-- **All problems of a packing** are those of what is made. -/
theorem IsMade.pack_yields (h : IsMade exe options role code further data)
    (origin : String) :
    (pack exe options origin).Yields
      ((Database.new .resource Header.blank).insertAll
        (firstResources exe options role code ++ further ++ data))
      (diagnosticsOf (companionEvents exe origin role)
        ++ (missingWarnings exe origin (extraNames options role)
        ++ (dataWarnings exe options origin role code
        ++ spuriousWarnings
            (layoutOf exe code (extraSections exe (extraNames options role)))
            origin))) := by
  rw [pack, ← List.append_nil (diagnosticsOf _ ++ _)]
  exact (h.resources_yields origin).bind (Run.yields_pure _)

end Made

/-! ## Code that is not standalone -/

section Alone

variable {exe : Executable} {options : PackOptions}

/-- The problems of code that is not standalone do not come from traps. -/
theorem IsMade.diagnostics_pack {code : MainCode}
    {further data : List Resource}
    (h : IsMade exe options ⟨options.mainCode, false⟩ code further data)
    (origin : String) :
    (pack exe options origin).diagnostics
      = missingWarnings exe origin options.extraCode
        ++ (dataWarnings exe options origin ⟨options.mainCode, false⟩ code
        ++ spuriousWarnings (layoutOf exe code (packedExtra exe options))
            origin) := by
  have noTraps : companionEvents exe origin ⟨options.mainCode, false⟩ = [] :=
    if_neg fun traps => Bool.false_ne_true traps.1
  have reported := (h.pack_yields origin).2
  rw [noTraps] at reported
  exact reported

/-! ## The words of problems -/

/-- The first character of a text is that of what it begins with. -/
theorem head?_toList_append {a : String} {c : Char}
    (h : a.toList.head? = some c) (b : String) :
    (a ++ b).toList.head? = some c := by
  rw [String.toList_append, List.head?_append, h]
  rfl

/-- The first letters of what is reported of relocations, of data that are
    left out, and of code that goes nowhere. -/
def dataInitials : List Char := ['u', 'r', 'g', 's']

theorem Skip.initial_message (name : String) (r : Relocation) (cause : Skip) :
    ∃ c ∈ dataInitials, (cause.message name r).toList.head? = some c := by
  cases cause with
  | unknownType =>
      refine ⟨'u', by decide, ?_⟩
      repeat refine head?_toList_append ?_ _
      decide
  | _ =>
      refine ⟨'r', by decide, ?_⟩
      repeat refine head?_toList_append ?_ _
      decide

theorem initial_dataWarnings {origin : String} {role : CodeRole}
    {code : MainCode} {d : Diagnostic}
    (hd : d ∈ dataWarnings exe options origin role code) :
    ∃ c ∈ dataInitials, d.message.toList.head? = some c := by
  rw [dataWarnings] at hd
  split at hd
  case isTrue =>
    split at hd
    case isTrue =>
      have head : (discardedWarning origin).message.toList.head?
          = some 'g' := by
        show ("global data present but packaging configured to discard it"
          ).toList.head? = some 'g'
        decide
      rw [List.mem_singleton.mp hd]
      exact ⟨'g', by decide, head⟩
    case isFalse => cases hd
  case isFalse =>
    obtain ⟨x, -, rfl⟩ := List.mem_map.mp hd
    exact Skip.initial_message _ _ _

theorem initial_spuriousWarnings {l : Layout} {origin : String}
    {d : Diagnostic} (hd : d ∈ spuriousWarnings l origin) :
    ∃ c ∈ dataInitials, d.message.toList.head? = some c := by
  rw [spuriousWarnings, spuriousEvents, diagnosticsOf_map_warning] at hd
  obtain ⟨s, -, rfl⟩ := List.mem_map.mp hd
  exact ⟨'s', by decide, head?_toList_append (by decide) _⟩

/-- A problem that begins with another letter is none of these. -/
theorem count_dataWarnings_spuriousWarnings {w : Diagnostic} {c : Char}
    (initial : w.message.toList.head? = some c) (other : c ∉ dataInitials)
    (origin : String) (role : CodeRole) (code : MainCode) (l : Layout) :
    List.count w (dataWarnings exe options origin role code
      ++ spuriousWarnings l origin) = 0 := by
  refine List.count_eq_zero.mpr fun member => ?_
  obtain ⟨c', among, initial'⟩ : ∃ c ∈ dataInitials,
      w.message.toList.head? = some c := by
    rcases List.mem_append.mp member with data | spurious
    · exact initial_dataWarnings data
    · exact initial_spuriousWarnings spurious
  obtain rfl := Option.some.inj (initial.symm.trans initial')
  exact other among

/-! ## Sections that are not found -/

theorem toList_missingWarning (origin name : String) :
    (missingWarning origin name).message.toList
      = "code section ".toList ++ name.toList ++ " not found".toList := by
  show ("code section " ++ toString name ++ " not found").toList = _
  rw [String.toList_append, String.toList_append]
  rfl

theorem missingWarning_injective (origin : String) :
    Function.Injective (missingWarning origin) := by
  intro a b same
  have texts : (missingWarning origin a).message.toList
      = (missingWarning origin b).message.toList := by rw [same]
  rw [toList_missingWarning, toList_missingWarning] at texts
  exact String.toList_inj.mp
    (List.append_cancel_left (List.append_cancel_right texts))

/-- A section is reported as not found as often as it is asked for, and only
    if it is not. -/
theorem IsMade.count_missingWarning {code : MainCode}
    {further data : List Resource}
    (h : IsMade exe options ⟨options.mainCode, false⟩ code further data)
    (origin name : String) :
    List.count (missingWarning origin name) (pack exe options origin).diagnostics
      = if (exe.find? name).isNone then options.extraCode.count name else 0 := by
  have initial : (missingWarning origin name).message.toList.head?
      = some 'c' := by
    rw [toList_missingWarning]
    rfl
  rw [h.diagnostics_pack, List.count_append,
    count_dataWarnings_spuriousWarnings initial (by decide), Nat.add_zero,
    missingWarnings, List.count_map_of_injective _ _
      (missingWarning_injective origin)]
  split
  case isTrue missing => exact List.count_filter missing
  case isFalse found =>
    refine List.count_eq_zero.mpr fun member => found ?_
    exact (List.mem_filter.mp member).2

end Alone

end Handheld
