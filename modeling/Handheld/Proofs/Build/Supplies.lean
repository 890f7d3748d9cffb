import Handheld.Build.Assembly
import Handheld.Proofs.Database.Directory
import Handheld.Proofs.Packing.Keys

/-! # Supplies — the first supplier of a key keeps it

    What an assembly has been given is the list of its supplies, in the
    order of their arrival, and everything it holds follows from the first
    supply of each key:

    • `Holds` says so of its database and of its record of origins;
      `Holds.add` is one step, `Holds.addAll` a run of steps;
    • `repeats` are the supplies that come too late, each of which is
      reported with the origin of the one before it;
    • `finish_eq`: finishing changes nothing but the header;
    • `receiveAll_outcome` puts this together for any sequence of
      deliveries, and says when their order does not matter. -/

namespace Handheld

/-! ## Lists of supplies -/

/-- A resource, and what supplies it. -/
structure Supply where
  origin : String
  key : ResourceKey
  data : Bytes
deriving DecidableEq

namespace Supply

/-- The supply of a resource by an origin. -/
def of (origin : String) (r : Resource) : Supply := ⟨origin, r.1, r.2⟩

/-- The first supply of a key. -/
def first? (supplied : List Supply) (key : ResourceKey) : Option Supply :=
  supplied.find? (·.key = key)

/-- The supplies that come too late, each with the first one of its key,
    which may be an earlier one. -/
def repeats (earlier : List Supply) : List Supply → List (Supply × Supply)
  | [] => []
  | s :: rest =>
      ((first? earlier s.key).toList.map fun first => (s, first))
        ++ repeats (earlier ++ [s]) rest

/-- What is said of a supply that comes after the first one of its key. -/
def notice (s first : Supply) : Diagnostic where
  severity := .warning
  origin := s.origin
  message := s!"resource {s.key.text} already obtained from {first.origin}; ignoring this one"

/-- The keys that are supplied. -/
def keys (supplied : List Supply) : Finset ResourceKey :=
  (supplied.map key).toFinset

theorem first?_append (supplied more : List Supply) (key : ResourceKey) :
    first? (supplied ++ more) key
      = (first? supplied key).or (first? more key) :=
  List.find?_append

/-- One more supply changes the first one of its own key only, and only if
    there was none. -/
theorem first?_concat (supplied : List Supply) (s : Supply)
    (key : ResourceKey) :
    first? (supplied ++ [s]) key
      = (first? supplied key).or (if s.key = key then some s else none) := by
  rw [first?_append, first?, first?, List.find?_singleton]
  simp only [decide_eq_true_eq]

theorem first?_eq_none_iff {supplied : List Supply} {key : ResourceKey} :
    first? supplied key = none ↔ ∀ s ∈ supplied, s.key ≠ key := by
  simp [first?]

theorem mem_of_first?_eq_some {supplied : List Supply} {key : ResourceKey}
    {s : Supply} (h : first? supplied key = some s) :
    s ∈ supplied ∧ s.key = key :=
  ⟨List.mem_of_find?_eq_some h, by simpa using List.find?_some h⟩

theorem repeats_append (earlier supplied more : List Supply) :
    repeats earlier (supplied ++ more)
      = repeats earlier supplied ++ repeats (earlier ++ supplied) more := by
  induction supplied generalizing earlier with
  | nil => rw [List.nil_append, List.append_nil, repeats, List.nil_append]
  | cons s supplied ih =>
      rw [List.cons_append, repeats, repeats, ih, List.append_assoc,
        List.append_assoc]
      rfl

/-- Every supply is the first one of its key or comes too late. -/
theorem length_repeats (earlier supplied : List Supply) :
    (repeats earlier supplied).length + (keys (earlier ++ supplied)).card
      = (keys earlier).card + supplied.length := by
  induction supplied generalizing earlier with
  | nil => rw [List.append_nil, repeats, List.length_nil, Nat.zero_add]; rfl
  | cons s supplied ih =>
      have rest := ih (earlier ++ [s])
      rw [List.append_assoc, List.singleton_append] at rest
      have later : keys (earlier ++ [s]) = insert s.key (keys earlier) := by
        rw [keys, keys, List.map_append, List.toFinset_append,
          Finset.insert_eq, Finset.union_comm]
        rfl
      rw [repeats, List.length_append, List.length_cons]
      cases found : first? earlier s.key with
      | none =>
          have new : s.key ∉ keys earlier := by
            intro old
            obtain ⟨t, ht, same⟩ := List.mem_map.mp (List.mem_toFinset.mp old)
            exact first?_eq_none_iff.mp found t ht same
          rw [later, Finset.card_insert_of_notMem new] at rest
          simp only [Option.toList_none, List.map_nil, List.length_nil]
          omega
      | some first =>
          have old : s.key ∈ keys earlier := by
            obtain ⟨member, same⟩ := mem_of_first?_eq_some found
            exact List.mem_toFinset.mpr (List.mem_map.mpr ⟨first, member, same⟩)
          rw [later, Finset.insert_eq_self.mpr old] at rest
          simp only [Option.toList_some, List.map_cons, List.map_nil,
            List.length_singleton]
          omega

end Supply

/-! ## What an assembly holds -/

namespace Assembly

/-- An assembly holds the first supply of each key, and nothing else. -/
structure Holds (a : Assembly) (supplied : List Supply) : Prop where
  data (key : ResourceKey) :
    a.database.get? key = (Supply.first? supplied key).map Supply.data
  origin (key : ResourceKey) :
    a.origins[key]? = (Supply.first? supplied key).map Supply.origin

theorem holds_empty : Holds empty [] where
  data key := Database.get?_new .resource Header.blank key
  origin _ := Std.ExtTreeMap.getElem?_empty

namespace Holds

variable {a : Assembly} {supplied : List Supply}

/-- A key is free until it is supplied. -/
theorem isFree_iff (h : Holds a supplied) (key : ResourceKey) :
    a.isFree key = true ↔ Supply.first? supplied key = none := by
  rw [isFree, Bool.not_eq_true', Std.ExtTreeMap.contains_eq_isSome_getElem?,
    h.origin, Option.isSome_map, Option.isSome_eq_false_iff,
    Option.isNone_iff_eq_none]

/-- A resource is added exactly if it is the first of its key. -/
theorem offer_iff (h : Holds a supplied) (origin : String) (r : Resource) :
    (a.offer origin r).2 = true ↔ ∀ s ∈ supplied, s.key ≠ r.1 := by
  rw [← Supply.first?_eq_none_iff, ← h.isFree_iff, offer]
  split
  case isTrue free => exact iff_of_true rfl free
  case isFalse taken => exact iff_of_false Bool.false_ne_true taken

/-- One more supply. -/
theorem add (h : Holds a supplied) (s : Supply) :
    Holds (a.add s.origin (s.key, s.data)) (supplied ++ [s]) := by
  rw [Assembly.add, offer]
  split
  case isTrue free =>
    have new := (h.isFree_iff s.key).mp free
    constructor
    · intro key
      show (a.database.insert s.key s.data).get? key = _
      rw [Supply.first?_concat]
      by_cases same : s.key = key
      · subst same
        rw [Database.get?_insert_self, new, Option.none_or, if_pos rfl]
        rfl
      · rw [Database.get?_insert_ne _ _ same, h.data, if_neg same,
          Option.or_none]
    · intro key
      show (a.origins.insert s.key s.origin)[key]? = _
      rw [Supply.first?_concat, Std.ExtTreeMap.getElem?_insert]
      by_cases same : s.key = key
      · subst same
        rw [if_pos Std.ReflCmp.compare_self, new, Option.none_or, if_pos rfl]
        rfl
      · have apart : ¬ ResourceKey.order s.key key = .eq := fun equal =>
          same (Std.LawfulEqCmp.eq_of_compare equal)
        rw [if_neg apart, h.origin, if_neg same, Option.or_none]
  case isFalse taken =>
    -- the first supply of the key is there already
    have old : Supply.first? supplied s.key ≠ none := fun none =>
      taken ((h.isFree_iff s.key).mpr none)
    have same (key : ResourceKey) :
        Supply.first? (supplied ++ [s]) key = Supply.first? supplied key := by
      rw [Supply.first?_concat]
      split
      case isTrue equal =>
        rw [equal] at old
        obtain ⟨first, found⟩ := Option.ne_none_iff_exists'.mp old
        rw [found, Option.some_or]
      case isFalse => exact Option.or_none
    exact ⟨fun key => by rw [same, h.data], fun key => by rw [same, h.origin]⟩

/-- Several more supplies from one origin. -/
theorem addAll (h : Holds a supplied) (origin : String)
    (rs : List Resource) :
    Holds (a.addAll origin rs) (supplied ++ rs.map (.of origin)) := by
  induction rs generalizing a supplied with
  | nil => rwa [List.map_nil, List.append_nil]
  | cons r rs ih =>
      rw [List.map_cons, List.append_cons]
      exact ih (h.add (.of origin r))

/-- What is reported of one supply. -/
theorem addEvents_eq (h : Holds a supplied) (s : Supply) :
    a.addEvents s.origin (s.key, s.data)
      = (Supply.repeats supplied [s]).map fun late =>
        .problem (late.1.notice late.2) := by
  rw [Assembly.addEvents, h.origin]
  show _ = List.map _ (List.map _ (Supply.first? supplied s.key).toList ++ [])
  cases Supply.first? supplied s.key with
  | none => rfl
  | some first => rfl

/-- What is reported of several supplies from one origin. -/
theorem addAllEvents_eq (h : Holds a supplied) (origin : String)
    (rs : List Resource) :
    a.addAllEvents origin rs
      = (Supply.repeats supplied (rs.map (.of origin))).map fun late =>
        .problem (late.1.notice late.2) := by
  induction rs generalizing a supplied with
  | nil => rfl
  | cons r rs ih =>
      have first := h.addEvents_eq (.of origin r)
      have rest := ih (h.add (.of origin r))
      have both : Supply.repeats supplied ((r :: rs).map (.of origin))
          = Supply.repeats supplied [.of origin r]
            ++ Supply.repeats (supplied ++ [.of origin r])
              (rs.map (.of origin)) :=
        Supply.repeats_append supplied [.of origin r] (rs.map (.of origin))
      rw [both, List.map_append, ← first, ← rest]
      rfl

end Holds

/-! ## The database that is finished -/

/-- Finishing changes nothing but the header, in which the resource flag is
    set. -/
theorem finish_eq (a : Assembly) (header : Header) :
    a.finish header
      = (Database.new .resource header).withEntries a.database.entries := by
  rw [finish, resources, Database.insertAll_eq_withEntries,
    Database.entries_insertAll_toList]

end Assembly

/-! ## Deliveries -/

/-- What an assembly is given at once: a resource, or a database. -/
inductive Delivery where
  | resource (origin : String) (r : Resource)
  | database (origin : String) (d : Database .resource)

namespace Delivery

/-- The supplies of a delivery, in the order in which they arrive. -/
def supplies : Delivery → List Supply
  | .resource origin r => [.of origin r]
  | .database origin d => d.toList.map (.of origin)

/-- All supplies of several deliveries. -/
def allSupplies (ds : List Delivery) : List Supply :=
  ds.flatMap supplies

/-- Deliveries that have no key in common. -/
def Apart (ds es : List Delivery) : Prop :=
  ∀ s ∈ allSupplies ds, ∀ t ∈ allSupplies es, s.key ≠ t.key

theorem Apart.symm {ds es : List Delivery} (h : Apart ds es) : Apart es ds :=
  fun s hs t ht same => h t ht s hs same.symm

/-- Inputs without common keys supply each key first whatever their order
    is. -/
theorem first?_perm {inputs others : List (List Delivery)}
    (perm : inputs.Perm others) (apart : inputs.Pairwise Apart)
    (key : ResourceKey) :
    Supply.first? (allSupplies inputs.flatten) key
      = Supply.first? (allSupplies others.flatten) key := by
  induction perm with
  | nil => rfl
  | cons ds _ ih =>
      have rest := ih (List.pairwise_cons.mp apart).2
      simp only [allSupplies, List.flatten_cons, List.flatMap_append,
        Supply.first?_append] at rest ⊢
      rw [rest]
  | swap ds es inputs =>
      have differ : Apart es ds :=
        (List.pairwise_cons.mp apart).1 ds List.mem_cons_self
      simp only [allSupplies, List.flatten_cons, List.flatMap_append,
        Supply.first?_append]
      -- at most one of the two has the key
      cases found : Supply.first? (es.flatMap supplies) key with
      | none => rw [Option.none_or, Option.none_or]
      | some s =>
          obtain ⟨member, key_eq⟩ := Supply.mem_of_first?_eq_some found
          have none : Supply.first? (ds.flatMap supplies) key = none :=
            Supply.first?_eq_none_iff.mpr fun t ht same =>
              differ s member t ht (key_eq.trans same.symm)
          rw [none, Option.some_or, Option.some_or, Option.none_or]
  | trans first _ ih ih' =>
      exact (ih apart).trans
        (ih' ((first.pairwise_iff fun differ => differ.symm).mp apart))

end Delivery

namespace Assembly

/-- The assembly after a delivery. -/
def receive (a : Assembly) : Delivery → Assembly
  | .resource origin r => a.add origin r
  | .database origin d => a.addAll origin d.toList

/-- What a delivery reports. -/
def receiveEvents (a : Assembly) : Delivery → List Event
  | .resource origin r => a.addEvents origin r
  | .database origin d => a.addAllEvents origin d.toList

/-- The assembly after several deliveries. -/
def receiveAll (a : Assembly) (ds : List Delivery) : Assembly :=
  ds.foldl receive a

/-- What several deliveries report. -/
def receiveAllEvents (a : Assembly) : List Delivery → List Event
  | [] => []
  | d :: ds => a.receiveEvents d ++ (a.receive d).receiveAllEvents ds

namespace Holds

variable {a : Assembly} {supplied : List Supply}

theorem receive (h : Holds a supplied) (d : Delivery) :
    Holds (a.receive d) (supplied ++ d.supplies) := by
  cases d with
  | resource origin r => exact h.add (.of origin r)
  | database origin d => exact h.addAll origin d.toList

theorem receiveEvents_eq (h : Holds a supplied) (d : Delivery) :
    a.receiveEvents d
      = (Supply.repeats supplied d.supplies).map fun late =>
        .problem (late.1.notice late.2) := by
  cases d with
  | resource origin r => exact h.addEvents_eq (.of origin r)
  | database origin d => exact h.addAllEvents_eq origin d.toList

theorem receiveAll (h : Holds a supplied) (ds : List Delivery) :
    Holds (a.receiveAll ds) (supplied ++ Delivery.allSupplies ds) := by
  induction ds generalizing a supplied with
  | nil =>
      show Holds a (supplied ++ [])
      rwa [List.append_nil]
  | cons d ds ih =>
      have rest := ih (h.receive d)
      rwa [List.append_assoc] at rest

theorem receiveAllEvents_eq (h : Holds a supplied) (ds : List Delivery) :
    a.receiveAllEvents ds
      = (Supply.repeats supplied (Delivery.allSupplies ds)).map fun late =>
        .problem (late.1.notice late.2) := by
  induction ds generalizing a supplied with
  | nil => rfl
  | cons d ds ih =>
      have both : Supply.repeats supplied (Delivery.allSupplies (d :: ds))
          = Supply.repeats supplied d.supplies
            ++ Supply.repeats (supplied ++ d.supplies)
              (Delivery.allSupplies ds) :=
        Supply.repeats_append supplied d.supplies (Delivery.allSupplies ds)
      rw [Assembly.receiveAllEvents, h.receiveEvents_eq, ih (h.receive d),
        both, List.map_append]

/-- What is held decides the database that is finished. -/
theorem finish_congr {b : Assembly} {others : List Supply}
    (h : Holds a supplied) (h' : Holds b others)
    (same : ∀ key, Supply.first? supplied key = Supply.first? others key)
    (header : Header) : a.finish header = b.finish header := by
  have entries : a.database.entries = b.database.entries :=
    Database.entries_ext fun key => by rw [h.data, h'.data, same]
  rw [finish_eq, finish_eq, entries]

end Holds

/-- The problems in a list of notices. -/
theorem diagnosticsOf_notices (late : List (Supply × Supply)) :
    diagnosticsOf (late.map fun l => .problem (l.1.notice l.2))
      = late.map fun l => l.1.notice l.2 := by
  rw [diagnosticsOf, List.filterMap_map]
  exact congrFun List.filterMap_eq_map late

/-- They are all warnings. -/
theorem count_notices (severity : Severity) (late : List (Supply × Supply)) :
    Diagnostics.count severity (late.map fun l => l.1.notice l.2)
      = if severity = .warning then late.length else 0 := by
  rw [Diagnostics.count, List.filter_map, List.length_map]
  cases severity with
  | warning =>
      show (late.filter fun _ => true).length = late.length
      rw [List.filter_true]
  | error =>
      show (late.filter fun _ => false).length = 0
      rw [List.filter_false, List.length_nil]

/-- **The first supplier of a key keeps it.**  After any deliveries the
    database has the data of the first supply of each key, the record of
    origins has its origin, and nothing else is in either.  A resource that
    is offered then is added exactly if nothing has supplied its key.  Each
    supply that comes
    too late is reported once, with the first origin, and nothing else is;
    so there are as many warnings as supplies less the keys they share.
    Finishing puts these entries under the header with the resource flag
    set.  If the deliveries are those of inputs without common keys, then
    the order of the inputs does not matter. -/
theorem receiveAll_outcome (ds : List Delivery) (header : Header) :
    let supplied := Delivery.allSupplies ds
    let a := empty.receiveAll ds
    let problems := diagnosticsOf (empty.receiveAllEvents ds)
    (∀ key, a.database.get? key = (Supply.first? supplied key).map Supply.data)
    ∧ (∀ key, a.origins[key]? = (Supply.first? supplied key).map Supply.origin)
    ∧ (∀ key, a.origins.contains key = a.database.contains key)
    ∧ (∀ origin r, (a.offer origin r).2 = true
        ↔ ∀ s ∈ supplied, s.key ≠ r.1)
    ∧ problems = (Supply.repeats [] supplied).map (fun l => l.1.notice l.2)
    ∧ problems.count .warning + (Supply.keys supplied).card = supplied.length
    ∧ problems.hasErrors = false
    ∧ (a.finish header).header = header.withResource true
    ∧ (a.finish header).toList = a.database.toList
    ∧ ∀ inputs others : List (List Delivery), inputs.flatten = ds →
        inputs.Pairwise Delivery.Apart → inputs.Perm others →
        (empty.receiveAll others.flatten).finish header = a.finish header := by
  intro supplied a problems
  have holds : Holds a supplied := holds_empty.receiveAll ds
  have late : problems
      = (Supply.repeats [] supplied).map fun l => l.1.notice l.2 := by
    show diagnosticsOf (empty.receiveAllEvents ds) = _
    rw [holds_empty.receiveAllEvents_eq, diagnosticsOf_notices]
  have total := Supply.length_repeats [] supplied
  refine ⟨holds.data, holds.origin, ?_, holds.offer_iff, late, ?_, ?_, ?_, ?_,
    ?_⟩
  · intro key
    rw [Std.ExtTreeMap.contains_eq_isSome_getElem?, Database.contains_eq,
      holds.origin, holds.data, Option.isSome_map, Option.isSome_map]
  · rw [late, count_notices, if_pos rfl]
    rw [List.nil_append] at total
    exact total.trans (Nat.zero_add _)
  · rw [late, Diagnostics.hasErrors, count_notices]
    rfl
  · rw [finish_eq]
    rfl
  · rw [finish_eq]
    rfl
  · rintro inputs others rfl apart perm
    have holds' : Holds (empty.receiveAll others.flatten)
        (Delivery.allSupplies others.flatten) :=
      holds_empty.receiveAll others.flatten
    exact holds'.finish_congr holds
      (fun key => (Delivery.first?_perm perm apart key).symm) header

/-- Two files without a common key, in either order. -/
theorem receiveAll_outcome_twoFiles :
    let first : Delivery := .resource "data0000.bin" (⟨dataType, 0⟩, [1])
    let second : Delivery := .resource "code0001.bin" (⟨codeType, 1⟩, [2])
    [[first], [second]].Pairwise Delivery.Apart
      ∧ (empty.receiveAll [second, first]).finish Header.blank
        = (empty.receiveAll [first, second]).finish Header.blank := by
  intro first second
  have apart : [[first], [second]].Pairwise Delivery.Apart := by
    refine List.pairwise_pair.mpr ?_
    intro s hs t ht
    rw [List.mem_singleton.mp hs, List.mem_singleton.mp ht]
    decide
  obtain ⟨-, -, -, -, -, -, -, -, -, order⟩ :=
    receiveAll_outcome [first, second] Header.blank
  exact ⟨apart, order [[first], [second]] [[second], [first]] rfl apart
    (List.Perm.swap _ _ _)⟩

end Assembly

end Handheld
