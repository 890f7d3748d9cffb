import Handheld.Proofs.Build.Inputs

/-! # Atomicity — an input is added as a whole, or leaves nothing behind

    Resources are put into an assembly one after the other, while what is
    said is written down.  That could leave an input half added; but all that
    can fail comes before the first resource is added.

    • `Input.Ends` lists the ways in which loading an input ends, with the
      problems that are reported on the way: only the packer reports any;
    • `InPlace` is a computation that changes an assembly and a journal as it
      goes along, also if it fails later on; `InPlace.addFile` adds an input
      in this way;
    • `InPlace.addFile_eq`: it loads the input first, and adds what it found
      after that;
    • `Assembly.Gains` says which resources an assembly has more than
      another one;
    • `addFile_atomic` puts this together. -/

namespace Handheld

/-! ## How loading an input ends -/

/-- What loading an input reports, and what it finds or why it fails. -/
inductive Input.Ends (files : Files) (options : PackOptions) (path : String) :
    Diagnostics → Except InputError (List Resource) → Prop
  | unreadable {cause : FileError} (read : files.read path = .error cause) :
      Ends files options path [] (.error (.file cause))
  | raw {contents : Bytes} {key : ResourceKey}
      (read : files.read path = .ok contents)
      (named : (Path.fileName? path).bind RawName.key? = some key) :
      Ends files options path [] (.ok [(key, contents)])
  | noObject {contents : Bytes} {cause : ObjectError}
      (read : files.read path = .ok contents)
      (unnamed : (Path.fileName? path).bind RawName.key? = none)
      (linked : Elf.magic <+: contents)
      (object : Elf.ofBytes contents = .error cause) :
      Ends files options path [] (.error (.object cause))
  | notPacked {contents : Bytes} {elf : Elf} {cause : PackError}
      (read : files.read path = .ok contents)
      (unnamed : (Path.fileName? path).bind RawName.key? = none)
      (linked : Elf.magic <+: contents)
      (object : Elf.ofBytes contents = .ok elf)
      (packing : (packElf elf options path).result = .error cause) :
      Ends files options path (packElf elf options path).diagnostics
        (.error (.pack cause))
  | packed {contents : Bytes} {elf : Elf} {database : Database .resource}
      (read : files.read path = .ok contents)
      (unnamed : (Path.fileName? path).bind RawName.key? = none)
      (linked : Elf.magic <+: contents)
      (object : Elf.ofBytes contents = .ok elf)
      (packing : (packElf elf options path).result = .ok database) :
      Ends files options path (packElf elf options path).diagnostics
        (.ok database.toList)
  | noDatabase {contents : Bytes} {cause : FormatError}
      (read : files.read path = .ok contents)
      (unnamed : (Path.fileName? path).bind RawName.key? = none)
      (unlinked : ¬ Elf.magic <+: contents)
      (image : Image.parseAny contents = .error cause) :
      Ends files options path [] (.error (.format cause))
  | holdsRecords {contents : Bytes} {database : Database .record}
      (read : files.read path = .ok contents)
      (unnamed : (Path.fileName? path).bind RawName.key? = none)
      (unlinked : ¬ Elf.magic <+: contents)
      (image : Image.parseAny contents = .ok (.record database)) :
      Ends files options path [] (.error .holdsRecords)
  | database {contents : Bytes} {database : Database .resource}
      (read : files.read path = .ok contents)
      (unnamed : (Path.fileName? path).bind RawName.key? = none)
      (unlinked : ¬ Elf.magic <+: contents)
      (image : Image.parseAny contents = .ok (.resource database)) :
      Ends files options path [] (.ok database.toList)

namespace Input

variable {files : Files} {options : PackOptions} {path : String}

/-- An executable is packed, or is not. -/
theorem ends_packedResources {contents : Bytes}
    (read : files.read path = .ok contents)
    (unnamed : (Path.fileName? path).bind RawName.key? = none)
    (linked : Elf.magic <+: contents) :
    Ends files options path (packedResources options path contents).diagnostics
      (packedResources options path contents).result := by
  cases object : Elf.ofBytes contents with
  | error cause =>
      rw [packedResources, object]
      exact .noObject read unnamed linked object
  | ok elf =>
  have opened : packedResources options path contents = (do
      Run.tell elf.events
      let packed ← (packElf elf options path).mapError .pack
      Run.tell
        [.note .info s!"{path}: packed into {packed.size} resources"]
      return packed.toList) := by
    rw [packedResources, object]
    rfl
  cases packing : packElf elf options path with
  | mk said result =>
  rw [opened, packing]
  have reported : (packElf elf options path).diagnostics
      = diagnosticsOf said := by rw [packing]; rfl
  have ended : (packElf elf options path).result = result := by rw [packing]
  cases result with
  | error cause =>
      have failed := Ends.notPacked read unnamed linked object ended
      rw [reported] at failed
      exact failed
  | ok database =>
      have made := Ends.packed read unnamed linked object ended
      have remarked : diagnosticsOf (elf.events ++ (said ++ ([.note .info
          s!"{path}: packed into {database.size} resources"] ++ [])))
            = diagnosticsOf said := by
        rw [diagnosticsOf_append, diagnosticsOf_append]
        exact List.append_nil _
      rw [reported, ← remarked] at made
      exact made

/-- A database is read, or is not. -/
theorem ends_databaseResources {contents : Bytes}
    (read : files.read path = .ok contents)
    (unnamed : (Path.fileName? path).bind RawName.key? = none)
    (unlinked : ¬ Elf.magic <+: contents) :
    Ends files options path (databaseResources path contents).diagnostics
      (databaseResources path contents).result := by
  have silent := Image.diagnosticsOf_parseAnyEvents contents
  rw [databaseResources]
  cases image : Image.parseAny contents with
  | error cause =>
      have failed : Ends files options path [] (.error (.format cause)) :=
        .noDatabase read unnamed unlinked image
      rw [← silent, ← List.append_nil (Image.parseAnyEvents contents)] at failed
      exact failed
  | ok database =>
  cases database with
  | record database =>
      have failed : Ends files options path [] (.error .holdsRecords) :=
        .holdsRecords read unnamed unlinked image
      rw [← silent, ← List.append_nil (Image.parseAnyEvents contents)] at failed
      exact failed
  | resource database =>
      have made : Ends files options path [] (.ok database.toList) :=
        .database read unnamed unlinked image
      have remarked : diagnosticsOf (Image.parseAnyEvents contents ++
          ([.debug s!"{path}: resource database with {database.size} resources"]
            ++ [])) = [] := by
        rw [diagnosticsOf_append, silent]
        rfl
      rw [← remarked] at made
      exact made

/-- Loading an input ends in one of these ways. -/
theorem ends_load (files : Files) (options : PackOptions) (path : String) :
    Ends files options path (load files options path).diagnostics
      (load files options path).result := by
  cases read : files.read path with
  | error cause =>
      have loaded : load files options path = ⟨[], .error (.file cause)⟩ := by
        rw [load, read]
        rfl
      rw [loaded]
      exact .unreadable read
  | ok contents =>
  have loaded : load files options path = resources options path contents := by
    rw [load, read]
    rfl
  rw [loaded, resources]
  cases named : (Path.fileName? path).bind RawName.key? with
  | some key => exact .raw read named
  | none =>
  by_cases linked : Elf.magic <+: contents
  · dsimp only
    rw [if_pos linked]
    exact ends_packedResources read named linked
  · dsimp only
    rw [if_neg linked]
    exact ends_databaseResources read named linked

/-- What is found in an input has distinct keys. -/
theorem Ends.nodup {problems : Diagnostics} {found : List Resource}
    (h : Ends files options path problems (.ok found)) :
    (found.map Prod.fst).Nodup := by
  cases h with
  | raw => exact List.pairwise_singleton _ _
  | @packed _ _ database => exact Entries.nodup_keys_toList database.entries
  | @database _ database => exact Entries.nodup_keys_toList database.entries

end Input

/-! ## Adding an input in place -/

/-- An assembly that is being changed, and a journal that is being
    written. -/
structure Bench where
  assembly : Assembly
  journal : List Event

/-- A computation that changes them as it goes along.  What was changed
    before a failure stays changed. -/
abbrev InPlace := EStateM InputError Bench

namespace InPlace

variable {α β : Type}

/-- Says something. -/
def say (events : List Event) : InPlace Unit :=
  modify fun b => { b with journal := b.journal ++ events }

/-- A computation that does not change the assembly. -/
def run (x : Run InputError α) : InPlace α := do
  say x.journal
  match x.result with
  | .ok a => return a
  | .error e => throw e

/-- Adds a resource, unless its key is taken. -/
def addResource (origin : String) (r : Resource) : InPlace Unit := do
  match (← get).assembly.origins[r.1]? with
  | some first =>
      say [.warning origin s!"resource {r.1.text} already obtained from {first}; ignoring this one"]
  | none =>
      modify fun b => { b with
        assembly.database := b.assembly.database.insert r.1 r.2 }
      modify fun b => { b with
        assembly.origins := b.assembly.origins.insert r.1 origin }

/-- Adds several resources, one after the other. -/
def addResources (origin : String) : List Resource → InPlace Unit
  | [] => return
  | r :: rest => do
      addResource origin r
      addResources origin rest

/-- Adds an input of any format. -/
def addFile (files : Files) (options : PackOptions) (path : String) :
    InPlace Unit := do
  let contents ← run (.ofExcept ((files.read path).mapError .file))
  match (Path.fileName? path).bind RawName.key? with
  | some key =>
      run (.tell
        [.debug s!"{path}: raw resource {key.text} ({contents.length} bytes)"])
      addResource path (key, contents)
  | none =>
      if Elf.magic <+: contents then
        let elf ← run (.ofExcept ((Elf.ofBytes contents).mapError .object))
        run (.tell elf.events)
        let packed ← run ((packElf elf options path).mapError .pack)
        run (.tell
          [.note .info s!"{path}: packed into {packed.size} resources"])
        addResources path packed.toList
      else
        run (.tell (Image.parseAnyEvents contents))
        match ← run (.ofExcept
            ((Image.parseAny contents).mapError .format)) with
        | .resource database =>
            run (.tell
              [.debug s!"{path}: resource database with {database.size} resources"])
            addResources path database.toList
        | .record _ => throw .holdsRecords

theorem run_apply_of_ok {x : Run InputError α} {a : α} (h : x.result = .ok a)
    (b : Bench) : run x b = .ok a ⟨b.assembly, b.journal ++ x.journal⟩ := by
  obtain ⟨said, result⟩ := x
  obtain rfl : result = .ok a := h
  rfl

theorem run_apply_of_error {x : Run InputError α} {e : InputError}
    (h : x.result = .error e) (b : Bench) :
    run x b = .error e ⟨b.assembly, b.journal ++ x.journal⟩ := by
  obtain ⟨said, result⟩ := x
  obtain rfl : result = .error e := h
  rfl

theorem run_pure (a : α) : run (pure a) = pure a := by
  funext b
  rw [run_apply_of_ok rfl]
  show EStateM.Result.ok a (Bench.mk b.assembly (b.journal ++ [])) = .ok a b
  rw [List.append_nil]

theorem run_throw (e : InputError) :
    run (throw e : Run InputError α) = throw e := by
  funext b
  rw [run_apply_of_error rfl]
  show EStateM.Result.error e (Bench.mk b.assembly (b.journal ++ []))
    = .error e b
  rw [List.append_nil]

/-- Computations that do not change the assembly are put in a row. -/
theorem run_bind (x : Run InputError α) (f : α → Run InputError β) :
    run (x >>= f) = run x >>= fun a => run (f a) := by
  funext b
  show _ = EStateM.bind (run x) (fun a => run (f a)) b
  rw [EStateM.bind]
  cases ended : x.result with
  | error e =>
      have failed : (x >>= f).result = .error e := by
        rw [Run.result_bind, ended]
        rfl
      rw [run_apply_of_error ended, run_apply_of_error failed,
        Run.journal_bind_error f ended]
  | ok a =>
      have rest : (x >>= f).result = (f a).result := by
        rw [Run.result_bind, ended]
        rfl
      rw [run_apply_of_ok ended]
      show _ = run (f a) _
      cases ended' : (f a).result with
      | error e =>
          rw [run_apply_of_error ended', run_apply_of_error (rest.trans ended'),
            Run.journal_bind_ok f ended, List.append_assoc]
      | ok c =>
          rw [run_apply_of_ok ended', run_apply_of_ok (rest.trans ended'),
            Run.journal_bind_ok f ended, List.append_assoc]

/-- One resource is added. -/
theorem addResource_apply (origin : String) (r : Resource) (b : Bench) :
    addResource origin r b
      = .ok () ⟨b.assembly.add origin r,
          b.journal ++ b.assembly.addEvents origin r⟩ := by
  obtain ⟨a, journal⟩ := b
  rw [Assembly.add, Assembly.offer, Assembly.isFree, Assembly.addEvents,
    Std.ExtTreeMap.contains_eq_isSome_getElem?]
  cases taken : a.origins[r.1]? with
  | some first =>
      simp only [addResource, bind, EStateM.bind, get, getThe,
        MonadStateOf.get, EStateM.get, taken]
      rfl
  | none =>
      simp only [addResource, bind, EStateM.bind, get, getThe,
        MonadStateOf.get, EStateM.get, taken, List.append_nil]
      rfl

theorem addResources_singleton (origin : String) (r : Resource) :
    addResources origin [r] = addResource origin r := by
  rw [addResources, addResources]
  exact bind_pure _

/-- Resources are added one after the other, whatever becomes of them. -/
theorem addResources_apply (origin : String) (rs : List Resource) (b : Bench) :
    addResources origin rs b
      = .ok () ⟨b.assembly.addAll origin rs,
          b.journal ++ b.assembly.addAllEvents origin rs⟩ := by
  induction rs generalizing b with
  | nil =>
      show EStateM.Result.ok () b
        = .ok () (Bench.mk b.assembly (b.journal ++ []))
      rw [List.append_nil]
  | cons r rs ih =>
      show EStateM.bind (addResource origin r)
        (fun _ => addResources origin rs) b = _
      rw [EStateM.bind, addResource_apply]
      show addResources origin rs _ = _
      rw [ih, Assembly.addAllEvents, List.append_assoc]
      rfl

/-- All that can fail comes first. -/
theorem addFile_eq (files : Files) (options : PackOptions) (path : String) :
    addFile files options path = (do
      let found ← run (Input.load files options path)
      addResources path found) := by
  rw [addFile, Input.load, run_bind, bind_assoc]
  congr 1
  funext contents
  rw [Input.resources]
  cases (Path.fileName? path).bind RawName.key? with
  | some key =>
      dsimp only
      rw [Input.rawResources]
      simp only [run_bind, run_pure, bind_assoc, pure_bind,
        addResources_singleton]
  | none =>
  dsimp only
  by_cases linked : Elf.magic <+: contents
  -- in both formats the resources are added after the last step that fails
  · rw [if_pos linked, if_pos linked, Input.packedResources]
    simp only [run_bind, run_pure, bind_assoc, pure_bind]
  · rw [if_neg linked, if_neg linked, Input.databaseResources]
    simp only [run_bind, bind_assoc]
    congr 1
    funext _
    congr 1
    funext database
    cases database with
    | resource database =>
        simp only [run_bind, run_pure, bind_assoc, pure_bind]
    | record database =>
        rw [run_throw]
        rfl

variable (files : Files) (options : PackOptions) {path : String}

/-- An input that is not loaded changes nothing, but what was said of it
    stays said. -/
theorem addFile_apply_of_error {e : InputError}
    (h : (Input.load files options path).result = .error e) (b : Bench) :
    addFile files options path b
      = .error e ⟨b.assembly,
          b.journal ++ (Input.load files options path).journal⟩ := by
  rw [addFile_eq]
  show EStateM.bind (run _) (addResources path) b = _
  rw [EStateM.bind, run_apply_of_error h]

/-- An input that is loaded is added. -/
theorem addFile_apply_of_ok {found : List Resource}
    (h : (Input.load files options path).result = .ok found) (b : Bench) :
    addFile files options path b
      = .ok () ⟨b.assembly.addAll path found,
          b.journal ++ ((Input.load files options path).journal
            ++ b.assembly.addAllEvents path found)⟩ := by
  rw [addFile_eq]
  show EStateM.bind (run _) (addResources path) b = _
  rw [EStateM.bind, run_apply_of_ok h]
  show addResources path found _ = _
  rw [addResources_apply, List.append_assoc]

end InPlace

/-! ## What an assembly gains -/

namespace Assembly

/-- The resources whose keys are free. -/
def free (a : Assembly) (found : List Resource) : List Resource :=
  found.filter fun r => a.isFree r.1

/-- An assembly has these resources of an origin more than another one, and
    is the same besides. -/
structure Gains (a : Assembly) (origin : String) (rs : List Resource)
    (next : Assembly) : Prop where
  database : next.database = a.database.insertAll rs
  origins (key : ResourceKey) : next.origins[key]?
    = if key ∈ rs.map Prod.fst then some origin else a.origins[key]?

/-- What is said of the resources whose keys are taken. -/
def notices (a : Assembly) (origin : String) (found : List Resource) :
    Diagnostics :=
  found.filterMap fun r => a.origins[r.1]?.map fun first =>
    (Supply.of origin r).notice (.of first r)

theorem isFree_eq (a : Assembly) (key : ResourceKey) :
    a.isFree key = (a.origins[key]?).isNone := by
  rw [isFree, Std.ExtTreeMap.contains_eq_isSome_getElem?, Option.not_isSome]

theorem add_of_free {a : Assembly} {r : Resource} (h : a.isFree r.1 = true)
    (origin : String) :
    a.add origin r
      = ⟨a.database.insert r.1 r.2, a.origins.insert r.1 origin⟩ := by
  rw [add, offer, if_pos h]

theorem add_of_taken {a : Assembly} {r : Resource} (h : a.isFree r.1 = false)
    (origin : String) : a.add origin r = a := by
  rw [add, offer, h, if_neg Bool.false_ne_true]

theorem origins_add_self {a : Assembly} {r : Resource}
    (h : a.isFree r.1 = true) (origin : String) :
    (a.add origin r).origins[r.1]? = some origin := by
  rw [add_of_free h]
  exact Std.ExtTreeMap.getElem?_insert_self

/-- A resource does not touch other keys. -/
theorem origins_add_of_ne (a : Assembly) (origin : String) {r : Resource}
    {key : ResourceKey} (ne : r.1 ≠ key) :
    (a.add origin r).origins[key]? = a.origins[key]? := by
  cases free : a.isFree r.1 with
  | true =>
      have apart : ¬ ResourceKey.order r.1 key = .eq := fun equal =>
        ne (Std.LawfulEqCmp.eq_of_compare equal)
      rw [add_of_free free]
      exact Std.ExtTreeMap.getElem?_insert.trans (if_neg apart)
  | false => rw [add_of_taken free]

variable {found : List Resource}

theorem free_cons_of_free {a : Assembly} {r : Resource}
    (h : a.isFree r.1 = true) : a.free (r :: found) = r :: a.free found :=
  List.filter_cons_of_pos h

theorem free_cons_of_taken {a : Assembly} {r : Resource}
    (h : a.isFree r.1 = false) : a.free (r :: found) = a.free found :=
  List.filter_cons_of_neg (Bool.eq_false_iff.mp h)

theorem notices_cons_of_none {a : Assembly} {r : Resource}
    (h : a.origins[r.1]? = none) (origin : String) :
    a.notices origin (r :: found) = a.notices origin found :=
  List.filterMap_cons_none (by rw [h]; rfl)

theorem notices_cons_of_some {a : Assembly} {r : Resource} {first : String}
    (h : a.origins[r.1]? = some first) (origin : String) :
    a.notices origin (r :: found)
      = (Supply.of origin r).notice (.of first r) :: a.notices origin found :=
  List.filterMap_cons_some (by rw [h]; rfl)

/-- Resources with other keys are as free as before. -/
theorem free_add (a : Assembly) (origin : String) {r : Resource}
    (new : r.1 ∉ found.map Prod.fst) :
    (a.add origin r).free found = a.free found := by
  refine List.filter_congr fun r' hr' => ?_
  have ne : r.1 ≠ r'.1 := fun same => new (same ▸ List.mem_map_of_mem hr')
  rw [isFree_eq, isFree_eq, origins_add_of_ne a origin ne]

theorem notices_add (a : Assembly) (origin : String) {r : Resource}
    (new : r.1 ∉ found.map Prod.fst) :
    (a.add origin r).notices origin found = a.notices origin found := by
  refine List.filterMap_congr fun r' hr' => ?_
  have ne : r.1 ≠ r'.1 := fun same => new (same ▸ List.mem_map_of_mem hr')
  rw [origins_add_of_ne a origin ne]

/-- One resource more is gained before others. -/
theorem Gains.cons {a next : Assembly} {origin : String} {r : Resource}
    {rs : List Resource} (free : a.isFree r.1 = true)
    (later : Gains (a.add origin r) origin rs next) :
    Gains a origin (r :: rs) next := by
  constructor
  · refine later.database.trans ?_
    rw [add_of_free free]
    rfl
  · intro key
    refine (later.origins key).trans ?_
    rw [List.map_cons]
    by_cases among : key ∈ rs.map Prod.fst
    · rw [if_pos among, if_pos (List.mem_cons_of_mem _ among)]
    · rw [if_neg among]
      by_cases same : r.1 = key
      · subst same
        rw [origins_add_self free, if_pos List.mem_cons_self]
      · have none : key ∉ r.1 :: rs.map Prod.fst := fun member =>
          (List.mem_cons.mp member).elim (fun e => same e.symm) among
        rw [if_neg none, origins_add_of_ne a origin same]

/-- Of resources with distinct keys, those are gained whose keys are free. -/
theorem gains_addAll (a : Assembly) (origin : String)
    (nodup : (found.map Prod.fst).Nodup) :
    Gains a origin (a.free found) (a.addAll origin found) := by
  induction found generalizing a with
  | nil => exact ⟨rfl, fun key => (if_neg List.not_mem_nil).symm⟩
  | cons r found ih =>
      obtain ⟨new, rest⟩ := List.nodup_cons.mp nodup
      -- no other resource has the key of this one, so the rest is as free
      -- after it as before
      have later := ih (a.add origin r) rest
      rw [free_add a origin new] at later
      cases free : a.isFree r.1 with
      | true =>
          rw [free_cons_of_free free]
          exact later.cons free
      | false =>
          have same : a.addAll origin (r :: found) = a.addAll origin found :=
            congrArg (addAll · origin found) (add_of_taken free origin)
          rw [add_of_taken free] at later
          rw [free_cons_of_taken free, same]
          exact later

/-- The others are reported, one by one. -/
theorem diagnosticsOf_addAllEvents (a : Assembly) (origin : String)
    (nodup : (found.map Prod.fst).Nodup) :
    diagnosticsOf (a.addAllEvents origin found)
      = a.notices origin found := by
  induction found generalizing a with
  | nil => rfl
  | cons r found ih =>
      obtain ⟨new, rest⟩ := List.nodup_cons.mp nodup
      rw [addAllEvents, diagnosticsOf_append, ih _ rest,
        notices_add a origin new, addEvents]
      cases taken : a.origins[r.1]? with
      | none =>
          rw [notices_cons_of_none taken]
          rfl
      | some first =>
          rw [notices_cons_of_some taken]
          rfl

/-- Every resource is gained or reported. -/
theorem length_free_add_length_notices (a : Assembly) (origin : String)
    (found : List Resource) :
    (a.free found).length + (a.notices origin found).length
      = found.length := by
  induction found with
  | nil => rfl
  | cons r found ih =>
      have free := isFree_eq a r.1
      cases taken : a.origins[r.1]? with
      | none =>
          rw [taken] at free
          rw [free_cons_of_free free, notices_cons_of_none taken,
            List.length_cons, List.length_cons, Nat.add_right_comm, ih]
      | some first =>
          rw [taken] at free
          rw [free_cons_of_taken free, notices_cons_of_some taken,
            List.length_cons, List.length_cons, ← Nat.add_assoc, ih]

end Assembly

/-! ## Adding an input -/

section Adding

variable (files : Files) (options : PackOptions) (path : String) (b : Bench)

/-- An input that fails: nothing is changed, the packer's warnings are all
    that is reported, and further inputs are added as if there were none. -/
structure Bench.Refuses (said : List Event) (e : InputError) : Prop where
  ends : Input.Ends files options path (diagnosticsOf said) (.error e)
  warns : ∀ d ∈ diagnosticsOf said, d.WarnsAbout path
  inPlace : InPlace.addFile files options path b
    = .error e ⟨b.assembly, b.journal ++ said⟩
  result : b.assembly.addFile files options path = ⟨said, .error e⟩
  further (rest : List String) :
    b.assembly.addFiles files options (path :: rest)
      = ((b.assembly.addFiles files options rest).1,
          said ++ .error path e.message
            :: (b.assembly.addFiles files options rest).2)

/-- An input that is added: what it has under free keys is gained, and each
    of the others is reported, besides the packer's warnings. -/
structure Bench.Accepts (said : List Event) (packing : Diagnostics)
    (found : List Resource) (next : Assembly) : Prop where
  ends : Input.Ends files options path packing (.ok found)
  warns : ∀ d ∈ packing, d.WarnsAbout path
  inPlace : InPlace.addFile files options path b
    = .ok () ⟨next, b.journal ++ said⟩
  result : b.assembly.addFile files options path = ⟨said, .ok next⟩
  distinct : (found.map Prod.fst).Nodup
  gains : b.assembly.Gains path (b.assembly.free found) next
  reported : diagnosticsOf said = packing ++ b.assembly.notices path found
  accounted : (b.assembly.free found).length
    + (b.assembly.notices path found).length = found.length

/-- **An input is added as a whole, or leaves nothing behind.**  Whatever an
    assembly holds, whatever the file is and however it is packed: either
    adding it fails, and then nothing is changed besides the packer's
    warnings, or exactly those resources of the file are added whose keys
    were free, and every other one is reported once. -/
theorem InPlace.addFile_atomic :
    (∃ said e, b.Refuses files options path said e)
      ∨ ∃ said packing found next,
        b.Accepts files options path said packing found next := by
  have ends := Input.ends_load files options path
  have warns := Input.warns_load files options path
  cases loaded : (Input.load files options path).result with
  | error e =>
      rw [loaded] at ends
      refine .inl ⟨(Input.load files options path).journal, e, ends, warns,
        InPlace.addFile_apply_of_error files options loaded b,
        Assembly.addFile_of_error files options b.assembly loaded, ?_⟩
      intro rest
      rw [Assembly.addFiles,
        Assembly.addFile_of_error files options b.assembly loaded]
  | ok found =>
      rw [loaded] at ends
      refine .inr ⟨_, _, found, _, ends, warns,
        InPlace.addFile_apply_of_ok files options loaded b,
        Assembly.addFile_of_ok files options b.assembly loaded, ends.nodup,
        Assembly.gains_addAll b.assembly path ends.nodup, ?_,
        Assembly.length_free_add_length_notices b.assembly path found⟩
      rw [diagnosticsOf_append,
        Assembly.diagnosticsOf_addAllEvents b.assembly path ends.nodup]
      rfl

end Adding

end Handheld
