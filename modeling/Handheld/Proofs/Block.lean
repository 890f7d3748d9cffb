import Handheld.Block
import Handheld.Proofs.Bytes

/-! # Block isolation — shared arrays behave like arrays of one's own

    An arena saves copies: blocks share arrays until one of them is written.
    Nobody can tell from what the blocks show:

    • `WellFormed`: live blocks are windows of arrays that exist;
    • `IsDetached`: a block whose array nobody else shows, which is what
      `detach` makes of it before every write;
    • `apply_spec`: each operation keeps arenas well-formed and does to what
      the blocks show what it does to independent blocks;
    • `run_isolated`: so does every run, and a write is seen through the
      written block only. -/

namespace Handheld.Arena

variable {a : Arena}

/-! ## Well-formed arenas -/

/-- A block that is a window of an array that exists. -/
def Fits (a : Arena) (b : Block) : Prop :=
  ∃ bytes, a.storages[b.storage]? = some bytes
    ∧ b.offset + b.length ≤ bytes.length

/-- All live blocks are windows of arrays that exist. -/
def WellFormed (a : Arena) : Prop :=
  ∀ b, some b ∈ a.blocks → a.Fits b

theorem block?_eq_some_iff {i : Nat} {b : Block} :
    a.block? i = some b ↔ a.blocks[i]? = some (some b) := by
  rw [block?, Option.join_eq_some_iff]

theorem WellFormed.fits (h : WellFormed a) {i : Nat} {b : Block}
    (live : a.block? i = some b) : a.Fits b :=
  h b (List.mem_of_getElem? (block?_eq_some_iff.mp live))

theorem Fits.storage_lt {b : Block} (h : a.Fits b) :
    b.storage < a.storages.length := by
  obtain ⟨bytes, found, -⟩ := h
  exact (List.getElem?_eq_some_iff.mp found).1

theorem Fits.offset_add_le {b : Block} (h : a.Fits b) :
    b.offset + b.length ≤ (a.storage b).length := by
  obtain ⟨bytes, found, inside⟩ := h
  rw [storage, List.getD_eq_getElem?_getD, found]
  exact inside

theorem Fits.length_contents {b : Block} (h : a.Fits b) :
    (a.contents b).length = b.length :=
  Bytes.length_slice h.offset_add_le

/-- What blocks show only depends on their arrays. -/
theorem contents_congr {a' : Arena} {b : Block}
    (h : a'.storages[b.storage]? = a.storages[b.storage]?) :
    a'.contents b = a.contents b := by
  rw [contents, contents, storage, storage, List.getD_eq_getElem?_getD,
    List.getD_eq_getElem?_getD, h]

/-- Whether blocks are windows only depends on the arrays. -/
theorem Fits.congr {a' : Arena} {b : Block} (h : a.Fits b)
    (same : a'.storages[b.storage]? = a.storages[b.storage]?) : a'.Fits b := by
  obtain ⟨bytes, found, inside⟩ := h
  exact ⟨bytes, same.trans found, inside⟩

/-- Other blocks' contents, one by one. -/
theorem map_contents_congr {a' : Arena} {blocks : List (Option Block)}
    (h : ∀ b, some b ∈ blocks → a'.contents b = a.contents b) :
    blocks.map (fun b => b.map a'.contents)
      = blocks.map fun b => b.map a.contents := by
  refine List.map_congr_left fun b member => ?_
  cases b with
  | none => rfl
  | some b => exact congrArg some (h b member)

/-- If one block changed and the others show what they did, what is shown
    changed at that block. -/
theorem view_eq_set {a' : Arena} {i : Nat} {b b' : Block}
    (before : a.block? i = some b) (after : a'.block? i = some b')
    (blocks : ∀ j, i ≠ j → a'.blocks[j]? = a.blocks[j]?)
    (frame : ∀ j c, i ≠ j → a.block? j = some c →
      a'.contents c = a.contents c) :
    a'.view = a.view.set i (some (a'.contents b')) := by
  refine List.ext_getElem? fun j => ?_
  rw [view, List.getElem?_map]
  by_cases same : i = j
  · subst same
    have bound : i < a.view.length := by
      rw [view, List.length_map]
      exact (List.getElem?_eq_some_iff.mp (block?_eq_some_iff.mp before)).1
    rw [List.getElem?_set_self bound, block?_eq_some_iff.mp after]
    rfl
  · rw [List.getElem?_set_ne same, view, List.getElem?_map, blocks j same]
    cases found : a.blocks[j]? with
    | none => rfl
    | some c =>
        cases c with
        | none => rfl
        | some c =>
            have shows := frame j c same (block?_eq_some_iff.mpr found)
            exact congrArg (fun bytes => some (some bytes)) shows

theorem join_view (a : Arena) (i : Nat) :
    (a.view[i]?).join = a.contents? i := by
  rw [view, List.getElem?_map, contents?, block?]
  cases a.blocks[i]? with
  | none => rfl
  | some b => rfl

/-! ## New blocks -/

private theorem getElem?_storages_concat {b : Block} (h : a.Fits b)
    (bytes : Bytes) :
    (a.storages ++ [bytes])[b.storage]? = a.storages[b.storage]? :=
  List.getElem?_append_left h.storage_lt

theorem allocate_spec (h : WellFormed a) (bytes : Bytes) :
    WellFormed (a.allocate bytes)
      ∧ (a.allocate bytes).view = a.view ++ [some bytes] := by
  have old : ∀ b, some b ∈ a.blocks →
      (a.allocate bytes).storages[b.storage]? = a.storages[b.storage]? :=
    fun b live => getElem?_storages_concat (h b live) bytes
  have new : (a.allocate bytes).storages[a.storages.length]? = some bytes :=
    List.getElem?_concat_length
  constructor
  · intro b live
    rcases List.mem_append.mp live with before | last
    · exact (h b before).congr (old b before)
    · cases List.mem_singleton.mp last
      exact ⟨bytes, new, Nat.le_of_eq (Nat.zero_add _)⟩
  · have shows : (a.allocate bytes).contents
        ⟨a.storages.length, 0, bytes.length⟩ = bytes := by
      rw [contents, storage, List.getD_eq_getElem?_getD, new]
      simp [Bytes.slice]
    rw [view, allocate, List.map_append]
    congr 1
    · exact map_contents_congr fun b live => contents_congr (old b live)
    · exact congrArg (fun bytes => [some bytes]) shows

theorem share_spec (h : WellFormed a) {b : Block} (fits : a.Fits b) :
    WellFormed (a.share b)
      ∧ (a.share b).view = a.view ++ [some (a.contents b)] := by
  constructor
  · intro c live
    rcases List.mem_append.mp live with before | last
    · exact h c before
    · cases List.mem_singleton.mp last
      exact fits
  · exact List.map_append

/-- A block of part of another one shows that part, with zeros where the
    other one does not go on. -/
theorem window_spec (h : WellFormed a) {b : Block} (fits : a.Fits b)
    (offset length : Nat) :
    WellFormed (a.window b offset length)
      ∧ (a.window b offset length).view = a.view
        ++ [some (Bytes.resize ((a.contents b).drop offset) length)] := by
  rw [window]
  split
  case isFalse => exact allocate_spec h _
  case isTrue inside =>
    have part : a.Fits ⟨b.storage, b.offset + offset, length⟩ := by
      obtain ⟨bytes, found, room⟩ := fits
      exact ⟨bytes, found, by dsimp only; omega⟩
    have shows : a.contents ⟨b.storage, b.offset + offset, length⟩
        = Bytes.resize ((a.contents b).drop offset) length := by
      rw [Bytes.resize_eq_take (by
        rw [List.length_drop, fits.length_contents]
        omega)]
      exact (Bytes.slice_slice inside).symm
    rw [← shows]
    exact share_spec h part

/-! ## Dropped blocks -/

theorem drop_spec (h : WellFormed a) (i : Nat) :
    WellFormed (a.drop i) ∧ (a.drop i).view = a.view.set i none := by
  constructor
  · intro b live
    rcases List.mem_or_eq_of_mem_set live with before | gone
    · exact h b before
    · cases gone
  · exact List.map_set

/-! ## Written blocks -/

/-- No other live block shows the array of block `b`, which has number
    `i`. -/
def IsAlone (a : Arena) (i : Nat) (b : Block) : Prop :=
  ∀ j c, i ≠ j → a.block? j = some c → c.storage ≠ b.storage

/-- Block `b`, which has number `i`, is alone with its array, and all
    blocks show what they showed before. -/
structure IsDetached (a before : Arena) (i : Nat) (b : Block) : Prop where
  wellFormed : WellFormed a
  view_eq : a.view = before.view
  live : a.block? i = some b
  alone : a.IsAlone i b

theorem IsDetached.contents_eq {before : Arena} {i : Nat} {b b' : Block}
    (h : IsDetached a before i b') (live : before.block? i = some b) :
    a.contents b' = before.contents b := by
  have same : a.contents? i = before.contents? i := by
    rw [← join_view, ← join_view, h.view_eq]
  rw [contents?, contents?, h.live, live] at same
  exact Option.some.inj same

/-- Of two positions at which something holds both are counted. -/
private theorem two_le_countP {α : Type} {p : α → Bool} {list : List α}
    {i j : Nat} {x y : α} (lt : i < j) (hi : list[i]? = some x)
    (hj : list[j]? = some y) (hx : p x = true) (hy : p y = true) :
    2 ≤ list.countP p := by
  have early : 0 < (list.take j).countP p := by
    refine List.countP_pos_iff.mpr ⟨x, ?_, hx⟩
    exact List.mem_of_getElem? (by rw [List.getElem?_take_of_lt lt, hi])
  have late : 0 < (list.drop j).countP p := by
    refine List.countP_pos_iff.mpr ⟨y, ?_, hy⟩
    exact List.mem_of_getElem? (i := 0) (by rw [List.getElem?_drop]; exact hj)
  rw [← List.take_append_drop j list, List.countP_append]
  omega

/-- An array that is counted once is shown by no other block. -/
theorem isAlone_of_shareCount_le {i : Nat} {b : Block}
    (live : a.block? i = some b) (h : a.shareCount b.storage ≤ 1) :
    a.IsAlone i b := by
  intro j c differ other same
  have counts : 2 ≤ a.shareCount b.storage := by
    have hi := block?_eq_some_iff.mp live
    have hj := block?_eq_some_iff.mp other
    rcases Nat.lt_or_gt_of_ne differ with before | after
    · exact two_le_countP before hi hj (by simp) (by simp [same])
    · exact two_le_countP after hj hi (by simp [same]) (by simp)
  omega

/-- Detaching a block gives it an array of its own, and is not seen. -/
theorem detach_spec (h : WellFormed a) {i : Nat} {b : Block}
    (live : a.block? i = some b) :
    ∃ b', IsDetached (a.detach i b) a i b' := by
  rw [detach]
  split
  case isFalse few =>
    exact ⟨b, h, rfl, live, isAlone_of_shareCount_le live (by omega)⟩
  case isTrue =>
    have fits := h.fits live
    have place := block?_eq_some_iff.mp live
    have bound := (List.getElem?_eq_some_iff.mp place).1
    have new : (a.storages ++ [a.contents b])[a.storages.length]?
        = some (a.contents b) := List.getElem?_concat_length
    have own : Arena.block?
        ⟨a.storages ++ [a.contents b],
          a.blocks.set i (some ⟨a.storages.length, 0, b.length⟩)⟩ i
        = some ⟨a.storages.length, 0, b.length⟩ :=
      block?_eq_some_iff.mpr (List.getElem?_set_self bound)
    refine ⟨⟨a.storages.length, 0, b.length⟩, ?_, ?_, own, ?_⟩
    · intro c member
      rcases List.mem_or_eq_of_mem_set member with old | own
      · exact (h c old).congr (getElem?_storages_concat (h c old) _)
      · cases own
        exact ⟨a.contents b, new, Nat.le_of_eq
          ((Nat.zero_add _).trans fits.length_contents.symm)⟩
    · rw [view_eq_set live own]
      · -- the copy shows what the block showed
        have shows : a.view[i]? = some (some (a.contents b)) := by
          rw [view, List.getElem?_map, place]
          rfl
        have copy : Bytes.slice (a.contents b) 0 b.length = a.contents b := by
          rw [Bytes.slice, List.drop_zero, ← fits.length_contents,
            List.take_length]
        rw [contents, storage, List.getD_eq_getElem?_getD, new,
          Option.getD_some, copy]
        obtain ⟨inside, same⟩ := List.getElem?_eq_some_iff.mp shows
        rw [← same, List.set_getElem_self]
      · exact fun j differ => List.getElem?_set_ne differ
      · exact fun j c _ other => contents_congr
          (getElem?_storages_concat (h.fits other) _)
    · intro j c differ other
      have old : a.block? j = some c := by
        rw [block?_eq_some_iff] at other ⊢
        rwa [List.getElem?_set_ne differ] at other
      exact Nat.ne_of_lt (h.fits old).storage_lt

/-- A write to an array that no other block shows is seen through one block
    only. -/
theorem store_spec (h : WellFormed a) {i position : Nat} {b : Block}
    {bytes : Bytes} (live : a.block? i = some b) (alone : a.IsAlone i b)
    (inside : position + bytes.length ≤ b.length) :
    WellFormed (a.store b position bytes)
      ∧ (a.store b position bytes).view
        = a.view.set i (some (Bytes.overwrite (a.contents b) position bytes)) := by
  have fits := h.fits live
  have others : ∀ j c, i ≠ j → a.block? j = some c →
      (a.store b position bytes).storages[c.storage]?
        = a.storages[c.storage]? := fun j c differ other =>
    List.getElem?_set_ne (alone j c differ other).symm
  have own : (a.store b position bytes).storages[b.storage]?
      = some (Bytes.overwrite (a.storage b) (b.offset + position) bytes) :=
    List.getElem?_set_self fits.storage_lt
  have room := fits.offset_add_le
  constructor
  · intro c member
    obtain ⟨j, found⟩ := List.mem_iff_getElem?.mp member
    by_cases same : i = j
    · subst same
      obtain rfl : b = c := Option.some.inj
        (live.symm.trans (block?_eq_some_iff.mpr found))
      refine ⟨_, own, ?_⟩
      rw [Bytes.length_overwrite (by omega)]
      exact room
    · have other := block?_eq_some_iff.mpr found
      exact (h c member).congr (others j c same other)
  · have shows : (a.store b position bytes).contents b
        = Bytes.overwrite (a.contents b) position bytes := by
      rw [contents, storage, List.getD_eq_getElem?_getD, own]
      exact Bytes.slice_overwrite_within room inside
    rw [← shows]
    exact view_eq_set live live (fun _ _ => rfl) fun j c differ other =>
      contents_congr (others j c differ other)

/-- Whatever is written to a block, no other block shows its array
    afterwards. -/
theorem write_spec (h : WellFormed a) (i position : Nat) (bytes : Bytes) :
    WellFormed (a.write i position bytes)
      ∧ (a.write i position bytes).view
        = Independent.apply a.view (.write i position bytes)
      ∧ ∀ b, (a.write i position bytes).block? i = some b →
        (a.write i position bytes).IsAlone i b := by
  rw [write, Independent.apply, join_view, contents?]
  cases live : a.block? i with
  | none =>
      refine ⟨h, rfl, fun b found => ?_⟩
      rw [live] at found
      cases found
  | some b =>
      obtain ⟨b', own⟩ := detach_spec h live
      have shows := own.contents_eq live
      have fits := own.wellFormed.fits own.live
      dsimp only [Option.map]
      rw [own.live]
      dsimp only
      rw [← shows, fits.length_contents, ← own.view_eq]
      split
      case isFalse =>
        refine ⟨own.wellFormed, rfl, fun c found => ?_⟩
        cases own.live.symm.trans found
        exact own.alone
      case isTrue inside =>
        obtain ⟨wellFormed, seen⟩ :=
          store_spec own.wellFormed own.live own.alone inside
        refine ⟨wellFormed, seen, fun c found => ?_⟩
        cases own.live.symm.trans found
        exact own.alone

/-! ## Runs -/

/-- An operation keeps an arena well-formed and does to what the blocks show
    what it does to independent blocks. -/
theorem apply_spec (h : WellFormed a) (operation : Operation) :
    WellFormed (a.apply operation)
      ∧ (a.apply operation).view = Independent.apply a.view operation := by
  cases operation with
  | new size => exact allocate_spec h _
  | ofBytes bytes => exact allocate_spec h bytes
  | copy source =>
      rw [apply, Independent.apply, join_view, contents?]
      cases live : a.block? source with
      | none => exact ⟨h, rfl⟩
      | some b => exact share_spec h (h.fits live)
  | slice source offset length =>
      rw [apply, Independent.apply, join_view, contents?]
      cases live : a.block? source with
      | none => exact ⟨h, rfl⟩
      | some b => exact window_spec h (h.fits live) offset length
  | write target position bytes =>
      obtain ⟨wellFormed, seen, -⟩ := write_spec h target position bytes
      exact ⟨wellFormed, seen⟩
  | drop target => exact drop_spec h target

theorem wellFormed_empty : WellFormed empty :=
  fun _ live => absurd live List.not_mem_nil

theorem foldl_apply_spec (h : WellFormed a) (operations : List Operation) :
    WellFormed (operations.foldl apply a)
      ∧ (operations.foldl apply a).view
        = operations.foldl Independent.apply a.view := by
  induction operations generalizing a with
  | nil => exact ⟨h, rfl⟩
  | cons operation operations ih =>
      obtain ⟨next, seen⟩ := apply_spec h operation
      rw [List.foldl_cons, List.foldl_cons, ← seen]
      exact ih next

/-- A write is seen through no other block. -/
theorem contents?_write_ne (h : WellFormed a) {i j : Nat} (differ : i ≠ j)
    (position : Nat) (bytes : Bytes) :
    (a.write i position bytes).contents? j = a.contents? j := by
  obtain ⟨-, seen, -⟩ := write_spec h i position bytes
  rw [← join_view, ← join_view, seen, Independent.apply]
  split
  · rfl
  · split
    · rw [List.getElem?_set_ne differ]
    · rfl

/-- A block that was written shares its array with no other block. -/
theorem shares_write_ne (h : WellFormed a) {i j : Nat} (differ : i ≠ j)
    (position : Nat) (bytes : Bytes) :
    (a.write i position bytes).shares i j = false := by
  obtain ⟨-, -, alone⟩ := write_spec h i position bytes
  rw [shares]
  split
  case h_1 b c hb hc =>
    exact decide_eq_false fun same => alone b hb j c differ hc same.symm
  case h_2 => rfl

/-- **Blocks are isolated.**  After any run from the arena without blocks,
    every live block is a window of an array that exists, and all blocks
    show what independent blocks show after the same run.  A write to a
    block, whatever is written, is not seen through another one, and leaves
    the block without anyone to share its array with. -/
theorem run_isolated (operations : List Operation) :
    WellFormed (operations.foldl apply empty)
      ∧ (operations.foldl apply empty).view
        = operations.foldl Independent.apply []
      ∧ ∀ i j position bytes, i ≠ j →
        ((operations.foldl apply empty).write i position bytes).contents? j
            = (operations.foldl apply empty).contents? j
          ∧ ((operations.foldl apply empty).write i position bytes).shares i j
            = false := by
  obtain ⟨wellFormed, seen⟩ := foldl_apply_spec wellFormed_empty operations
  exact ⟨wellFormed, seen, fun i j position bytes differ =>
    ⟨contents?_write_ne wellFormed differ position bytes,
      shares_write_ne wellFormed differ position bytes⟩⟩

end Handheld.Arena
