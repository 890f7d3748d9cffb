import Handheld.Executable.Basic
import Handheld.Text.Numeral

/-! # Threading — the relocations of the data, as chains in the data

    When a program starts, each address in its data has to be corrected by
    where the resource that it points into was loaded.  The places of these
    addresses form one chain for each resource, threaded through the data:
    a place of four bytes holds the position of the next place in its first
    half, and the offset within the resource in its second half.

    • `Layout.placement?` tells the chain and base of a section;
    • `Layout.site` finds place, chain and offset of a relocation, or why
      it has none;
    • `Threads.thread` puts a place at the head of its chain;
    • `threadAll` goes through all relocations. -/

namespace Handheld

/-! ## Where sections go -/

/-- Where a section ends up: the chain of its resource, and the offset
    within that resource at which it starts.  Nothing is packed unless all
    chains are numbers of sixteen bits (see `countChains`). -/
structure Placement where
  chain : Nat
  base : Nat
deriving DecidableEq

/-- The chain of the data resource. -/
def dataChain : Nat := 0

/-- The chain of the main code. -/
def textChain : Nat := 1

/-- The chain of the first further code resource. -/
def firstExtraChain : Nat := 2

/-- An executable, and where its sections go.  Of several placements of
    one section, the first counts. -/
structure Layout where
  executable : Executable
  placements : List (Nat × Placement)

/-- Where the section at a position goes. -/
def Layout.placement? (l : Layout) (index : Nat) : Option Placement :=
  l.placements.lookup index

/-! ## Where relocations go -/

/-- The link of the last place of a chain, and the head of an empty one. -/
def endOfChain : Nat := 0xFFFF

/-- The size of a place. -/
def siteSize : Nat := 4

/-- Where a relocation is threaded: the position of its place in the data,
    its chain, and the offset within the resource of the chain. -/
structure Site where
  position : Nat
  chain : Nat
  offset : Nat
deriving DecidableEq

/-- Why a relocation is not threaded. -/
inductive Skip where
  | unknownType
  | unexpectedSection
  | outOfRange
  | unknownTarget
  /-- The value there is not an offset of 16 bits from the target. -/
  | unfit (value : Nat)
deriving DecidableEq

/-- What is said of a relocation in a section that is not threaded. -/
def Skip.message (name : String) (r : Relocation) : Skip → String
  | .unknownType =>
      s!"unknown relocation type {r.type.text} in {name} at {Numeral.address r.offset}; skipping"
  | .unexpectedSection =>
      s!"relocation in unexpected section {name} at {Numeral.address r.offset}; skipping"
  | .outOfRange =>
      s!"relocation at {Numeral.address r.offset} in {name} is out of range; skipping"
  | .unknownTarget =>
      s!"relocation at {Numeral.address r.offset} in {name} refers to an unknown section; skipping"
  | .unfit value =>
      s!"relocated value {Numeral.address value} at {Numeral.address r.offset} in {name} does not fit its chain; skipping"

namespace Layout

/-- The base of the section a relocation is in, if that is in the data. -/
def sourceBase? (l : Layout) (r : Relocation) : Option Nat :=
  match l.placement? r.container with
  | some p => if p.chain = dataChain then some p.base else none
  | none => none

/-- The section that the address in a relocation points into, and where it
    goes. -/
def target? (l : Layout) (r : Relocation) : Option (Nat × Placement) :=
  match r.targetSection? l.executable.symbols with
  | some index => (l.placement? index).map (index, ·)
  | none => none

/-- The word at a position of the data. -/
def word (l : Layout) (image : Bytes) (position : Nat) : Nat :=
  l.executable.architecture.value (Bytes.slice image position siteSize)

/-- Where a relocation is threaded into the data. -/
def site (l : Layout) (image : Bytes) (r : Relocation) : Except Skip Site :=
  if r.type ≠ .absolute32 then .error .unknownType
  else match l.sourceBase? r with
    | none => .error .unexpectedSection
    | some base =>
        let position := base + r.offset
        if image.length < position + siteSize ∨ endOfChain ≤ position then
          .error .outOfRange
        else match l.target? r with
          | none => .error .unknownTarget
          | some (index, target) =>
              let value := l.word image position
              let address := (l.executable.sectionAt index).address
              if address ≤ value + target.base
                  ∧ value + target.base < address + 0x1_0000 then
                .ok ⟨position, target.chain, value + target.base - address⟩
              else .error (.unfit value)

end Layout

/-! ## Chains -/

/-- The data while relocations are threaded: its bytes, the heads of the
    chains, the places threaded and the relocations skipped so far, latest
    first. -/
structure Threads where
  image : Bytes
  heads : List Nat
  sites : List Site
  skipped : List (Relocation × Skip)

namespace Threads

/-- The data before anything is threaded into its chains. -/
def start (image : Bytes) (chains : Nat) : Threads where
  image := image
  heads := List.replicate chains endOfChain
  sites := []
  skipped := []

/-- Puts a place at the head of its chain. -/
def thread (a : Architecture) (s : Site) (t : Threads) : Threads where
  image := Bytes.overwrite t.image s.position
    (a.encode 2 (t.heads.getD s.chain endOfChain) ++ a.encode 2 s.offset)
  heads := t.heads.set s.chain s.position
  sites := s :: t.sites
  skipped := t.skipped

/-- Leaves a relocation out. -/
def skip (r : Relocation) (cause : Skip) (t : Threads) : Threads where
  image := t.image
  heads := t.heads
  sites := t.sites
  skipped := (r, cause) :: t.skipped

/-- Threads one relocation, or leaves it out. -/
def step (l : Layout) (t : Threads) (r : Relocation) : Threads :=
  match l.site t.image r with
  | .ok s => t.thread l.executable.architecture s
  | .error cause => t.skip r cause

/-- The heads of the chains as they are stored. -/
def headBytes (a : Architecture) (t : Threads) : Bytes :=
  t.heads.flatMap (a.encode 2)

end Threads

/-- Threads all relocations of the executable into its data. -/
def threadAll (l : Layout) (image : Bytes) (chains : Nat) : Threads :=
  l.executable.relocations.foldl (Threads.step l) (.start image chains)

/-- Each relocation is either threaded or skipped. -/
theorem Threads.length_foldl_step (l : Layout) (rs : List Relocation)
    (t : Threads) :
    (rs.foldl (step l) t).sites.length + (rs.foldl (step l) t).skipped.length
      = t.sites.length + t.skipped.length + rs.length := by
  induction rs generalizing t with
  | nil => simp
  | cons r rs ih =>
      rw [List.foldl_cons, ih, List.length_cons]
      cases h : l.site t.image r <;>
        simp only [step, h, thread, skip, List.length_cons] <;> omega

end Handheld
