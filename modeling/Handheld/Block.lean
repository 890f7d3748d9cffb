import Handheld.Bytes
import Handheld.Text.Numeral
import Handheld.Text.Parts

/-! # Blocks — shared byte arrays that are copied on writing

    A block is a window of a stored array, and several blocks may show
    windows of one array.  Copies and windows of a block share its array;
    a write first gives the written block an array of its own if another
    block shares it, so that no write shows through another block.

    An arena holds the arrays and the blocks, which are numbered in the
    order in which they were made; a dropped block keeps its number. -/

namespace Handheld

/-- A window of a stored array. -/
structure Block where
  storage : Nat
  offset : Nat
  length : Nat
deriving DecidableEq

/-- The arrays, and the blocks that show them; a dropped block is
    `none`. -/
structure Arena where
  storages : List Bytes
  blocks : List (Option Block)
deriving DecidableEq

namespace Arena

/-- The arena without blocks. -/
def empty : Arena := ⟨[], []⟩

/-- The live block of a number. -/
def block? (a : Arena) (i : Nat) : Option Block :=
  (a.blocks[i]?).join

/-- The array that a block is a window of. -/
def storage (a : Arena) (b : Block) : Bytes :=
  a.storages.getD b.storage []

/-- What a block shows. -/
def contents (a : Arena) (b : Block) : Bytes :=
  Bytes.slice (a.storage b) b.offset b.length

/-- What the live block of a number shows. -/
def contents? (a : Arena) (i : Nat) : Option Bytes :=
  (a.block? i).map a.contents

/-- What every block shows. -/
def view (a : Arena) : List (Option Bytes) :=
  a.blocks.map fun b => b.map a.contents

/-! ## Operations -/

/-- Adds a block with an array of its own. -/
def allocate (a : Arena) (bytes : Bytes) : Arena where
  storages := a.storages ++ [bytes]
  blocks := a.blocks ++ [some ⟨a.storages.length, 0, bytes.length⟩]

/-- Adds a block. -/
def share (a : Arena) (b : Block) : Arena where
  storages := a.storages
  blocks := a.blocks ++ [some b]

/-- Adds a block for `length` bytes of block `b` from `offset` on.  Within
    the block it shares the array; otherwise it has a copy, with zeros for
    what the block does not show. -/
def window (a : Arena) (b : Block) (offset length : Nat) : Arena :=
  if offset + length ≤ b.length then
    a.share ⟨b.storage, b.offset + offset, length⟩
  else
    a.allocate (Bytes.resize ((a.contents b).drop offset) length)

/-- The number of live blocks that show an array. -/
def shareCount (a : Arena) (storage : Nat) : Nat :=
  a.blocks.countP fun b => b.any (·.storage = storage)

/-- Makes the array of block `b`, which has number `i`, its own. -/
def detach (a : Arena) (i : Nat) (b : Block) : Arena :=
  if 1 < a.shareCount b.storage then
    { storages := a.storages ++ [a.contents b]
      blocks := a.blocks.set i (some ⟨a.storages.length, 0, b.length⟩) }
  else a

/-- Replaces bytes of what block `b` shows, in its array. -/
def store (a : Arena) (b : Block) (position : Nat) (bytes : Bytes) : Arena where
  storages := a.storages.set b.storage
    (Bytes.overwrite (a.storage b) (b.offset + position) bytes)
  blocks := a.blocks

/-- Drops the block of a number. -/
def drop (a : Arena) (i : Nat) : Arena where
  storages := a.storages
  blocks := a.blocks.set i none

/-- Writes to the block of a number: its array becomes its own, and bytes
    that lie within it are replaced. -/
def write (a : Arena) (i : Nat) (position : Nat) (bytes : Bytes) : Arena :=
  match a.block? i with
  | none => a
  | some b =>
      let a := a.detach i b
      match a.block? i with
      | none => a
      | some b =>
          if position + bytes.length ≤ b.length then a.store b position bytes
          else a

/-- What can be done to an arena. -/
inductive Operation where
  /-- A block of zeros. -/
  | new (size : Nat)
  /-- A block of given bytes. -/
  | ofBytes (bytes : Bytes)
  /-- Another block that shows the same as block `source`. -/
  | copy (source : Nat)
  /-- A block that shows part of block `source`. -/
  | slice (source offset length : Nat)
  /-- Bytes of block `target` are replaced. -/
  | write (target position : Nat) (bytes : Bytes)
  /-- Block `target` goes away. -/
  | drop (target : Nat)
deriving DecidableEq

/-- The arena after an operation; one on a block that is not there does
    nothing. -/
def apply (a : Arena) : Operation → Arena
  | .new size => a.allocate (List.replicate size 0)
  | .ofBytes bytes => a.allocate bytes
  | .copy source =>
      match a.block? source with
      | none => a
      | some b => a.share b
  | .slice source offset length =>
      match a.block? source with
      | none => a
      | some b => a.window b offset length
  | .write target position bytes => a.write target position bytes
  | .drop target => a.drop target

/-! ## Independent blocks

    The same operations on blocks that share nothing. -/

/-- What blocks show that are arrays of their own. -/
abbrev Independent := List (Option Bytes)

/-- Independent blocks after an operation. -/
def Independent.apply (blocks : Independent) : Operation → Independent
  | .new size => blocks ++ [some (List.replicate size 0)]
  | .ofBytes bytes => blocks ++ [some bytes]
  | .copy source =>
      match (blocks[source]?).join with
      | none => blocks
      | some bytes => blocks ++ [some bytes]
  | .slice source offset length =>
      match (blocks[source]?).join with
      | none => blocks
      | some bytes => blocks ++ [some (Bytes.resize (bytes.drop offset) length)]
  | .write target position new =>
      match (blocks[target]?).join with
      | none => blocks
      | some bytes =>
          if position + new.length ≤ bytes.length then
            blocks.set target (some (Bytes.overwrite bytes position new))
          else blocks
  | .drop target => blocks.set target none

/-! ## Looking at blocks -/

/-- Whether two live blocks show one array. -/
def shares (a : Arena) (i j : Nat) : Bool :=
  match a.block? i, a.block? j with
  | some b, some c => b.storage = c.storage
  | _, _ => false

/-- Whether two live blocks show the same bytes. -/
def same (a : Arena) (i j : Nat) : Bool :=
  match a.contents? i, a.contents? j with
  | some b, some c => b = c
  | _, _ => false

/-- The number of the first live block that shares the array of block
    `i`. -/
def leader? (a : Arena) (i : Nat) : Option Nat :=
  (List.range a.blocks.length).find? (a.shares i)

/-- The length of a byte string and its first sixteen bytes. -/
def describe (bytes : Bytes) : String :=
  let shown := (bytes.take 16).map fun b => Numeral.upperHex 2 b.toNat
  let more := if 16 < bytes.length then ["..."] else []
  Parts.join " " (s!"{bytes.length} bytes:" :: (shown ++ more))

end Arena

end Handheld
