import Handheld.Bytes

/-! # Splitting an image around its longest runs of zeros

    The output of an expansion starts out as zeros, so a long run of zeros
    need not be written at all.  An expansion has three passes; they can
    leave out two runs:

    • `zeroRuns` lists the maximal runs of at least eight zeros;
    • `longestTwo` picks two, longer ones first, earlier ones first among
      equals, in the order of the image;
    • `pieces` are the three spans around them. -/

namespace Handheld.Compression

/-- The positions from `start` up to, not including, `stop`. -/
structure Span where
  start : Nat
  stop : Nat
deriving DecidableEq

namespace Span

/-- The number of positions. -/
def length (s : Span) : Nat :=
  s.stop - s.start

/-- The bytes of an image at these positions. -/
def cut (s : Span) (image : Bytes) : Bytes :=
  Bytes.slice image s.start s.length

/-- A span as it is reported. -/
def text (s : Span) : String :=
  s!"{s.start}..{s.stop}"

/-- Whether a span is preferred to another, for leaving it out: the
    longer one is, or the earlier one of equal length. -/
def isPreferred (s t : Span) : Bool :=
  t.length < s.length ∨ (t.length = s.length ∧ s.start ≤ t.start)

end Span

/-- A run of fewer zeros than this is not left out. -/
def minOmittedRun : Nat := 8

/-- Adds the run of the `run` zeros before `position`, if it is long
    enough, to the runs found so far, latest first. -/
def closeRun (position run : Nat) (found : List Span) : List Span :=
  if minOmittedRun ≤ run then ⟨position - run, position⟩ :: found else found

/-- Looks for runs in what follows `position`, right before which there
    are `run` zeros. -/
def scanRuns (position run : Nat) (found : List Span) : Bytes → List Span
  | [] => closeRun position run found
  | b :: bytes =>
      if b = 0 then scanRuns (position + 1) (run + 1) found bytes
      else scanRuns (position + 1) 0 (closeRun position run found) bytes

/-- The maximal runs of at least eight zeros, in order. -/
def zeroRuns (image : Bytes) : List Span :=
  (scanRuns 0 0 [] image).reverse

/-- The two preferred spans of a list, in the order of the image. -/
def longestTwo (runs : List Span) : List Span :=
  ((runs.mergeSort Span.isPreferred).take 2).mergeSort
    (fun s t => s.start ≤ t.start)

/-- The spans before, between and after at most two runs; an empty one at
    the end stands in where there are fewer than two. -/
def spansAround (size : Nat) : List Span → List Span
  | [] => [⟨0, size⟩, ⟨size, size⟩, ⟨size, size⟩]
  | [only] => [⟨0, only.start⟩, ⟨only.stop, size⟩, ⟨size, size⟩]
  | first :: second :: _ =>
      [⟨0, first.start⟩, ⟨first.stop, second.start⟩, ⟨second.stop, size⟩]

/-- The three spans of an image that are written. -/
def pieces (splits : Bool) (image : Bytes) : List Span :=
  spansAround image.length
    (if splits then longestTwo (zeroRuns image) else [])

end Handheld.Compression
