/-
Blocks delimited by braces.

A block starts with the first line that contains the anchor and ends
with the line after which at least one opening brace has been seen and
as many braces have been closed as were opened. The depth is taken from
the lines as they were read and looked at only where a line ends; until
the first opening brace it may well be negative.

`BlockScan` takes the lines one at a time; `Block.extract` runs it over
a list and stops where the block closes.
-/
import BraceLift.BraceTally
import BraceLift.Excerpt
import BraceLift.Line

namespace BraceLift

/-- How captured lines are changed. -/
structure BlockStyle where
  /-- How many blanks each line but the first loses. -/
  dedentWidth : Nat
  /-- What the first line is made to start with. -/
  publicMarker : Text
  deriving DecidableEq

/-- The style of a user who asks for no other. -/
def BlockStyle.standard : BlockStyle :=
  ⟨Job.standard.dedentWidth, Job.standard.publicMarker⟩

-- =============================================================== capture

/-- What has been captured of a block. -/
structure Capture where
  /-- The captured lines, changed according to the style, newest first. -/
  recent : List Line
  /-- Opening braces less closing braces of the lines as read. -/
  depth : Int
  /-- Whether any of them has an opening brace. -/
  opened : Bool
  deriving DecidableEq

namespace Capture

/-- Nothing captured yet. -/
def empty : Capture := ⟨[], 0, false⟩

/-- The captured lines, in the order in which they were captured. -/
def lines (held : Capture) : List Line :=
  held.recent.reverse

/-- The number of captured lines. -/
def size (held : Capture) : Nat :=
  held.recent.length

/-- Captures a line, `shown` being its changed form. -/
def add (held : Capture) (shown raw : Line) : Capture :=
  let tally := BraceTally.ofText raw
  ⟨shown :: held.recent, held.depth + tally.net,
    held.opened || tally.hasOpening⟩

@[simp] theorem lines_add (held : Capture) (shown raw : Line) :
    (held.add shown raw).lines = held.lines ++ [shown] :=
  List.reverse_cons

/-- Whether the block has been opened and is closed again. -/
def isBalanced (held : Capture) : Bool :=
  held.opened && decide (held.depth ≤ 0)

end Capture

-- ================================================================== scan

/-- How far a scan is. -/
inductive Progress where
  /-- No line contained the anchor. -/
  | searching
  /-- The block has started and is open. -/
  | capturing (held : Capture)
  /-- The block has closed. -/
  | closed (held : Capture)
  deriving DecidableEq

/-- What has been captured so far. -/
def Progress.held : Progress → Capture
  | .searching => .empty
  | .capturing held | .closed held => held

/-- Whether the block has closed. -/
def Progress.isClosed : Progress → Bool
  | .closed _ => true
  | _ => false

/-- How far a scan is, without what it holds. -/
inductive Phase where
  | searching
  | capturing
  | closed
  deriving DecidableEq, Repr

/-- The phase of a scan that is so far. -/
def Progress.phase : Progress → Phase
  | .searching => .searching
  | .capturing _ => .capturing
  | .closed _ => .closed

/-- The phase of a scan once this is captured. -/
def Capture.phase (held : Capture) : Phase :=
  if held.isBalanced then .closed else .capturing

/-- A scan for the block at an anchor. -/
structure BlockScan where
  anchor : Text
  style : BlockStyle
  progress : Progress
  /-- The empty text anchors nothing. -/
  anchor_ne_nil : anchor ≠ []

namespace BlockScan

/-- A scan that has seen no line. -/
def start (anchor : Text) (style : BlockStyle) :
    Except ExcerptError BlockScan :=
  if h : anchor = [] then .error .emptyAnchor
  else .ok ⟨anchor, style, .searching, h⟩

/-- The nesting depth after the lines seen so far. -/
def depth (scan : BlockScan) : Int :=
  scan.progress.held.depth

/-- The scan after a captured line: closed if the block is balanced. -/
def settle (scan : BlockScan) (held : Capture) : Logged BlockScan :=
  if held.isBalanced then
    .noting (.closed scan.anchor held.size)
      { scan with progress := .closed held }
  else .quiet { scan with progress := .capturing held }

/-- Takes one more line. -/
def push (scan : BlockScan) (line : Line) : Logged BlockScan :=
  match scan.progress with
  | .closed _ => .quiet scan
  | .capturing held =>
      scan.settle (held.add (line.outdent scan.style.dedentWidth) line)
  | .searching =>
      if scan.anchor.occursIn line then
        (Logged.noting (.matched scan.anchor line) ()).andThen fun _ =>
          scan.settle
            (Capture.empty.add (line.publish scan.style.publicMarker) line)
      else .quiet scan

/-- What a push answers to the one who pushes. A closed scan does not
look at the line. -/
def answer (scan : BlockScan) (line : Line) : Phase :=
  match scan.progress with
  | .closed _ => .closed
  | .capturing held =>
      (held.add (line.outdent scan.style.dedentWidth) line).phase
  | .searching =>
      if scan.anchor.occursIn line then
        (Capture.empty.add (line.publish scan.style.publicMarker) line).phase
      else .searching

/-- Takes all lines, whether the block has closed or not. -/
def pushAll (scan : BlockScan) : List Line → Logged BlockScan
  | [] => .quiet scan
  | line :: rest => (scan.push line).andThen fun next => next.pushAll rest

/-- Takes lines until the block closes. -/
def pushUntilClosed (scan : BlockScan) : List Line → Logged BlockScan
  | [] => .quiet scan
  | line :: rest =>
      (scan.push line).andThen fun next =>
        if next.progress.isClosed then .quiet next
        else next.pushUntilClosed rest

/-- What the lines taken so far amount to. -/
def finish (scan : BlockScan) : Logged (Except ExcerptError Excerpt) :=
  match scan.progress with
  | .searching => .quiet (.error (.anchorNotFound scan.anchor))
  | .capturing held =>
      .noting (.stillOpen scan.anchor held.depth)
        (.ok ⟨scan.anchor, held.lines, .truncated, held.depth⟩)
  | .closed held =>
      .quiet (.ok ⟨scan.anchor, held.lines, .closed, held.depth⟩)

end BlockScan

-- ================================================================= block

/-- The block at an anchor. -/
structure Block where
  anchor : Text
  style : BlockStyle
  deriving DecidableEq

namespace Block

/-- The block at an anchor, in the standard style. -/
def standard (anchor : Text) : Block := ⟨anchor, .standard⟩

/-- Lifts the block out of lines. -/
def extract (block : Block) : Region := fun lines =>
  match BlockScan.start block.anchor block.style with
  | .error e => .quiet (.error e)
  | .ok scan => (scan.pushUntilClosed lines).andThen BlockScan.finish

end Block

end BraceLift
