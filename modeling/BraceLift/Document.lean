/-
Documents: a preamble, a block, an empty line and the region after it.

The block decides whether there is a document at all. A block that
never closes is kept with a warning, or refused by a strict layout; a
region whose anchor is missing is left empty with a warning, while any
other error of the region is final.
-/
import BraceLift.Block
import BraceLift.Tail

namespace BraceLift

/-- What goes into a document. -/
structure Layout where
  /-- The texts written first. -/
  preamble : List Text
  block : Region
  /-- What follows the empty line, if anything does. -/
  tail : Option Region
  /-- Whether a block that never closes is refused. -/
  strict : Bool

/-- A finished document, and how much of it came from where. -/
structure Document where
  text : Text
  blockEnding : Ending
  blockLines : Nat
  tailLines : Nat
  deriving DecidableEq

namespace Layout

/-- The texts at the top of every document. -/
def standardPreamble : List Text :=
  ["// Extracted logic from Alacritty's keyboard.rs\n".toList,
    "use std::borrow::Cow;\n".toList,
    "use crate::alacritty_mocks::*;\n\n".toList]

/-- The layout that a job asks for. -/
def ofJob (job : Job) : Layout where
  preamble := standardPreamble
  block :=
    (Block.mk job.functionAnchor ⟨job.dedentWidth, job.publicMarker⟩).extract
  tail := job.tailAnchor.map fun anchor => (Tail.standard anchor).extract
  strict := job.strict

/-- The layout of the standard job. -/
def standard : Layout := ofJob Job.standard

/-- The lines of a block as far as the layout accepts them. -/
def acceptBlock (layout : Layout) (block : Excerpt) :
    Logged (Except ExcerptError (List Line)) :=
  if layout.strict then .quiet block.closedLines
  else match block.ending with
    | .closed => .quiet (.ok block.lines)
    | .truncated =>
        .noting (.keptOpen block.anchor block.size) (.ok block.lines)

/-- The lines after the empty line. -/
def tailLines (layout : Layout) (lines : List Line) :
    Logged (Except ExcerptError (List Line)) :=
  match layout.tail with
  | none => .quiet (.ok [])
  | some region =>
      (region lines).andThen fun
        | .ok tail => .quiet (.ok tail.lines)
        | .error (.anchorNotFound anchor) =>
            .noting (.tailMissing anchor) (.ok [])
        | .error e => .quiet (.error e)

/-- The document with these block lines and these lines after them. -/
def document (layout : Layout) (ending : Ending)
    (blockLines tailLines : List Line) : Document where
  text :=
    layout.preamble.flatten ++ blockLines.flatten ++ '\n' :: tailLines.flatten
  blockEnding := ending
  blockLines := blockLines.length
  tailLines := tailLines.length

/-- Lays out the document that some lines give rise to. -/
def compose (layout : Layout) (lines : List Line) :
    Logged (Except ExcerptError Document) :=
  (layout.block lines).andThen fun
    | .error e => .quiet (.error e)
    | .ok block =>
        (layout.acceptBlock block).andThen fun
          | .error e => .quiet (.error e)
          | .ok blockLines =>
              (layout.tailLines lines).andThen fun
                | .error e => .quiet (.error e)
                | .ok tailLines =>
                    .quiet
                      (.ok (layout.document block.ending blockLines tailLines))

end Layout

end BraceLift
