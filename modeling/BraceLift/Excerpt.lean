/-
Excerpts: lines lifted out of a text at an anchor.

An excerpt says whether its end was reached (`Ending.closed`) or the
input ran out first (`Ending.truncated`). Whatever turns lines into an
excerpt or an error, leaving records in the log, is a `Region`; a
document is laid out from any two of them.
-/
import BraceLift.Log.Record

namespace BraceLift

/-- How an excerpt ends. -/
inductive Ending where
  /-- Its end was reached. -/
  | closed
  /-- The input ran out before. -/
  | truncated
  deriving DecidableEq, Repr

/-- Lines lifted out at an anchor, in their order. -/
structure Excerpt where
  anchor : Text
  lines : List Line
  ending : Ending
  /-- The nesting depth at the end; 0 where no depth is kept. -/
  depth : Int
  deriving DecidableEq

/-- Why there is no excerpt, or no complete one. -/
inductive ExcerptError where
  /-- No line contains the anchor. -/
  | anchorNotFound (anchor : Text)
  /-- The block never closes; so many lines were read. -/
  | unterminated (anchor : Text) (captured : Nat)
  /-- The empty text anchors nothing. -/
  | emptyAnchor
  deriving DecidableEq

/-- The wording of an error. -/
def ExcerptError.message : ExcerptError → Text
  | .anchorNotFound anchor =>
      "Could not find anchor '".toList ++ anchor ++ "'".toList
  | .unterminated anchor captured =>
      "Block starting at '".toList ++ anchor ++ "' never closes (".toList
        ++ Text.ofNat captured
        ++ " line(s) captured before end of input)".toList
  | .emptyAnchor => "Anchor must not be empty".toList

namespace Excerpt

/-- An excerpt that keeps no depth is complete. -/
def complete (anchor : Text) (lines : List Line) : Excerpt :=
  ⟨anchor, lines, .closed, 0⟩

/-- The lines one after the other. -/
def text (e : Excerpt) : Text :=
  e.lines.flatten

/-- The number of lines. -/
def size (e : Excerpt) : Nat :=
  e.lines.length

/-- Whether the input ran out first. -/
def isTruncated (e : Excerpt) : Bool :=
  e.ending = .truncated

/-- The lines of a closed excerpt; a truncated one is an error. -/
def closedLines (e : Excerpt) : Except ExcerptError (List Line) :=
  match e.ending with
  | .closed => .ok e.lines
  | .truncated => .error (.unterminated e.anchor e.size)

end Excerpt

/-- What lifts an excerpt out of lines. -/
abbrev Region := List Line → Logged (Except ExcerptError Excerpt)

end BraceLift
