/-
Settings: what an accepted argument does to a job.

A job is read off the settings by starting from the standard job and
letting each setting change its field. No item is set twice, so the
order of the settings does not matter to the job; it does to the
message when two of them exclude each other.
-/
import BraceLift.CommandLine.Refusal
import BraceLift.Job

namespace BraceLift.CommandLine

/-- An argument with its value read. -/
inductive Setting where
  | source (path : Path)
  | output (path : Path)
  | functionAnchor (anchor : Text)
  | tailAnchor (anchor : Text)
  | dedentWidth (width : Nat)
  | publicMarker (marker : Text)
  | flag (f : Flag)
  deriving DecidableEq

/-- Numbers on the command line stay below this bound. -/
def numberBound : Nat := Nat.pow 2 64

namespace Setting

/-- What the setting sets. -/
def item : Setting → Item
  | .source _ => .source
  | .output _ => .valued .output
  | .functionAnchor _ => .valued .functionAnchor
  | .tailAnchor _ => .valued .tailAnchor
  | .dedentWidth _ => .valued .dedentWidth
  | .publicMarker _ => .valued .publicMarker
  | .flag f => .flag f

/-- Reads a path, which must not be empty. -/
def readPath (item : Item) (value : Text) : Except Refusal Path :=
  if value = [] then .error (.missingValue item) else .ok ⟨value⟩

/-- Reads the value of an option. -/
def ofValue (option : Valued) (value : Text) : Except Refusal Setting :=
  match option with
  | .output => (readPath (.valued .output) value).map .output
  | .functionAnchor => .ok (.functionAnchor value)
  | .tailAnchor => .ok (.tailAnchor value)
  | .publicMarker => .ok (.publicMarker value)
  | .dedentWidth =>
      match Text.readNat numberBound value with
      | .ok width => .ok (.dedentWidth width)
      | .error fault => .error (.badNumber .dedentWidth value fault)

/-- Reads the source. -/
def ofSource (value : Text) : Except Refusal Setting :=
  (readPath .source value).map .source

/-- The job with the setting made. -/
def apply (job : Job) : Setting → Job
  | .source path => { job with source := path }
  | .output path => { job with output := path }
  | .functionAnchor anchor => { job with functionAnchor := anchor }
  | .tailAnchor anchor => { job with tailAnchor := some anchor }
  | .dedentWidth width => { job with dedentWidth := width }
  | .publicMarker marker => { job with publicMarker := marker }
  | .flag .noTail => { job with tailAnchor := none }
  | .flag .strict => { job with strict := true }
  | .flag .verbose => { job with verbose := true }

/-- The job that some settings describe. -/
def job (settings : List Setting) : Job :=
  settings.foldl apply Job.standard

end Setting

/-- The items that exclude each other: a region that is switched off and
one whose anchor is given. -/
def excludes (a b : Item) : Bool :=
  (a == .flag .noTail && b == .valued .tailAnchor)
    || (a == .valued .tailAnchor && b == .flag .noTail)

/-- The first two items, in their order, that exclude each other. -/
def conflict? : List Item → Option (Item × Item)
  | [] => none
  | item :: rest =>
      match rest.find? (excludes item) with
      | some other => some (item, other)
      | none => conflict? rest

end BraceLift.CommandLine
