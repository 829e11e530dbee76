/-
A job: what to extract, from where to where, and how.

The values that a user leaves out are those of `Job.standard`. A job is
plain data; reading it from the command line, describing it in the log
and carrying it out are elsewhere.
-/
import BraceLift.File.Path
import BraceLift.Text.Decimal
import BraceLift.Text.Quoted

namespace BraceLift

/-- Everything that one run of the tool depends on besides the files. -/
structure Job where
  /-- The file the lines are read from. -/
  source : Path
  /-- The file the document is written to. -/
  output : Path
  /-- What the first line of the block contains. -/
  functionAnchor : Text
  /-- What the first line of the region after the block contains; `none`
  for no such region. -/
  tailAnchor : Option Text
  /-- How many blanks each line of the block but the first loses. -/
  dedentWidth : Nat
  /-- What the block's first line is made to start with. -/
  publicMarker : Text
  /-- Whether a block that never closes is an error. -/
  strict : Bool
  /-- Whether the log tells every step. -/
  verbose : Bool
  deriving DecidableEq

namespace Job

/-- The job of a user who asks for nothing in particular. -/
def standard : Job where
  source := .ofString "source/keyboard.rs"
  output := .ofString "alacritty_test/alacritty_extracted.rs"
  functionAnchor := "fn should_build_sequence".toList
  tailAnchor := some "fn build_sequence".toList
  dedentWidth := 4
  publicMarker := "pub".toList
  strict := false
  verbose := false

/-- Whether two jobs ask for the same, their paths being compared step
by step. -/
def agrees (a b : Job) : Bool :=
  a.source.agrees b.source && a.output.agrees b.output
    && decide ({ a with source := b.source, output := b.output } = b)

/-- The word for a truth value. -/
def truth (b : Bool) : Text :=
  if b then "true".toList else "false".toList

/-- The anchor of the region after the block, as the log shows it. -/
def describeTail : Option Text → Text
  | none => "None".toList
  | some anchor => "Some(".toList ++ anchor.quoted ++ ")".toList

/-- The job on one line, as the log shows it. -/
def describe (job : Job) : Text :=
  let fields : List (String × Text) :=
    [("source", job.source.text.quoted),
      ("output", job.output.text.quoted),
      ("function_anchor", job.functionAnchor.quoted),
      ("trailing_anchor", describeTail job.tailAnchor),
      ("dedent_width", Text.ofNat job.dedentWidth),
      ("public_marker", job.publicMarker.quoted),
      ("strict", truth job.strict),
      ("verbose", truth job.verbose)]
  let written := fields.map fun field =>
    field.1.toList ++ ": ".toList ++ field.2
  "AppConfig \x7b ".toList ++ List.intercalate ", ".toList written
    ++ " \x7d".toList

end Job

end BraceLift
