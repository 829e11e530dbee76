/-
The wording of log records.
-/
import BraceLift.Excerpt
import BraceLift.Text.Blank
import BraceLift.Text.Terminal

namespace BraceLift.Record

/-- What the log says about a record. -/
def message : Record → Text
  | .started job => "Configuration: ".toList ++ job.describe
  | .matched anchor line =>
      "Anchor '".toList ++ anchor ++ "' matched: ".toList ++ line.trimEnd
  | .closed anchor lines =>
      "Block for '".toList ++ anchor ++ "' closed after ".toList
        ++ Text.ofNat lines ++ " line(s)".toList
  | .stillOpen anchor depth =>
      "Input ended with block for '".toList ++ anchor
        ++ "' still open at depth ".toList ++ Text.ofInt depth
  | .keptOpen anchor lines =>
      "Block for '".toList ++ anchor ++ "' never closed; keeping ".toList
        ++ Text.ofNat lines ++ " line(s) up to end of input".toList
  | .tailTaken anchor lineNumber kept dropped =>
      "Trailing region from '".toList ++ anchor ++ "' (line ".toList
        ++ Text.ofNat lineNumber ++ "): ".toList ++ Text.ofNat kept
        ++ " line(s) kept, ".toList ++ Text.ofNat dropped
        ++ " dropped".toList
  | .tailMissing anchor =>
      (ExcerptError.anchorNotFound anchor).message
        ++ "; trailing region left empty".toList
  | .wrote blockLines tailLines output =>
      "Wrote ".toList ++ Text.ofNat blockLines ++ " block line(s) and ".toList
        ++ Text.ofNat tailLines ++ " trailing line(s) to ".toList
        ++ output.text

/-- The record as a line of the log: its severity, a blank, its message
with what a terminal would obey spelled out, and a newline. -/
def logLine (r : Record) : Text :=
  r.severity.name ++ ' ' :: r.message.disarmed ++ ['\n']

end BraceLift.Record
