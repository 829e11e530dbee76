/-
One rule of a filter, and how it is written.

A rule has a target, a reach and a threshold. It speaks about the
emitters whose name starts with its target; of their records about all,
about those that carry a certain field, or about none, because a rule
for the records of a span finds none in this log.

Written, a rule is a bare threshold, a bare target, or a target with
its threshold after an equals sign; the target may be followed by a
span in square brackets, and the span by a field in braces. White space
around a rule does not count when its parts are looked for
(`Reading.shape`), but the parts are cut from the rule as it is written
(`Reading.written`): a blank at its end belongs to its last part, a
blank in front moves every cut.
-/
import BraceLift.Log.Record
import BraceLift.Text.Alphanumeric
import BraceLift.Text.Blank
import BraceLift.Text.Decimal

namespace BraceLift

-- ============================================================ thresholds

/-- How much a record must matter to be shown, from nothing at all to
everything. -/
inductive Threshold where
  | off
  | error
  | warn
  | info
  | debug
  | trace
  deriving DecidableEq, Repr

namespace Threshold

/-- The thresholds in the order of their numbers. -/
def all : List Threshold := [.off, .error, .warn, .info, .debug, .trace]

/-- The name of a threshold. -/
def name : Threshold → Text
  | .off => "off".toList
  | .error => "error".toList
  | .warn => "warn".toList
  | .info => "info".toList
  | .debug => "debug".toList
  | .trace => "trace".toList

/-- Reads a threshold, given by its number or by its name in either
case. -/
def ofText? (t : Text) : Option Threshold :=
  match Text.readNat all.length t with
  | .ok n => all[n]?
  | .error _ => all.find? (·.name = t.map Char.toLower)

/-- Whether records of a severity are shown. -/
def admits : Threshold → Severity → Bool
  | .off, _ | .error, _ => false
  | .warn, severity | .info, severity => severity == .warn
  | .debug, _ | .trace, _ => true

end Threshold

-- ================================================================= rules

/-- Which records of its emitters a rule speaks about. -/
inductive Reach where
  /-- Every record. -/
  | every
  /-- The records that carry a field. -/
  | carrying (field : Text)
  /-- The records of a span, of which this log has none. -/
  | inSpan
  deriving DecidableEq

namespace Reach

/-- The fields that every record carries. -/
def recordFields : List Text :=
  ["message".toList, "log.target".toList, "log.module_path".toList,
    "log.file".toList, "log.line".toList]

/-- Whether records are within reach. -/
def holds : Reach → Bool
  | .every => true
  | .carrying field => recordFields.contains field
  | .inSpan => false

/-- Whether a rule of the first reach goes before one of the second with
the same target: one that names a field does, and of two the one whose
field is later in the order of code points. -/
def precedes : Reach → Reach → Bool
  | .carrying first, .carrying second => decide (second < first)
  | .carrying _, _ => true
  | _, _ => false

end Reach

/-- A rule of a filter. -/
structure FilterRule where
  target : Text
  reach : Reach
  threshold : Threshold
  deriving DecidableEq

namespace FilterRule

/-- The rule with one threshold for every emitter. -/
def uniform (threshold : Threshold) : FilterRule := ⟨[], .every, threshold⟩

/-- Whether a rule speaks about an emitter. -/
def concerns (rule : FilterRule) (emitter : Emitter) : Bool :=
  rule.target.isPrefixOf emitter.target && rule.reach.holds

/-- Whether the first of two rules about one emitter goes before the
second whatever their order: it has the longer target, or the same
target and the reach that goes before. -/
def precedes (first second : FilterRule) : Bool :=
  second.target.length < first.target.length
    || (second.target.length == first.target.length
      && first.reach.precedes second.reach)

end FilterRule

-- =============================================================== reading

/-- What is left of a rule, as it is written and without the white
space around it. -/
structure Reading where
  written : Text
  shape : Text

namespace Reading

/-- The whole of a rule. -/
def ofText (t : Text) : Reading := ⟨t, t.trim⟩

/-- The part before the first character of a kind, and that character
with what follows it if there is one. -/
def cutBefore (here : Reading) (stops : Char → Bool) :
    Text × Option (Char × Reading) :=
  let before := here.shape.takeWhile (!stops ·)
  let cut := Text.cutAtByte (Text.byteCount before) here.written
  (cut.1,
    match here.shape.dropWhile (!stops ·) with
    | [] => none
    | c :: rest => some (c, ⟨(Text.cutAtByte c.utf8Size cut.2).2, rest⟩))

/-- The first character with what follows it, if there is one. -/
def first? (here : Reading) : Option (Char × Reading) :=
  (here.cutBefore fun _ => true).2

end Reading

namespace FilterRule

/-- Whether a target can start with a character. -/
def opensTarget (c : Char) : Bool :=
  c == '-' || c == ':' || c == '_' || Text.isAlphanumeric c

/-- Reads the threshold after an equals sign; none there lets everything
through. -/
def readThreshold? (t : Text) : Option Threshold :=
  if t = [] then some .trace else Threshold.ofText? t

/-- Reads what follows a span: an equals sign with a threshold, or
nothing. -/
def readAfterSpan? (target : Text) (reach : Reach) (here : Reading) :
    Option FilterRule :=
  match here.first? with
  | none => some ⟨target, reach, .trace⟩
  | some (c, next) =>
      if c = '=' then (readThreshold? next.written).map (⟨target, reach, ·⟩)
      else none

/-- The reach of a rule with a field: a rule that names a span or gives
the field a value asks for the records of a span. -/
def fieldReach (span field : Text) : Reach :=
  if span = [] ∧ '=' ∉ field then .carrying field else .inSpan

/-- Reads a span after its opening bracket, and what follows it. -/
def readSpan? (target : Text) (here : Reading) : Option FilterRule :=
  match here.cutBefore (fun c => c == ']' || c == '\x7b') with
  | (_, none) => none
  | (span, some (c, next)) =>
      if c = ']' then readAfterSpan? target .inSpan next
      else match next.cutBefore (· == '\x7d') with
        | (_, none) => none
        | (field, some (_, after)) =>
            match after.first? with
            | none => none
            | some (close, rest) =>
                if field ≠ [] ∧ close = ']' then
                  readAfterSpan? target (fieldReach span field) rest
                else none

/-- Reads a rule of one word, a threshold or a target. -/
def ofWord (t : Text) : FilterRule :=
  match Threshold.ofText? t with
  | some threshold => uniform threshold
  | none => ⟨t, .every, .trace⟩

/-- Reads a rule. -/
def ofText? (t : Text) : Option FilterRule :=
  let start := Reading.ofText t
  match start.first? with
  | none => none
  | some (c, next) =>
      if c = '[' then readSpan? [] next
      else if ¬ opensTarget c then none
      else match start.cutBefore (fun c => c == '=' || c == '[') with
        | (_, none) => some (ofWord t)
        | (target, some (c, next)) =>
            if c = '=' then
              (readThreshold? next.written).map (⟨target, .every, ·⟩)
            else readSpan? target next

end FilterRule

end BraceLift
