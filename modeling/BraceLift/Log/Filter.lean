/-
Which records are shown.

A filter is a list of rules. Of the rules that speak about an emitter
one decides: the rule with the longest target, of two with the same
target and reach the later one. An emitter that no rule speaks about is
silent.

A filter is written as rules between commas. A setting with a rule that
cannot be read counts as no setting.
-/
import BraceLift.Log.Rule

namespace BraceLift

/-- Which records are shown. -/
structure Filter where
  rules : List FilterRule
  deriving DecidableEq

namespace Filter

/-- The filter with one threshold for every emitter. -/
def uniform (threshold : Threshold) : Filter := ⟨[.uniform threshold]⟩

/-- Reads a filter; one that names nothing shows errors only. -/
def ofText? (t : Text) : Option Filter :=
  match (t.splitOn ',').filter (· ≠ []) with
  | [] => some (uniform .error)
  | pieces => (pieces.mapM FilterRule.ofText?).map Filter.mk

/-- The filter of a run: the setting if there is one that can be read,
else warnings, or everything in a verbose run. -/
def ofSetting (setting : Option Text) (verbose : Bool) : Filter :=
  (setting.bind ofText?).getD (uniform (if verbose then .debug else .warn))

/-- Of two rules about one emitter the one that decides. -/
def prefer (earlier : Option FilterRule) (later : FilterRule) :
    Option FilterRule :=
  match earlier with
  | none => some later
  | some rule => if rule.precedes later then some rule else some later

/-- The rule that decides about an emitter. -/
def ruleFor? (filter : Filter) (emitter : Emitter) : Option FilterRule :=
  (filter.rules.filter (·.concerns emitter)).foldl prefer none

/-- Whether a record is shown. -/
def admits (filter : Filter) (record : Record) : Bool :=
  match filter.ruleFor? record.emitter with
  | none => false
  | some rule => rule.threshold.admits record.severity

end Filter

end BraceLift
