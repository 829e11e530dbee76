/-
The options of the command line and how they are spelled.

An option takes a value, raises a flag, or asks for a text instead of a
run. What can be given at most once is an `Item`: the source, each
option with a value, and each flag.
-/
import BraceLift.Text.Basic

namespace BraceLift.CommandLine

/-- The options that take a value. -/
inductive Valued where
  | output
  | functionAnchor
  | tailAnchor
  | dedentWidth
  | publicMarker
  deriving DecidableEq, Repr

/-- The options that are either given or not. -/
inductive Flag where
  | noTail
  | strict
  | verbose
  deriving DecidableEq, Repr

/-- The options that ask for a text instead of a run. -/
inductive Query where
  | help
  | version
  deriving DecidableEq, Repr

/-- Any option. -/
inductive Switch where
  | valued (v : Valued)
  | flag (f : Flag)
  | query (q : Query)
  deriving DecidableEq, Repr

/-- The long name of an option with a value. -/
def Valued.name : Valued → Text
  | .output => "output".toList
  | .functionAnchor => "function".toList
  | .tailAnchor => "trailing-from".toList
  | .dedentWidth => "dedent-width".toList
  | .publicMarker => "public-marker".toList

/-- What usage texts call the value. -/
def Valued.placeholder : Valued → Text
  | .output => "OUTPUT".toList
  | .functionAnchor => "FUNCTION_ANCHOR".toList
  | .tailAnchor => "TRAILING_ANCHOR".toList
  | .dedentWidth => "DEDENT_WIDTH".toList
  | .publicMarker => "PUBLIC_MARKER".toList

/-- The long name of a flag. -/
def Flag.name : Flag → Text
  | .noTail => "no-trailing".toList
  | .strict => "strict".toList
  | .verbose => "verbose".toList

/-- The long name of a query. -/
def Query.name : Query → Text
  | .help => "help".toList
  | .version => "version".toList

/-- The long name of an option. -/
def Switch.name : Switch → Text
  | .valued v => v.name
  | .flag f => f.name
  | .query q => q.name

/-- All options. -/
def Switch.all : List Switch :=
  [.valued .output, .valued .functionAnchor, .valued .tailAnchor,
    .flag .noTail, .valued .dedentWidth, .valued .publicMarker,
    .flag .strict, .flag .verbose, .query .help, .query .version]

/-- The option with a long name. -/
def Switch.ofName? (name : Text) : Option Switch :=
  Switch.all.find? fun switch => switch.name == name

/-- The option with a short name. -/
def Switch.ofLetter? : Char → Option Switch
  | 'o' => some (.valued .output)
  | 'v' => some (.flag .verbose)
  | 'h' => some (.query .help)
  | 'V' => some (.query .version)
  | _ => none

/-- A long name is found to be that of its option. -/
theorem Switch.ofName?_name (switch : Switch) :
    Switch.ofName? switch.name = some switch := by
  rcases switch with v | f | q
  · cases v <;> decide
  · cases f <;> decide
  · cases q <;> decide

/-- What the command line can hold once. -/
inductive Item where
  | source
  | valued (v : Valued)
  | flag (f : Flag)
  deriving DecidableEq, Repr

/-- How messages name an item. -/
def Item.shown : Item → Text
  | .source => "[SOURCE]".toList
  | .valued v =>
      "--".toList ++ v.name ++ " <".toList ++ v.placeholder ++ ">".toList
  | .flag f => "--".toList ++ f.name

end BraceLift.CommandLine
