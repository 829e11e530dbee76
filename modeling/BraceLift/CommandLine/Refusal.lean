/-
Why a command line does not lead to a run, and what is shown then.

A query for help or for the version is one of these reasons: its text
is shown in place of a run. An argument that a message repeats is shown
without what a terminal would obey.
-/
import BraceLift.CommandLine.Switch
import BraceLift.Text.Decimal
import BraceLift.Text.Terminal

namespace BraceLift.CommandLine

/-- Why there is no run. -/
inductive Refusal where
  /-- Nothing is known by this name, or one argument is too many. -/
  | unknown (argument : Text)
  /-- An option that takes no value was given one. -/
  | unwantedValue (switch : Switch) (value : Text)
  /-- The value is missing, or is empty where it must not be. -/
  | missingValue (item : Item)
  /-- The value is no number in range. -/
  | badNumber (option : Valued) (value : Text) (fault : Text.NumberFault)
  /-- The item was given before. -/
  | repeated (item : Item)
  /-- The two items exclude each other; they were given in this order. -/
  | exclusive (first second : Item)
  /-- A text was asked for. -/
  | asked (query : Query)
  deriving DecidableEq

/-- The text shown on a query for the version. -/
def versionText : Text := "extract_snippet 0.1.0\n".toList

/-- The text shown on a query for help. -/
def helpText : Text :=
  List.flatten <| List.map (fun line => line.toList ++ ['\n'])
    ["Lifts a function out of a Rust source file by brace counting and writes it, together with everything after a second anchor, to a standalone file",
      "",
      "Usage: extract_snippet [OPTIONS] [SOURCE]",
      "",
      "Arguments:",
      "  [SOURCE]  Source file to extract from [default: source/keyboard.rs]",
      "",
      "Options:",
      "  -o, --output <OUTPUT>",
      "          Destination file (parent directories are created) [default: alacritty_test/alacritty_extracted.rs]",
      "      --function <FUNCTION_ANCHOR>",
      "          Substring identifying the first line of the block to extract [default: \"fn should_build_sequence\"]",
      "      --trailing-from <TRAILING_ANCHOR>",
      "          Substring from which everything up to end of file is copied [default: \"fn build_sequence\"]",
      "      --no-trailing",
      "          Skip the trailing region entirely",
      "      --dedent-width <DEDENT_WIDTH>",
      "          Leading spaces removed from every line after the block's first line [default: 4]",
      "      --public-marker <PUBLIC_MARKER>",
      "          Token the block's first line is made to start with [default: pub]",
      "      --strict",
      "          Fail when the block never closes instead of keeping the partial block",
      "  -v, --verbose",
      "          Enable verbose logging",
      "  -h, --help",
      "          Print help",
      "  -V, --version",
      "          Print version"]

/-- The text that a query asks for. -/
def Query.answer : Query → Text
  | .help => helpText
  | .version => versionText

/-- What is wrong with a number. -/
def describeNumber : Text.NumberFault → Text
  | .empty => "cannot parse integer from empty string".toList
  | .badDigit => "invalid digit found in string".toList
  | .tooLarge => "number too large to fit in target type".toList

namespace Refusal

/-- What is shown: the text asked for, or what is wrong. -/
def message : Refusal → Text
  | .asked query => query.answer
  | .unknown argument =>
      "error: unexpected argument '".toList ++ argument.visible
        ++ "' found".toList
  | .unwantedValue switch value =>
      "error: unexpected value '".toList ++ value.visible
        ++ "' for '--".toList ++ switch.name ++ "' found; no more were expected".toList
  | .missingValue item =>
      "error: a value is required for '".toList ++ item.shown
        ++ "' but none was supplied".toList
  | .badNumber option value fault =>
      "error: invalid value '".toList ++ value.visible ++ "' for '".toList
        ++ (Item.valued option).shown ++ "': ".toList
        ++ describeNumber fault
  | .repeated item =>
      "error: the argument '".toList ++ item.shown
        ++ "' cannot be used multiple times".toList
  | .exclusive first second =>
      "error: the argument '".toList ++ first.shown
        ++ "' cannot be used with '".toList ++ second.shown ++ "'".toList

/-- The first line of what is shown. -/
def headline (refusal : Refusal) : Text :=
  refusal.message.takeWhile (· != '\n')

end Refusal

end BraceLift.CommandLine
