/-
The two changes made to captured lines.

The first line of a block is made to start with a marker, all others
lose a fixed number of leading blanks. Both touch nothing but the start
of a line, so the braces of a block stay what they were.
-/
import BraceLift.Text.Blank

namespace BraceLift.Line

/-- What follows the first `width` characters, if these are all U+0020. -/
def afterSpaces? : Nat → Line → Option Line
  | 0, line => some line
  | width + 1, ' ' :: rest => afterSpaces? width rest
  | _ + 1, _ => none

/-- Removes exactly `width` leading blanks, or none at all from a line
that has fewer. Only U+0020 counts as a blank here. -/
def outdent (width : Nat) (line : Line) : Line :=
  (afterSpaces? width line).getD line

/-- Removes the leading white space and puts the marker and a blank in
front, unless the line then starts with the marker anyway. -/
def publish (marker : Text) (line : Line) : Line :=
  let body := Text.trimStart line
  if marker.isPrefixOf body then body else marker ++ ' ' :: body

/-- The lines that have `width` leading blanks are the blanks followed
by what `afterSpaces?` gives. -/
theorem afterSpaces?_eq_some_iff (width : Nat) (line rest : Line) :
    afterSpaces? width line = some rest
      ↔ line = List.replicate width ' ' ++ rest := by
  induction width generalizing line with
  | zero => simp [afterSpaces?]
  | succ width ih =>
      match line with
      | [] => simp [afterSpaces?, List.replicate_succ]
      | c :: tail =>
          by_cases hc : c = ' '
          · subst hc
            simp [afterSpaces?, ih, List.replicate_succ]
          · simp [afterSpaces?, hc, List.replicate_succ]

end BraceLift.Line
