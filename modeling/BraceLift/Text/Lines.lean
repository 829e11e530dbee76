/-
A content as lines, each with the newline that ends it.

Only `\n` ends a line. A content that does not end with a newline has
a last line without one, and an empty rest is no line, so putting the
lines one after the other gives the content back
(`flatten_splitLines`).
-/
import BraceLift.Text.Basic

namespace BraceLift.Text

/-- One more character in front of some lines: a newline is a line of
its own, any other character belongs to the line that follows it. -/
def consLine (c : Char) (lines : List Line) : List Line :=
  if c = '\n' then [c] :: lines
  else match lines with
    | [] => [[c]]
    | line :: more => (c :: line) :: more

/-- Cuts a content after each newline. -/
def splitLines (content : Text) : List Line :=
  content.foldr consLine []

@[simp] theorem splitLines_cons (c : Char) (rest : Text) :
    splitLines (c :: rest) = consLine c (splitLines rest) := rfl

@[simp] theorem consLine_newline (lines : List Line) :
    consLine '\n' lines = ['\n'] :: lines := by
  unfold consLine
  rw [if_pos rfl]

theorem consLine_nil {c : Char} (hc : c ≠ '\n') : consLine c [] = [[c]] := by
  unfold consLine
  rw [if_neg hc]

theorem consLine_cons {c : Char} (hc : c ≠ '\n') (line : Line)
    (more : List Line) :
    consLine c (line :: more) = (c :: line) :: more := by
  unfold consLine
  rw [if_neg hc]

theorem flatten_consLine (c : Char) (lines : List Line) :
    (consLine c lines).flatten = c :: lines.flatten := by
  unfold consLine
  split
  · rfl
  · cases lines <;> rfl

/-- Cutting loses nothing and adds nothing. -/
theorem flatten_splitLines (content : Text) :
    (splitLines content).flatten = content := by
  induction content with
  | nil => rfl
  | cons c rest ih => rw [splitLines_cons, flatten_consLine, ih]

end BraceLift.Text
