/-
Counting braces.

A line is not tokenized: a brace inside a string or a comment counts
like any other. What a line does to the nesting depth is its number of
opening braces less its number of closing ones (`net`), and counts of
two texts add up (`ofText_append`).
-/
import BraceLift.Text.Basic

namespace BraceLift

/-- The number of opening and of closing braces in a text. -/
structure BraceTally where
  opening : Nat
  closing : Nat
  deriving DecidableEq, Repr

namespace BraceTally

/-- The brace that opens a block. -/
def opener : Char := '\x7b'

/-- The brace that closes a block. -/
def closer : Char := '\x7d'

/-- Counts one more character. -/
def add (tally : BraceTally) (c : Char) : BraceTally :=
  if c = opener then { tally with opening := tally.opening + 1 }
  else if c = closer then { tally with closing := tally.closing + 1 }
  else tally

/-- The braces of a text. -/
def ofText (t : Text) : BraceTally :=
  t.foldl add ⟨0, 0⟩

/-- What the text adds to the nesting depth. -/
def net (tally : BraceTally) : Int :=
  tally.opening - tally.closing

/-- Whether there is an opening brace. -/
def hasOpening (tally : BraceTally) : Bool :=
  0 < tally.opening

private theorem foldl_add (t : Text) (tally : BraceTally) :
    t.foldl add tally
      = ⟨tally.opening + t.count opener, tally.closing + t.count closer⟩ := by
  induction t generalizing tally with
  | nil => rfl
  | cons c rest ih =>
      rw [List.foldl_cons, ih]
      unfold add
      by_cases ho : c = opener
      · have hc : c ≠ closer := by subst ho; decide
        simp [ho, show opener ≠ closer by decide, Nat.add_comm, Nat.add_left_comm]
      · by_cases hc : c = closer
        · simp [hc, show closer ≠ opener by decide, Nat.add_comm,
            Nat.add_left_comm]
        · simp [ho, hc]

/-- Each count is the number of times its brace occurs. -/
theorem ofText_eq_counts (t : Text) :
    ofText t = ⟨t.count opener, t.count closer⟩ := by
  simp [ofText, foldl_add]

/-- The counts of two texts, one after the other, add up. -/
theorem ofText_append (s t : Text) :
    ofText (s ++ t)
      = ⟨(ofText s).opening + (ofText t).opening,
          (ofText s).closing + (ofText t).closing⟩ := by
  simp [ofText_eq_counts]

end BraceTally

end BraceLift
