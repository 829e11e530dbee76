/-
White space, and trimming it.

The class is the one that Unicode calls `White_Space`; it is wider than
the six characters of ASCII, and trimming by the narrow class would
change which line an anchor's marker lands on.
-/
import BraceLift.Text.Basic

namespace BraceLift.Text

/-- The code points with the property `White_Space`. -/
def isBlank (c : Char) : Bool :=
  let n := c.toNat
  (0x9 ≤ n && n ≤ 0xD) || n == 0x20 || n == 0x85 || n == 0xA0 || n == 0x1680
    || (0x2000 ≤ n && n ≤ 0x200A) || n == 0x2028 || n == 0x2029
    || n == 0x202F || n == 0x205F || n == 0x3000

/-- The text without its leading white space. -/
def trimStart (t : Text) : Text :=
  t.dropWhile isBlank

/-- The text without its trailing white space. -/
def trimEnd (t : Text) : Text :=
  (t.reverse.dropWhile isBlank).reverse

/-- The text without white space at either end. -/
def trim (t : Text) : Text :=
  trimEnd (trimStart t)

/-- Trimming in front takes white space only, and leaves none there. -/
theorem trimStart_split (t : Text) :
    ∃ blanks, t = blanks ++ t.trimStart
      ∧ (∀ c ∈ blanks, isBlank c = true)
      ∧ ∀ c, t.trimStart.head? = some c → isBlank c = false := by
  refine ⟨t.takeWhile isBlank, List.takeWhile_append_dropWhile.symm, ?_, ?_⟩
  · intro c hc
    exact List.all_eq_true.1 List.all_takeWhile c hc
  · intro c hc
    have hhead := List.head?_dropWhile_not isBlank t
    rw [trimStart] at hc
    rw [hc] at hhead
    simpa using hhead

/-- A text that does not start with white space has none to lose there. -/
theorem trimStart_eq_self {t : Text}
    (h : ∀ c, t.head? = some c → isBlank c = false) : trimStart t = t := by
  unfold trimStart
  cases t with
  | nil => rfl
  | cons c rest => rw [List.dropWhile_cons_of_neg (by simp [h c rfl])]

/-- Trimming behind takes white space only, and leaves none there. -/
theorem trimEnd_split (t : Text) :
    ∃ blanks, t = t.trimEnd ++ blanks
      ∧ (∀ c ∈ blanks, isBlank c = true)
      ∧ ∀ c, t.trimEnd.getLast? = some c → isBlank c = false := by
  obtain ⟨blanks, hsplit, hblank, hword⟩ := trimStart_split t.reverse
  refine ⟨blanks.reverse, ?_, ?_, ?_⟩
  · have hback := congrArg List.reverse hsplit
    rwa [List.reverse_reverse, List.reverse_append] at hback
  · intro c hc
    exact hblank c (List.mem_reverse.1 hc)
  · intro c hc
    rw [trimEnd, List.getLast?_reverse] at hc
    exact hword c hc

end BraceLift.Text
