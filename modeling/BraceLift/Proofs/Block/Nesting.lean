/-
The nesting depth of raw lines, and where it first returns to zero.

Nothing here runs a scan. The depth of some lines is read off their
text, `balances` says that an opening brace stands in it and that no
more are open than were closed, and `closing?` is the first line after
which that holds. The scan is tied to these three in Scan.lean.

Depth and opening are read off the lines put together, so what one more
line does to them is the tally of two texts, one after the other
(`nesting_snoc`, `opens_snoc`). A line that is added behind the closing
line moves nothing (`closing?_snoc`).
-/
import Mathlib.Data.List.Find
import BraceLift.Block

namespace BraceLift

namespace BraceTally

-- ================================================== tallies of two texts

/-- The depths of two texts, one after the other, add up. -/
theorem net_append (s t : Text) :
    (ofText (s ++ t)).net = (ofText s).net + (ofText t).net := by
  rw [ofText_append]
  simp only [net]
  omega

/-- Two texts have an opening brace if one of them has. -/
theorem hasOpening_append (s t : Text) :
    (ofText (s ++ t)).hasOpening
      = ((ofText s).hasOpening || (ofText t).hasOpening) := by
  rw [ofText_append]
  simp only [hasOpening]
  rw [← Bool.decide_or]
  refine decide_eq_decide.2 ?_
  omega

/-- An opening brace is counted if and only if it is there. -/
theorem hasOpening_iff (t : Text) :
    (ofText t).hasOpening = true ↔ opener ∈ t := by
  rw [ofText_eq_counts]
  simp only [hasOpening, decide_eq_true_eq]
  exact List.count_pos_iff

end BraceTally

namespace Block

-- ======================================================= lines together

/-- What some lines, one after the other, add to the nesting depth. -/
def nesting (raws : List Line) : Int :=
  (BraceTally.ofText raws.flatten).net

/-- Whether some line has an opening brace. -/
def opens (raws : List Line) : Bool :=
  (BraceTally.ofText raws.flatten).hasOpening

/-- Whether the lines open a block and leave none open. -/
def balances (raws : List Line) : Bool :=
  opens raws && decide (nesting raws ≤ 0)

/-- The index of the first line after which the lines balance. -/
def closing? (raws : List Line) : Option Nat :=
  (List.range raws.length).find? fun k => balances (raws.take (k + 1))

@[simp] theorem nesting_nil : nesting [] = 0 := rfl

@[simp] theorem opens_nil : opens [] = false := rfl

/-- One more line adds its own depth. -/
theorem nesting_snoc (raws : List Line) (raw : Line) :
    nesting (raws ++ [raw]) = nesting raws + (BraceTally.ofText raw).net := by
  unfold nesting
  rw [List.flatten_append, BraceTally.net_append, List.flatten_singleton]

/-- One more line opens if it has an opening brace. -/
theorem opens_snoc (raws : List Line) (raw : Line) :
    opens (raws ++ [raw])
      = (opens raws || (BraceTally.ofText raw).hasOpening) := by
  unfold opens
  rw [List.flatten_append, BraceTally.hasOpening_append,
    List.flatten_singleton]

/-- The depth as counts: opening braces less closing ones. -/
theorem nesting_eq_counts (raws : List Line) :
    nesting raws
      = (raws.flatten.count BraceTally.opener : Int)
        - raws.flatten.count BraceTally.closer := by
  unfold nesting
  rw [BraceTally.ofText_eq_counts]
  rfl

/-- Lines open if an opening brace stands in one of them. -/
theorem opens_iff (raws : List Line) :
    opens raws = true ↔ ∃ raw ∈ raws, BraceTally.opener ∈ raw := by
  unfold opens
  rw [BraceTally.hasOpening_iff, List.mem_flatten]

-- ========================================================== the closing

/-- The closing line is inside, balances, and is the first that does. -/
theorem closing?_eq_some_iff (raws : List Line) (k : Nat) :
    closing? raws = some k
      ↔ k < raws.length ∧ balances (raws.take (k + 1)) = true
        ∧ ∀ j, j < k → balances (raws.take (j + 1)) = false := by
  unfold closing?
  rw [List.find?_range_eq_some, List.mem_range]
  constructor
  · intro hall
    obtain ⟨hbal, hk, hfirst⟩ := hall
    exact ⟨hk, hbal, fun j hj => by simpa using hfirst j hj⟩
  · intro hall
    obtain ⟨hk, hbal, hfirst⟩ := hall
    exact ⟨hbal, hk, fun j hj => by simpa using hfirst j hj⟩

/-- No closing line: the lines balance after none of them. -/
theorem closing?_eq_none_iff (raws : List Line) :
    closing? raws = none
      ↔ ∀ k, k < raws.length → balances (raws.take (k + 1)) = false := by
  unfold closing?
  rw [List.find?_range_eq_none]
  constructor
  · intro h k hk
    simpa using h k hk
  · intro h k hk
    simpa using h k hk

/-- One more line closes what was still open, if the lines then balance,
and a block that has closed stays closed where it was. -/
theorem closing?_snoc (raws : List Line) (raw : Line) :
    closing? (raws ++ [raw])
      = (closing? raws).or
          (if balances (raws ++ [raw]) then some raws.length else none) := by
  have hold : ∀ k ∈ List.range raws.length,
      balances ((raws ++ [raw]).take (k + 1))
        = balances (raws.take (k + 1)) := by
    intro k hk
    rw [List.take_append_of_le_length (List.mem_range.1 hk)]
  have hnew : (raws ++ [raw]).take (raws.length + 1) = raws ++ [raw] :=
    List.take_of_length_le (by simp)
  unfold closing?
  rw [List.length_append, List.length_singleton, List.range_succ,
    List.find?_append]
  congr 1
  · exact List.find?_congr hold
  · rw [List.find?_singleton, hnew]

end Block

end BraceLift
