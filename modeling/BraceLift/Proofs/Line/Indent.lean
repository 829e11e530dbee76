/-
Outdenting a line again and again.

What outdenting does depends on one number, the blanks that stand in front
of the line (`indent`). If there are enough of them the first `width` are
dropped (`outdent_of_le`), else the line is left alone (`outdent_of_lt`);
what is dropped is blanks, so the rest has as many fewer
(`indent_drop`). Each of the first `indent / width` times therefore takes
`width` blanks away, and from then on fewer are left (`outdent_iterate`).
-/
import Mathlib.Logic.Function.Iterate
import BraceLift.Line

namespace BraceLift

namespace Line

/-- How many blanks a line starts with. Only U+0020 counts as a blank. -/
def indent (line : Line) : Nat :=
  (line.takeWhile (· == ' ')).length

@[simp] theorem indent_nil : indent [] = 0 := rfl

@[simp] theorem indent_blank (rest : Line) :
    indent (' ' :: rest) = rest.indent + 1 := rfl

theorem indent_of_ne {c : Char} (hc : c ≠ ' ') (rest : Line) :
    indent (c :: rest) = 0 := by
  rw [indent, List.takeWhile_cons_of_neg (by simpa using hc)]
  rfl

-- ============================================================ the blanks

/-- A line starts with so many blanks as its indent, and no more. -/
theorem replicate_prefix_iff (n : Nat) (line : Line) :
    List.replicate n ' ' <+: line ↔ n ≤ line.indent := by
  induction n generalizing line with
  | zero => simp
  | succ n ih =>
      rw [List.replicate_succ]
      match line with
      | [] => simp
      | c :: rest =>
          by_cases hc : c = ' '
          · subst hc
            rw [List.prefix_cons_inj, ih, indent_blank,
              Nat.add_le_add_iff_right]
          · rw [List.cons_prefix_cons, indent_of_ne hc]
            exact iff_of_false (fun h => hc h.1.symm) (by omega)

/-- Blanks of the indent are in front of what is left without them. -/
theorem replicate_append_drop {n : Nat} {line : Line} (h : n ≤ line.indent) :
    List.replicate n ' ' ++ line.drop n = line := by
  obtain ⟨rest, rfl⟩ := (replicate_prefix_iff n line).2 h
  rw [List.drop_left' List.length_replicate]

/-- What is left has so many blanks fewer. -/
theorem indent_drop {n : Nat} {line : Line} (h : n ≤ line.indent) :
    indent (line.drop n) = line.indent - n := by
  induction n generalizing line with
  | zero => rfl
  | succ n ih =>
      match line with
      | [] => exact absurd h (Nat.not_succ_le_zero n)
      | c :: rest =>
          by_cases hc : c = ' '
          · subst hc
            rw [indent_blank] at h ⊢
            rw [List.drop_succ_cons, ih (Nat.le_of_succ_le_succ h)]
            omega
          · rw [indent_of_ne hc] at h
            omega

-- ================================================================== once

variable {width : Nat} {line : Line}

theorem outdent_of_le (h : width ≤ line.indent) :
    line.outdent width = line.drop width := by
  have hafter := (afterSpaces?_eq_some_iff width line (line.drop width)).2
    (replicate_append_drop h).symm
  rw [outdent, hafter, Option.getD_some]

theorem outdent_of_lt (h : line.indent < width) :
    line.outdent width = line := by
  unfold outdent
  cases hafter : afterSpaces? width line with
  | none => rfl
  | some rest =>
      have hsplit := (afterSpaces?_eq_some_iff width line rest).1 hafter
      have hle := (replicate_prefix_iff width line).1 ⟨rest, hsplit.symm⟩
      omega

/-- Outdenting by some blanks leaves just those lines alone that have
fewer. -/
theorem outdent_eq_self_iff (hwidth : 0 < width) :
    line.outdent width = line ↔ line.indent < width := by
  refine ⟨fun heq => ?_, outdent_of_lt⟩
  by_contra hnot
  have hle : width ≤ line.indent := Nat.le_of_not_lt hnot
  have hindent := indent_drop hle
  rw [← outdent_of_le hle, heq] at hindent
  omega

-- ==================================================== any number of times

/-- Fewer than `width` are left after `k` times if and only if `width` goes
no more often into what there was. -/
theorem left_lt_iff (hwidth : 0 < width) (blanks k : Nat) :
    blanks - width * min k (blanks / width) < width ↔ blanks / width ≤ k := by
  have hmod := Nat.mod_add_div blanks width
  have hlt := Nat.mod_lt blanks hwidth
  rcases Nat.lt_or_ge k (blanks / width) with hk | hk
  · have hnext := Nat.mul_le_mul_left width (Nat.succ_le_of_lt hk)
    rw [Nat.mul_succ] at hnext
    rw [Nat.min_eq_left (Nat.le_of_lt hk)]
    omega
  · rw [Nat.min_eq_right hk]
    omega

/-- In `k` times no more is taken than there is. -/
theorem taken_le (width blanks k : Nat) :
    width * min k (blanks / width) ≤ blanks :=
  Nat.le_trans (Nat.mul_le_mul_left width (Nat.min_le_right _ _))
    (Nat.mul_div_le blanks width)

/-- Each time takes `width` blanks away, until fewer are left. -/
theorem outdent_iterate (hwidth : 0 < width) (line : Line) (k : Nat) :
    (outdent width)^[k] line
      = line.drop (width * min k (line.indent / width)) := by
  induction k with
  | zero => simp
  | succ k ih =>
      have hindent := indent_drop (taken_le width line.indent k)
      have hleft := left_lt_iff hwidth line.indent k
      rw [← hindent] at hleft
      rw [Function.iterate_succ_apply', ih]
      rcases Nat.lt_or_ge k (line.indent / width) with hk | hk
      · have hle := Nat.le_of_not_lt (mt hleft.1 (Nat.not_le_of_lt hk))
        rw [outdent_of_le hle, List.drop_drop,
          Nat.min_eq_left (Nat.le_of_lt hk), Nat.min_eq_left hk, Nat.mul_succ]
      · rw [outdent_of_lt (hleft.2 hk), Nat.min_eq_right hk,
          Nat.min_eq_right (Nat.le_succ_of_le hk)]

/-- The blanks that are taken away stand in front of what is left. -/
theorem replicate_append_iterate (hwidth : 0 < width) (line : Line) (k : Nat) :
    List.replicate (width * min k (line.indent / width)) ' '
      ++ (outdent width)^[k] line = line := by
  rw [outdent_iterate hwidth, replicate_append_drop (taken_le _ _ _)]

/-- One more time changes nothing if and only if `width` has been taken away
as often as it goes. -/
theorem outdent_stable_iff (hwidth : 0 < width) (line : Line) (k : Nat) :
    (outdent width)^[k + 1] line = (outdent width)^[k] line
      ↔ line.indent / width ≤ k := by
  rw [Function.iterate_succ_apply', outdent_eq_self_iff hwidth,
    outdent_iterate hwidth, indent_drop (taken_le _ _ _), left_lt_iff hwidth]

/-- Outdenting twice is outdenting once for the lines that have fewer blanks
than twice as many. -/
theorem outdent_twice_iff (hwidth : 0 < width) (line : Line) :
    (line.outdent width).outdent width = line.outdent width
      ↔ line.indent < 2 * width := by
  rw [← Nat.div_lt_iff_lt_mul hwidth, Nat.lt_succ_iff]
  exact outdent_stable_iff hwidth line 1

end Line

end BraceLift
