/-
What a tail keeps is lines again.

A replacement works within lines if neither text has a newline in it and
neither is empty (`Substitution.KeepsLines`): an occurrence never goes
across a newline (`replaceFrom_append_cons`), so the newline stays where
it is, and what is put in brings none. A tail with such substitutions
only, like the standard one, makes lines as cut of lines as cut
(`areCut_keep`), whichever of them it drops.
-/
import BraceLift.Tail
import BraceLift.Proofs.Text.LineEnds

namespace BraceLift

namespace Text

variable {old new : Text}

-- ========================================== replacing around a newline

/-- A text does not go across a character that it has not. -/
theorem prefix_append_cons_iff {c : Char} (hc : c ∉ old) (s t : Text) :
    old <+: s ++ c :: t ↔ old <+: s := by
  refine ⟨fun h => ?_, fun h => h.trans (List.prefix_append _ _)⟩
  induction s generalizing old with
  | nil =>
      cases old with
      | nil => exact List.nil_prefix
      | cons d rest =>
          obtain ⟨rfl, -⟩ := List.cons_prefix_cons.1 h
          exact absurd (List.mem_cons_self ..) hc
  | cons e s ih =>
      cases old with
      | nil => exact List.nil_prefix
      | cons d rest =>
          obtain ⟨rfl, hrest⟩ := List.cons_prefix_cons.1 h
          have hnot := (List.ne_and_not_mem_of_not_mem_cons hc).2
          exact List.cons_prefix_cons.2 ⟨rfl, ih hnot hrest⟩

/-- Where the old text stands, the new one is put. -/
theorem replaceFrom_found {c : Char} {rest : Text}
    (h : old <+: c :: rest) :
    replaceFrom old new 0 (c :: rest)
      = new ++ replaceFrom old new (old.length - 1) rest := by
  rw [replaceFrom, if_pos (List.isPrefixOf_iff_prefix.2 h)]

/-- Elsewhere a character stays. -/
theorem replaceFrom_passed {c : Char} {rest : Text}
    (h : ¬ old <+: c :: rest) :
    replaceFrom old new 0 (c :: rest) = c :: replaceFrom old new 0 rest := by
  rw [replaceFrom, if_neg fun hp => h (List.isPrefixOf_iff_prefix.1 hp)]

/-- A character that is not in the old text stays where it is, and the
texts on its two sides are replaced apart. -/
theorem replaceFrom_append_cons {c : Char} (hne : old ≠ []) (hc : c ∉ old)
    (s t : Text) {skip : Nat} (hskip : skip ≤ s.length) :
    replaceFrom old new skip (s ++ c :: t)
      = replaceFrom old new skip s ++ c :: replaceFrom old new 0 t := by
  induction s generalizing skip with
  | nil =>
      obtain rfl : skip = 0 := Nat.le_zero.1 hskip
      have hnot : ¬ old <+: c :: t := fun h =>
        hne (List.prefix_nil.1 ((prefix_append_cons_iff hc [] t).1 h))
      exact replaceFrom_passed hnot
  | cons d rest ih =>
      cases skip with
      | succ skip => exact ih (Nat.le_of_succ_le_succ hskip)
      | zero =>
          have hiff : old <+: d :: (rest ++ c :: t) ↔ old <+: d :: rest :=
            prefix_append_cons_iff hc (d :: rest) t
          rw [List.cons_append]
          by_cases hpre : old <+: d :: rest
          · -- the rest of the occurrence ends before the character
            have hlen : old.length - 1 ≤ rest.length := by
              have := hpre.length_le
              rw [List.length_cons] at this
              omega
            rw [replaceFrom_found (hiff.2 hpre),
              replaceFrom_found hpre, ih hlen, List.append_assoc]
          · rw [replaceFrom_passed (mt hiff.1 hpre),
              replaceFrom_passed hpre, ih (Nat.zero_le _),
              List.cons_append]

/-- A character is in the result only if it was there or was put in. -/
theorem notMem_replaceFrom {c : Char} (hnew : c ∉ new) {skip : Nat}
    {t : Text} (ht : c ∉ t) : c ∉ replaceFrom old new skip t := by
  induction t generalizing skip with
  | nil => rw [replaceFrom]; exact List.not_mem_nil
  | cons d rest ih =>
      obtain ⟨hd, hrest⟩ := List.ne_and_not_mem_of_not_mem_cons ht
      cases skip with
      | succ skip => exact ih hrest
      | zero =>
          by_cases hpre : old <+: d :: rest
          · rw [replaceFrom_found hpre, List.mem_append]
            exact not_or.2 ⟨hnew, ih hrest⟩
          · rw [replaceFrom_passed hpre]
            exact List.not_mem_cons_of_ne_of_not_mem hd (ih hrest)

/-- Nothing is replaced away altogether. -/
theorem replaceFrom_ne_nil (hnew : new ≠ []) {t : Text} (ht : t ≠ []) :
    replaceFrom old new 0 t ≠ [] := by
  cases t with
  | nil => exact absurd rfl ht
  | cons d rest =>
      by_cases hpre : old <+: d :: rest
      · rw [replaceFrom_found hpre]
        exact List.append_ne_nil_of_left_ne_nil hnew _
      · rw [replaceFrom_passed hpre]
        exact List.cons_ne_nil _ _

end Text

-- ======================================================= substitutions

/-- Whether a substitution works within lines. -/
structure Substitution.KeepsLines (s : Substitution) : Prop where
  old_ne_nil : s.old ≠ []
  new_ne_nil : s.new ≠ []
  newline_notMem_old : '\n' ∉ s.old
  newline_notMem_new : '\n' ∉ s.new

namespace Substitution

variable {s : Substitution} (hs : s.KeepsLines)

include hs

theorem KeepsLines.apply_eq (line : Line) :
    s.apply line = Text.replaceFrom s.old s.new 0 line := by
  unfold apply Text.replaceAll
  rw [if_neg hs.old_ne_nil]

theorem KeepsLines.isEnded {line : Line} (h : line.IsEnded) :
    (s.apply line).IsEnded := by
  obtain ⟨body, hbody, rfl⟩ := h
  rw [hs.apply_eq, Text.replaceFrom_append_cons hs.old_ne_nil
    hs.newline_notMem_old body [] (Nat.zero_le _)]
  exact ⟨_, Text.notMem_replaceFrom hs.newline_notMem_new hbody, rfl⟩

theorem KeepsLines.isOpen {line : Line} (h : line.IsOpen) :
    (s.apply line).IsOpen := by
  rw [hs.apply_eq]
  exact ⟨Text.replaceFrom_ne_nil hs.new_ne_nil h.1,
    Text.notMem_replaceFrom hs.newline_notMem_new h.2⟩

end Substitution

-- ============================================================ the tail

namespace Tail

variable {tail : Tail}

/-- What each substitution keeps of a line, all of them keep. -/
theorem restate_of_apply {P : Line → Prop}
    (h : ∀ s ∈ tail.substitutions, ∀ line, P line → P (s.apply line))
    (line : Line) (hline : P line) : P (tail.restate line) := by
  unfold restate
  generalize tail.substitutions = substitutions at h
  induction substitutions generalizing line with
  | nil => exact hline
  | cons s rest ih =>
      exact ih _ (h s (List.mem_cons_self ..) line hline)
        fun s' hs' => h s' (List.mem_cons_of_mem _ hs')

/-- Lines as cut are still so when some are dropped and the others
changed. -/
theorem areCut_keep (hkeeps : ∀ s ∈ tail.substitutions, s.KeepsLines)
    {region : List Line} (h : Text.AreCut region) :
    Text.AreCut (tail.keep region) := by
  refine (h.sublist List.filter_sublist).map ?_ ?_
  · exact restate_of_apply fun s hs _ => (hkeeps s hs).isEnded
  · exact restate_of_apply fun s hs _ => (hkeeps s hs).isOpen

/-- The standard tail has one substitution, within lines. -/
theorem keepsLines_standard (anchor : Text) :
    ∀ s ∈ (standard anchor).substitutions, s.KeepsLines := by
  intro s hs
  obtain rfl := List.mem_singleton.1 hs
  exact ⟨by decide, by decide, by decide, by decide⟩

end Tail

end BraceLift
