/-
Where a text occurs, and what cuts it off.

A text that has some character at most as its last one does not go across
that character: where it occurs in `s ++ c :: t`, it is over with that `c`
or starts behind it (`occurs_before_or_behind`). So such a text is looked
for piece by piece, the pieces ending with the character
(`infix_append_cons_iff`).

The first occurrence is told by what stands in front of it
(`BeforeFirst`), and the line it starts in by the content up to the last
newline in front of it (`CutAtLineOf`). There is one if the text occurs
at all, and there is only one.
-/
import Mathlib.Data.List.Basic
import BraceLift.Text.Basic

namespace BraceLift.Text

variable {c : Char} {part : Text}

-- ============================================= around a character at the end

/-- An occurrence of a text that has the character at most at its end
does not go across it. -/
theorem occurs_before_or_behind (hne : part ≠ []) (hlast : c ∉ part.dropLast)
    {s t before after : Text} (h : s ++ c :: t = before ++ part ++ after) :
    (∃ rest, s ++ [c] = before ++ part ++ rest)
      ∨ ∃ front, before = s ++ c :: front ∧ t = front ++ part ++ after := by
  rw [List.append_cons, List.append_assoc before] at h
  rcases List.append_eq_append_iff.1 h with
    ⟨front, rfl, rfl⟩ | ⟨shared, hs, hshared⟩
  · exact .inr ⟨front, by simp, by simp⟩
  · rcases List.eq_nil_or_concat' shared with rfl | ⟨body, last, rfl⟩
    · exact .inr ⟨[], by simpa using hs.symm, by simpa using hshared.symm⟩
    · -- the occurrence starts at the character or in front of it
      rw [← List.append_assoc] at hs
      obtain ⟨rfl, hlast'⟩ := List.append_inj' hs rfl
      obtain rfl : c = last := by simpa using hlast'
      rcases List.append_eq_append_iff.1 hshared with
        ⟨rest, hbody, -⟩ | ⟨more, rfl, -⟩
      · exact .inl ⟨rest, by rw [List.append_assoc, List.append_assoc, hbody]⟩
      · cases more with
        | nil => exact .inl ⟨[], by simp⟩
        | cons d more =>
            refine absurd ?_ hlast
            rw [List.dropLast_append_of_ne_nil (List.cons_ne_nil d more)]
            simp

/-- Such a text is looked for up to the character and behind it. -/
theorem infix_append_cons_iff (hne : part ≠ []) (hlast : c ∉ part.dropLast)
    (s t : Text) :
    part <:+: s ++ c :: t ↔ part <:+: s ++ [c] ∨ part <:+: t := by
  constructor
  · intro hall
    obtain ⟨before, after, h⟩ := hall
    rcases occurs_before_or_behind hne hlast h.symm with
      ⟨rest, hrest⟩ | ⟨front, -, hfront⟩
    · exact .inl ⟨before, rest, hrest.symm⟩
    · exact .inr ⟨front, after, hfront.symm⟩
  · rintro (h | h)
    · refine h.trans ⟨[], t, ?_⟩
      simp
    · exact h.trans ⟨s ++ [c], [], by simp⟩

-- ======================================================= the first occurrence

/-- Whether `before` is what stands in front of the first occurrence. -/
structure BeforeFirst (part whole before : Text) : Prop where
  found : ∃ after, whole = before ++ part ++ after
  first : ∀ other after, whole = other ++ part ++ after →
    before.length ≤ other.length

/-- A text that occurs has a first occurrence. -/
theorem exists_beforeFirst {whole : Text} (h : part <:+: whole) :
    ∃ before, BeforeFirst part whole before := by
  induction whole with
  | nil =>
      refine ⟨[], ⟨[], ?_⟩, fun _ _ _ => Nat.zero_le _⟩
      rw [List.infix_nil.1 h]
      rfl
  | cons d rest ih =>
      by_cases hpre : part <+: d :: rest
      · obtain ⟨after, hafter⟩ := hpre
        exact ⟨[], ⟨after, hafter.symm⟩, fun _ _ _ => Nat.zero_le _⟩
      · obtain ⟨before, ⟨after, rfl⟩, hfirst⟩ :=
          ih ((List.infix_cons_iff.1 h).resolve_left hpre)
        refine ⟨d :: before, ⟨after, rfl⟩, fun other after' hother => ?_⟩
        cases other with
        | nil => exact absurd ⟨after', hother.symm⟩ hpre
        | cons e other =>
            obtain ⟨-, hrest⟩ := List.cons.inj hother
            have := hfirst other after' hrest
            simpa using this

theorem BeforeFirst.unique {whole before before' : Text}
    (h : BeforeFirst part whole before)
    (h' : BeforeFirst part whole before') : before = before' := by
  obtain ⟨after, hafter⟩ := h.found
  obtain ⟨after', hafter'⟩ := h'.found
  have hlen : before.length = before'.length :=
    Nat.le_antisymm (h.first before' after' hafter')
      (h'.first before after hafter)
  rw [hafter, List.append_assoc, List.append_assoc] at hafter'
  exact (List.append_inj hafter' hlen).1

-- =========================================================== and its line

/-- Whether a content is cut in two where the line starts in which `part`
occurs first: just behind the last newline in front of that occurrence,
or at the start of the content if there is none. -/
structure CutAtLineOf (part content front rest : Text) : Prop where
  content_eq : content = front ++ rest
  starts_line : front = [] ∨ ['\n'] <:+ front
  same_line : ∃ between, '\n' ∉ between
    ∧ BeforeFirst part content (front ++ between)

/-- Nothing stands behind the last newline where a line starts. -/
theorem eq_nil_of_line_start {s t more : Text} (hs : s = [] ∨ ['\n'] <:+ s)
    (hsplit : s = t ++ more) (hmore : '\n' ∉ more) : more = [] := by
  rcases List.eq_nil_or_concat' more with rfl | ⟨body, last, rfl⟩
  · rfl
  · exfalso
    rcases hs with rfl | ⟨init, hinit⟩
    · simp at hsplit
    · rw [hsplit, ← List.append_assoc] at hinit
      obtain ⟨-, hlast⟩ := List.append_inj' hinit rfl
      exact hmore (hlast ▸ List.mem_append_right _ (List.mem_singleton_self _))

/-- The line of the first occurrence is at one place only. -/
theorem CutAtLineOf.unique {content front rest front' rest' : Text}
    (h : CutAtLineOf part content front rest)
    (h' : CutAtLineOf part content front' rest') :
    front = front' ∧ rest = rest' := by
  obtain ⟨heq, hstart, between, hfree, hfirst⟩ := h
  obtain ⟨heq', hstart', between', hfree', hfirst'⟩ := h'
  have hfront : front = front' := by
    rcases List.append_eq_append_iff.1 (hfirst.unique hfirst') with
      ⟨more, hmore, rfl⟩ | ⟨more, hmore, rfl⟩
    · have hnil := eq_nil_of_line_start hstart' hmore fun hin =>
        hfree (List.mem_append_left _ hin)
      rw [hmore, hnil, List.append_nil]
    · have hnil := eq_nil_of_line_start hstart hmore fun hin =>
        hfree' (List.mem_append_left _ hin)
      rw [hmore, hnil, List.append_nil]
  subst hfront
  exact ⟨rfl, List.append_cancel_left (heq.symm.trans heq')⟩

end BraceLift.Text
