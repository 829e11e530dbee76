/-
Where the lines of a content end.

Cutting a content gives lines of two kinds: all but the last end with a
newline that is their only one (`IsEnded`), and the last either does so,
too, or is not empty and has none (`IsOpen`). Lines of this form
(`AreCut`) are what cutting gives and what it gives back
(`splitLines_flatten`), so a content is cut at a newline like its two
parts (`splitLines_append`). Leaving lines out keeps the form
(`AreCut.sublist`), and so does changing lines one by one if each keeps
its kind (`AreCut.map`).
-/
import Mathlib.Data.List.Basic
import BraceLift.Text.Lines

namespace BraceLift

namespace Line

/-- Whether the line ends with a newline and has no other. -/
def IsEnded (line : Line) : Prop :=
  ∃ body, '\n' ∉ body ∧ line = body ++ ['\n']

/-- Whether the line is one without a newline. -/
def IsOpen (line : Line) : Prop :=
  line ≠ [] ∧ '\n' ∉ line

theorem IsEnded.suffix {line : Line} (h : line.IsEnded) :
    ['\n'] <:+ line := by
  obtain ⟨body, -, rfl⟩ := h
  exact List.suffix_append _ _

theorem IsEnded.newline_mem {line : Line} (h : line.IsEnded) :
    '\n' ∈ line :=
  h.suffix.subset (List.mem_singleton_self _)

/-- What is left of an ended line behind any part of it is ended. -/
theorem IsEnded.of_append {s t : Line} (h : IsEnded (s ++ t)) (ht : t ≠ []) :
    t.IsEnded := by
  obtain ⟨body, hbody, heq⟩ := h
  obtain ⟨init, last, rfl⟩ := List.eq_nil_or_concat' t |>.resolve_left ht
  rw [← List.append_assoc] at heq
  obtain ⟨rfl, hlast⟩ := List.append_inj' heq rfl
  refine ⟨init, fun hin => hbody (List.mem_append_right _ hin), ?_⟩
  rw [hlast]

/-- Text without a newline may stand in front of an ended line. -/
theorem IsEnded.append_left {s t : Line} (h : t.IsEnded) (hs : '\n' ∉ s) :
    IsEnded (s ++ t) := by
  obtain ⟨body, hbody, rfl⟩ := h
  refine ⟨s ++ body, ?_, (List.append_assoc _ _ _).symm⟩
  rw [List.mem_append]
  exact not_or.2 ⟨hs, hbody⟩

end Line

namespace Text

open Line

-- ======================================================== lines as cut

/-- Whether all lines but the last are ended, and the last is ended or
open. -/
inductive AreCut : List Line → Prop where
  | nil : AreCut []
  | last {line : Line} : line.IsOpen → AreCut [line]
  | cons {line : Line} {rest : List Line} :
      line.IsEnded → AreCut rest → AreCut (line :: rest)

theorem AreCut.of_cons {line : Line} {rest : List Line}
    (h : AreCut (line :: rest)) (hne : rest ≠ []) :
    line.IsEnded ∧ AreCut rest := by
  cases h with
  | last _ => exact absurd rfl hne
  | cons hended hrest => exact ⟨hended, hrest⟩

/-- Any character in front leaves the lines as cut. -/
theorem AreCut.consLine {lines : List Line} (h : AreCut lines) (c : Char) :
    AreCut (consLine c lines) := by
  by_cases hc : c = '\n'
  · subst hc
    rw [consLine_newline]
    exact .cons ⟨[], List.not_mem_nil, rfl⟩ h
  · have hcons : ∀ {body : Text}, '\n' ∉ body → '\n' ∉ c :: body :=
      fun hbody => List.not_mem_cons_of_ne_of_not_mem (Ne.symm hc) hbody
    cases h with
    | nil =>
        rw [consLine_nil hc]
        exact .last ⟨List.cons_ne_nil _ _, hcons List.not_mem_nil⟩
    | last hopen =>
        rw [consLine_cons hc]
        exact .last ⟨List.cons_ne_nil _ _, hcons hopen.2⟩
    | cons hended hrest =>
        obtain ⟨body, hbody, rfl⟩ := hended
        rw [consLine_cons hc]
        exact .cons ⟨c :: body, hcons hbody, rfl⟩ hrest

theorem areCut_splitLines (content : Text) : AreCut content.splitLines := by
  induction content with
  | nil => exact .nil
  | cons c rest ih => exact ih.consLine c

/-- An ended line in front is the first line. -/
theorem splitLines_append_of_isEnded {line : Line} (h : line.IsEnded)
    (t : Text) : splitLines (line ++ t) = line :: splitLines t := by
  obtain ⟨body, hbody, rfl⟩ := h
  induction body with
  | nil => exact consLine_newline _
  | cons c rest ih =>
      obtain ⟨hc, hrest⟩ := List.ne_and_not_mem_of_not_mem_cons hbody
      show consLine c (splitLines (rest ++ ['\n'] ++ t)) = _
      rw [ih hrest, consLine_cons (Ne.symm hc)]
      rfl

/-- An open line is the only line of itself. -/
theorem splitLines_of_isOpen {line : Line} (h : line.IsOpen) :
    splitLines line = [line] := by
  obtain ⟨hne, hnot⟩ := h
  induction line with
  | nil => exact absurd rfl hne
  | cons c rest ih =>
      obtain ⟨hc, hrest⟩ := List.ne_and_not_mem_of_not_mem_cons hnot
      rw [splitLines_cons]
      cases rest with
      | nil => exact consLine_nil (Ne.symm hc)
      | cons d more =>
          rw [ih (List.cons_ne_nil _ _) hrest, consLine_cons (Ne.symm hc)]

/-- Ended lines in front are the first lines. -/
theorem splitLines_flatten_append {lines : List Line}
    (h : ∀ line ∈ lines, line.IsEnded) (t : Text) :
    splitLines (lines.flatten ++ t) = lines ++ splitLines t := by
  induction lines with
  | nil => rfl
  | cons line rest ih =>
      rw [List.flatten_cons, List.append_assoc,
        splitLines_append_of_isEnded (h _ (List.mem_cons_self ..)),
        ih fun l hl => h l (List.mem_cons_of_mem _ hl), List.cons_append]

/-- Lines as cut are found again. -/
theorem splitLines_flatten {lines : List Line} (h : AreCut lines) :
    splitLines lines.flatten = lines := by
  induction h with
  | nil => rfl
  | last hopen => rw [List.flatten_singleton, splitLines_of_isOpen hopen]
  | cons hended _ ih =>
      rw [List.flatten_cons, splitLines_append_of_isEnded hended, ih]

-- ===================================================== which are ended

/-- All lines are ended where the last character is a newline. -/
theorem AreCut.isEnded_of_suffix {lines : List Line} (h : AreCut lines)
    (hend : ['\n'] <:+ lines.flatten) : ∀ line ∈ lines, line.IsEnded := by
  induction h with
  | nil => exact fun line hline => absurd hline List.not_mem_nil
  | last hopen =>
      rw [List.flatten_singleton] at hend
      exact absurd (hend.subset (List.mem_singleton_self _)) hopen.2
  | @cons first rest hended hrest ih =>
      intro line hline
      rcases List.mem_cons.1 hline with rfl | hline
      · exact hended
      · refine ih ?_ line hline
        -- the newline at the end is one of the rest, which is not empty
        have hlast := List.singleton_suffix_iff_getLast?_eq_some.1 hend
        rw [List.flatten_cons, List.getLast?_append] at hlast
        cases hrestlast : rest.flatten.getLast? with
        | some c =>
            rw [hrestlast] at hlast
            rw [List.singleton_suffix_iff_getLast?_eq_some, hrestlast]
            exact hlast
        | none =>
            have hnil := List.getLast?_eq_none_iff.1 hrestlast
            have hcut := splitLines_flatten hrest
            rw [hnil] at hcut
            rw [← hcut] at hline
            cases hline

/-- The lines of a content that ends with a newline are ended. -/
theorem isEnded_of_mem_splitLines {content : Text}
    (h : content = [] ∨ ['\n'] <:+ content) :
    ∀ line ∈ content.splitLines, line.IsEnded := by
  rcases h with rfl | hend
  · exact fun line hline => absurd hline List.not_mem_nil
  · refine (areCut_splitLines content).isEnded_of_suffix ?_
    rwa [flatten_splitLines]

/-- A content is cut like its two parts if the first ends with a
newline. -/
theorem splitLines_append {s : Text} (h : s = [] ∨ ['\n'] <:+ s) (t : Text) :
    splitLines (s ++ t) = splitLines s ++ splitLines t := by
  have hcut := splitLines_flatten_append (isEnded_of_mem_splitLines h) t
  rwa [flatten_splitLines] at hcut

/-- Of two stretches of lines as cut, the first has only ended lines if
there is a second. -/
theorem AreCut.isEnded_left {xs ys : List Line} (h : AreCut (xs ++ ys))
    (hys : ys ≠ []) : ∀ line ∈ xs, line.IsEnded := by
  induction xs with
  | nil => exact fun line hline => absurd hline List.not_mem_nil
  | cons first rest ih =>
      intro line hline
      obtain ⟨hended, hrest⟩ :=
        h.of_cons (List.append_ne_nil_of_right_ne_nil rest hys)
      rcases List.mem_cons.1 hline with rfl | hline
      · exact hended
      · exact ih hrest line hline

/-- A line as cut is ended or open. -/
theorem AreCut.isEnded_or_isOpen {lines : List Line} (h : AreCut lines) :
    ∀ line ∈ lines, line.IsEnded ∨ line.IsOpen := by
  induction h with
  | nil => exact fun line hline => absurd hline List.not_mem_nil
  | last hopen =>
      intro line hline
      rw [List.mem_singleton] at hline
      exact .inr (hline ▸ hopen)
  | cons hended _ ih =>
      intro line hline
      rcases List.mem_cons.1 hline with rfl | hline
      · exact .inl hended
      · exact ih line hline

-- =================================================== parts and changes

/-- Lines may be left out. -/
theorem AreCut.sublist {some all : List Line} (h : AreCut all)
    (hsub : some.Sublist all) : AreCut some := by
  induction h generalizing some with
  | nil =>
      rw [List.sublist_nil] at hsub
      rw [hsub]
      exact .nil
  | last hopen =>
      rcases List.sublist_singleton.1 hsub with rfl | rfl
      · exact .nil
      · exact .last hopen
  | cons hended _ ih =>
      rcases List.sublist_cons_iff.1 hsub with hrest | ⟨rest, rfl, hrest⟩
      · exact ih hrest
      · exact .cons hended (ih hrest)

/-- Lines may be changed if ended ones stay ended and open ones open. -/
theorem AreCut.map {lines : List Line} {f : Line → Line}
    (h : AreCut lines) (hended : ∀ line, line.IsEnded → (f line).IsEnded)
    (hopen : ∀ line, line.IsOpen → (f line).IsOpen) :
    AreCut (lines.map f) := by
  induction h with
  | nil => exact .nil
  | last hlast => exact .last (hopen _ hlast)
  | cons hfirst _ ih => exact .cons (hended _ hfirst) ih

end Text

end BraceLift
