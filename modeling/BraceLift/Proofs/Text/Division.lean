/-
A content has one division into lines.

What lines look like is said of each line alone (`AreLines`): it is not
empty, a newline is at most its last character, and only the last line
may be without one. These are just the lines as cut of LineEnds.lean, which
are told from front to back (`AreCut.areLines`, `AreLines.areCut`). So
cutting gives lines of this form and gives any lines of this form back.
Cutting and putting together are therefore inverse, and whoever divides a
content into such lines divides it as `splitLines` does.
-/
import BraceLift.Proofs.Text.LineEnds

namespace BraceLift

namespace Line

/-- A line is ended if it ends with a newline that is the first it has. -/
theorem isEnded_iff (line : Line) :
    line.IsEnded ↔ ['\n'] <:+ line ∧ '\n' ∉ line.dropLast := by
  constructor
  · intro h
    refine ⟨h.suffix, ?_⟩
    obtain ⟨body, hbody, rfl⟩ := h
    simpa using hbody
  · intro hall
    obtain ⟨⟨body, rfl⟩, hbody⟩ := hall
    exact ⟨body, by simpa using hbody, rfl⟩

/-- A line that has a newline at most at its end is ended, or has none. -/
theorem isOpen_of_not_suffix {line : Line} (hne : line ≠ [])
    (hbody : '\n' ∉ line.dropLast) (hend : ¬ ['\n'] <:+ line) :
    line.IsOpen := by
  refine ⟨hne, fun hin => ?_⟩
  obtain ⟨body, last, rfl⟩ := List.eq_nil_or_concat' line |>.resolve_left hne
  rw [List.dropLast_concat] at hbody
  rcases List.mem_append.1 hin with hin | hin
  · exact hbody hin
  · obtain rfl := List.mem_singleton.1 hin
    exact hend (List.suffix_append _ _)

end Line

namespace Text

/-- Whether texts look like the lines of a content. -/
structure AreLines (lines : List Line) : Prop where
  ne_nil : ∀ line ∈ lines, line ≠ []
  /-- A newline is the last character of its line. -/
  newline_last : ∀ line ∈ lines, '\n' ∉ line.dropLast
  /-- Every line but the last ends with one. -/
  ended : ∀ line ∈ lines.dropLast, ['\n'] <:+ line

instance (lines : List Line) : Decidable (AreLines lines) :=
  decidable_of_iff
    ((∀ line ∈ lines, line ≠ []) ∧ (∀ line ∈ lines, '\n' ∉ line.dropLast)
      ∧ ∀ line ∈ lines.dropLast, ['\n'] <:+ line)
    ⟨fun h => ⟨h.1, h.2.1, h.2.2⟩,
      fun h => ⟨h.ne_nil, h.newline_last, h.ended⟩⟩

-- ========================================================= the two forms

theorem AreCut.areLines {lines : List Line} (h : AreCut lines) :
    AreLines lines := by
  induction h with
  | nil => constructor <;> simp
  | @last line hopen =>
      refine ⟨?_, ?_, by simp⟩
      · simpa using hopen.1
      · intro l hl hin
        rw [List.mem_singleton.1 hl] at hin
        exact hopen.2 (List.dropLast_subset _ hin)
  | @cons line rest hended _ ih =>
      obtain ⟨hsuffix, hbody⟩ := (Line.isEnded_iff line).1 hended
      refine ⟨?_, ?_, ?_⟩
      · rw [List.forall_mem_cons]
        exact ⟨List.ne_nil_of_mem hended.newline_mem, ih.ne_nil⟩
      · rw [List.forall_mem_cons]
        exact ⟨hbody, ih.newline_last⟩
      · intro l hl
        cases rest with
        | nil => simp at hl
        | cons next more =>
            rw [List.dropLast_cons_cons, List.mem_cons] at hl
            rcases hl with rfl | hl
            · exact hsuffix
            · exact ih.ended l hl

theorem AreLines.areCut {lines : List Line} (h : AreLines lines) :
    AreCut lines := by
  induction lines with
  | nil => exact .nil
  | cons line rest ih =>
      have hne := h.ne_nil line (List.mem_cons_self ..)
      have hbody := h.newline_last line (List.mem_cons_self ..)
      cases rest with
      | nil =>
          by_cases hend : ['\n'] <:+ line
          · exact .cons ((Line.isEnded_iff line).2 ⟨hend, hbody⟩) .nil
          · exact .last (Line.isOpen_of_not_suffix hne hbody hend)
      | cons next more =>
          obtain ⟨hfirst, hrest⟩ := List.forall_mem_cons.1 h.ended
          refine .cons ((Line.isEnded_iff line).2 ⟨hfirst, hbody⟩) (ih ?_)
          exact ⟨(List.forall_mem_cons.1 h.ne_nil).2,
            (List.forall_mem_cons.1 h.newline_last).2, hrest⟩

-- ============================================================ the division

/-- Cutting a content gives lines that, put together, are the content,
and lines that are put together are what cutting then gives. So there is
no other division of a content into lines; and a content that is empty or
ends with a newline is cut apart from what follows it. -/
theorem splitLines_inverse_flatten (content : Text) :
    content.splitLines.flatten = content
      ∧ AreLines content.splitLines
      ∧ (∀ lines, AreLines lines → splitLines lines.flatten = lines)
      ∧ (∀ lines, AreLines lines → lines.flatten = content →
          lines = content.splitLines)
      ∧ ∀ more, (content = [] ∨ ['\n'] <:+ content) →
          splitLines (content ++ more)
            = content.splitLines ++ more.splitLines := by
  have hback : ∀ lines, AreLines lines → splitLines lines.flatten = lines :=
    fun lines h => splitLines_flatten h.areCut
  refine ⟨flatten_splitLines content, (areCut_splitLines content).areLines,
    hback, ?_, fun more h => splitLines_append h more⟩
  intro lines h hflat
  rw [← hflat, hback lines h]

/-- Lines with a return that ends none, with an empty line and a last one
that is not ended. -/
def raggedLines : List Line :=
  ["a\rb\r\n".toList, "\n".toList, " \x7d".toList]

/-- They are found again, the first two being all there is in front of the
last one, which is cut apart from them. -/
theorem splitLines_raggedLines :
    AreLines raggedLines
      ∧ splitLines raggedLines.flatten = raggedLines
      ∧ AreLines raggedLines.dropLast
      ∧ raggedLines.dropLast.flatten = "a\rb\r\n\n".toList
      ∧ raggedLines.dropLast = splitLines "a\rb\r\n\n".toList
      ∧ ['\n'] <:+ "a\rb\r\n\n".toList
      ∧ splitLines ("a\rb\r\n\n".toList ++ " \x7d".toList)
        = splitLines "a\rb\r\n\n".toList ++ splitLines " \x7d".toList := by
  obtain ⟨-, -, hback, honly, happend⟩ :=
    splitLines_inverse_flatten "a\rb\r\n\n".toList
  have hlines : AreLines raggedLines := by decide
  have hfront : AreLines raggedLines.dropLast := by decide
  have hend : ['\n'] <:+ "a\rb\r\n\n".toList := by decide
  exact ⟨hlines, hback _ hlines, hfront, rfl, honly _ hfront rfl, hend,
    happend _ (.inr hend)⟩

end Text

end BraceLift
