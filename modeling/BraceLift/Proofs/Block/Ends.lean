/-
How the lines of a block end.

A line that is outdented ends as before, for only blanks go. A line that
is published loses any white space in front, the newline included if
there is nothing else in it; where it has a character that is no white
space, as the line of such an anchor has, it ends as before, too. So a
block has the same ended lines as its raw lines, and at most its last
line can lack a newline: where the content does and the block takes it
to its end (`ends_of_extract`).
-/
import BraceLift.Proofs.Block.Extent
import BraceLift.Proofs.Text.LineEnds

namespace BraceLift

namespace Line

variable {raw shown : Line}

-- ============================================================ one line

theorem Outdented.isEnded {width : Nat} (h : Outdented width raw shown)
    (hraw : raw.IsEnded) : shown.IsEnded := by
  rcases h with rfl | ⟨-, rfl⟩
  · refine hraw.of_append ?_
    rintro rfl
    have hin := hraw.newline_mem
    rw [List.append_nil] at hin
    exact absurd (List.eq_of_mem_replicate hin) (by decide)
  · exact hraw

theorem Outdented.newline_notMem {width : Nat} (h : Outdented width raw shown)
    (hraw : '\n' ∉ raw) : '\n' ∉ shown := by
  rcases h with rfl | ⟨-, rfl⟩
  · exact fun hin => hraw (List.mem_append_right _ hin)
  · exact hraw

variable {marker : Text} (hmarker : '\n' ∉ marker)

include hmarker

theorem newline_notMem_marker : '\n' ∉ marker ++ [' '] := by
  rw [List.mem_append, not_or]
  exact ⟨hmarker, by decide⟩

theorem Published.isEnded (h : Published marker raw shown)
    (hword : ∃ c ∈ raw, Text.isBlank c = false) (hraw : raw.IsEnded) :
    shown.IsEnded := by
  obtain ⟨blanks, body, rfl, hblank, -, hshown⟩ := h
  have hbody : IsEnded body := by
    refine hraw.of_append ?_
    -- without a body, the line would be white space all through
    rintro rfl
    obtain ⟨c, hc, hnot⟩ := hword
    rw [List.append_nil] at hc
    rw [hblank c hc] at hnot
    cases hnot
  rcases hshown with ⟨-, rfl⟩ | ⟨-, rfl⟩
  · exact hbody
  · rw [List.append_cons]
    exact hbody.append_left (newline_notMem_marker hmarker)

theorem Published.newline_notMem (h : Published marker raw shown)
    (hraw : '\n' ∉ raw) : '\n' ∉ shown := by
  obtain ⟨blanks, body, rfl, -, -, hshown⟩ := h
  have hbody : '\n' ∉ body := fun hin => hraw (List.mem_append_right _ hin)
  rcases hshown with ⟨-, rfl⟩ | ⟨-, rfl⟩
  · exact hbody
  · rw [List.append_cons, List.mem_append, not_or]
    exact ⟨newline_notMem_marker hmarker, hbody⟩

end Line

-- ========================================================== many lines

namespace BlockStyle

variable {style : BlockStyle} (hmarker : '\n' ∉ style.publicMarker)

include hmarker

theorem isEnded_of_mem_restyle {raws : List Line}
    (hword : ∀ first ∈ raws.head?, ∃ c ∈ first, Text.isBlank c = false)
    (h : ∀ raw ∈ raws, raw.IsEnded) :
    ∀ line ∈ style.restyle raws, line.IsEnded := by
  cases raws with
  | nil => exact fun line hline => absurd hline List.not_mem_nil
  | cons first rest =>
      intro line hline
      rcases List.mem_cons.1 hline with rfl | hline
      · exact (Line.published_publish _ _).isEnded hmarker
          (hword first (Option.mem_some_self _))
          (h first (List.mem_cons_self ..))
      · obtain ⟨raw, hraw, rfl⟩ := List.mem_map.1 hline
        exact (Line.outdented_outdent _ _).isEnded
          (h raw (List.mem_cons_of_mem _ hraw))

/-- A last line without a newline is shown without one. -/
theorem restyle_snoc_of_notMem (raws : List Line) {last : Line}
    (hlast : '\n' ∉ last) :
    ∃ shown, style.restyle (raws ++ [last]) = style.restyle raws ++ [shown]
      ∧ '\n' ∉ shown := by
  cases raws with
  | nil =>
      exact ⟨_, rfl, (Line.published_publish _ _).newline_notMem hmarker hlast⟩
  | cons first rest =>
      exact ⟨_, style.restyle_snoc (List.cons_ne_nil _ _) last,
        (Line.outdented_outdent _ _).newline_notMem hlast⟩

end BlockStyle

-- ========================================================= the excerpt

namespace Block

/-- The raw lines of a block, and those behind it, are what follows. -/
theorem drop_eq_span_append (lines : List Line) {i k : Nat} (h : i ≤ k) :
    lines.drop i = span lines i k ++ lines.drop (k + 1) := by
  have hdrop : lines.drop (k + 1) = (lines.drop i).drop (k + 1 - i) := by
    rw [List.drop_drop]
    congr 1
    omega
  rw [hdrop, span, List.take_append_drop]

/-- The raw lines of a block begin with the line of its anchor. -/
theorem head?_span {lines : List Line} {i k : Nat} (h : i ≤ k) :
    (span lines i k).head? = lines[i]? := by
  have hpos : k + 1 - i ≠ 0 := by omega
  rw [span, List.head?_take, if_neg hpos, List.head?_drop]

variable {content : Text}

/-- Whether every raw line of a block with so many lines, starting at
line `i`, is ended: the content ends with a newline, or goes on behind the
block. -/
def EndsInside (content : Text) (i size : Nat) : Prop :=
  ['\n'] <:+ content ∨ i + size < content.splitLines.length

/-- The raw lines of a block that ends inside are ended. -/
theorem isEnded_of_endsInside {i k : Nat} (hle : i ≤ k)
    (hin : k < content.splitLines.length)
    (h : EndsInside content i (k + 1 - i)) :
    ∀ raw ∈ span content.splitLines i k, raw.IsEnded := by
  rcases h with hend | hbehind
  · exact fun raw hraw => Text.isEnded_of_mem_splitLines (.inr hend) raw
      (List.mem_of_mem_drop (List.mem_of_mem_take hraw))
  · have hcut := (Text.areCut_splitLines content).sublist
      (List.drop_sublist i _)
    rw [drop_eq_span_append _ hle] at hcut
    refine hcut.isEnded_left ?_
    rw [Ne, List.drop_eq_nil_iff]
    omega

/-- The raw lines of a block that does not end inside are ended but for
the last one, which has no newline. -/
theorem span_of_not_endsInside {i k : Nat} (hle : i ≤ k)
    (hin : k < content.splitLines.length)
    (h : ¬ EndsInside content i (k + 1 - i)) :
    ∃ earlier last, span content.splitLines i k = earlier ++ [last]
      ∧ (∀ raw ∈ earlier, raw.IsEnded) ∧ '\n' ∉ last := by
  obtain ⟨hend, hbehind⟩ := not_or.1 h
  have hrest : content.splitLines.drop (k + 1) = [] := by
    rw [List.drop_eq_nil_iff]
    omega
  have hdrop := drop_eq_span_append content.splitLines hle
  rw [hrest, List.append_nil] at hdrop
  have hcut := (Text.areCut_splitLines content).sublist
    (List.drop_sublist i _)
  rw [hdrop] at hcut
  have hlen := length_span (i := i) hin
  obtain ⟨earlier, last, hspan⟩ := List.eq_nil_or_concat'
    (span content.splitLines i k) |>.resolve_left (by
      intro hnil
      rw [hnil, List.length_nil] at hlen
      omega)
  rw [hspan] at hcut
  refine ⟨earlier, last, hspan, hcut.isEnded_left (List.cons_ne_nil _ _), ?_⟩
  rcases hcut.isEnded_or_isOpen last (by simp) with hended | hopen
  · -- an ended last line would end the content
    refine absurd ?_ hend
    have hsuffix : last <:+ content := by
      rw [← Text.flatten_splitLines content,
        ← List.take_append_drop i content.splitLines, hdrop, hspan,
        List.flatten_append, List.flatten_append, List.flatten_singleton,
        ← List.append_assoc]
      exact List.suffix_append _ _
    exact hended.suffix.trans hsuffix
  · exact hopen.2

/-- The lines of an excerpt of some content are ended if the block ends
inside; else all but the last one are, and the last has no newline. -/
theorem ends_of_extract (block : Block) {excerpt : Excerpt}
    (hmarker : '\n' ∉ block.style.publicMarker)
    (hword : ∃ c ∈ block.anchor, Text.isBlank c = false)
    (h : (block.extract content.splitLines).value = .ok excerpt) :
    ∃ i, IsStart block.anchor content.splitLines i
      ∧ (EndsInside content i excerpt.lines.length →
          ∀ line ∈ excerpt.lines, line.IsEnded)
      ∧ (¬ EndsInside content i excerpt.lines.length →
          ∃ earlier last, excerpt.lines = earlier ++ [last]
            ∧ (∀ line ∈ earlier, line.IsEnded) ∧ '\n' ∉ last) := by
  obtain ⟨i, k, hlifts⟩ := lifts_of_extract h
  have hle := hlifts.le
  have hin := hlifts.inside
  have hstart := hlifts.start
  -- the line of the anchor has a character that is no white space
  have hfirst : ∀ first ∈ (span content.splitLines i k).head?,
      ∃ c ∈ first, Text.isBlank c = false := by
    intro first hmem
    obtain ⟨raw, hraw, hocc⟩ := hstart.found
    rw [head?_span hle, hraw, Option.mem_some] at hmem
    subst hmem
    obtain ⟨c, hc, hnot⟩ := hword
    exact ⟨c, hocc.subset hc, hnot⟩
  rw [hlifts.lines_eq, BlockStyle.length_restyle, length_span hin]
  refine ⟨i, hstart, fun hinside => ?_, fun hnot => ?_⟩
  · exact BlockStyle.isEnded_of_mem_restyle hmarker hfirst
      (isEnded_of_endsInside hle hin hinside)
  · obtain ⟨earlier, last, hspan, hearlier, hlast⟩ :=
      span_of_not_endsInside hle hin hnot
    obtain ⟨shown, hshown, hnewline⟩ :=
      BlockStyle.restyle_snoc_of_notMem hmarker earlier hlast
    rw [hspan] at hfirst ⊢
    refine ⟨_, shown, hshown, ?_, hnewline⟩
    refine BlockStyle.isEnded_of_mem_restyle hmarker ?_ hearlier
    intro first hmem
    refine hfirst first ?_
    rw [List.head?_append, Option.mem_def.1 hmem]
    rfl

end Block

end BraceLift
