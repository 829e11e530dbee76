/-
A block lifted out of its own excerpt.

The lines of an excerpt are a text like any other, and the block at the
same anchor can be lifted out of them in turn. With no blanks left to take
away, this gives the excerpt back (`extract_again`), given three things.
The anchor does not start with white space, so the white space that
publishing takes from its line is not part of it (`infix_publish`). The
marker does not start with white space, so publishing a line twice is
publishing it once (`publish_publish`). And the marker has no brace, so
the lines as they are shown close where the raw lines did.
-/
import BraceLift.Proofs.Block.Conserved

namespace BraceLift

open BraceTally (Braceless)

namespace Text

/-- What does not start with white space is not in white space that stands
in front. -/
theorem infix_of_blank_append {part blanks body : Text}
    (hpart : ∃ c, part.head? = some c ∧ isBlank c = false)
    (hblank : ∀ c ∈ blanks, isBlank c = true)
    (h : part <:+: blanks ++ body) : part <:+: body := by
  induction blanks with
  | nil => exact h
  | cons b blanks ih =>
      obtain ⟨hb, hrest⟩ := List.forall_mem_cons.1 hblank
      rcases List.infix_cons_iff.1 h with hfront | hbehind
      · -- the part would start with the white space `b`
        obtain ⟨c, hc, hnot⟩ := hpart
        obtain ⟨tail, rfl⟩ := List.head?_eq_some_iff.1 hc
        obtain ⟨rfl, -⟩ := List.cons_prefix_cons.1 hfront
        rw [hb] at hnot
        cases hnot
      · exact ih hrest hbehind

end Text

namespace Line

variable {marker : Text} {raw : Line}

-- ======================================================= a published line

/-- A published line starts with the marker. -/
theorem prefix_publish (marker : Text) (raw : Line) :
    marker <+: raw.publish marker := by
  obtain ⟨blanks, body, -, -, -, hshown⟩ := published_publish marker raw
  rcases hshown with ⟨hfront, hshown⟩ | ⟨-, hshown⟩
  · rw [hshown]
    exact hfront
  · rw [hshown]
    exact List.prefix_append _ _

/-- Publishing keeps what does not start with white space. -/
theorem infix_publish {part : Text}
    (hpart : ∃ c, part.head? = some c ∧ Text.isBlank c = false)
    (h : part <:+: raw) : part <:+: raw.publish marker := by
  obtain ⟨blanks, body, rfl, hblank, -, hshown⟩ := published_publish marker raw
  have hbody := Text.infix_of_blank_append hpart hblank h
  rcases hshown with ⟨-, hshown⟩ | ⟨-, hshown⟩
  · rw [hshown]
    exact hbody
  · rw [hshown, List.append_cons]
    exact hbody.trans (List.suffix_append _ _).isInfix

/-- A line that starts with the marker and not with white space is already
published. -/
theorem publish_eq_self (hfront : marker <+: raw)
    (hword : ∀ c, raw.head? = some c → Text.isBlank c = false) :
    raw.publish marker = raw := by
  unfold publish
  rw [Text.trimStart_eq_self hword]
  exact if_pos (List.isPrefixOf_iff_prefix.2 hfront)

/-- Publishing with a marker that does not start with white space is done
once and for all. -/
theorem publish_publish
    (hmarker : ∀ c, marker.head? = some c → Text.isBlank c = false)
    (raw : Line) :
    (raw.publish marker).publish marker = raw.publish marker := by
  refine publish_eq_self (prefix_publish marker raw) ?_
  obtain ⟨blanks, body, -, -, hbody, hshown⟩ := published_publish marker raw
  rcases hshown with ⟨-, hshown⟩ | ⟨hnot, hshown⟩
  · rw [hshown]
    exact hbody
  · -- the marker is not empty, for the empty one stands in front anyway
    cases marker with
    | nil => exact absurd List.nil_prefix hnot
    | cons m rest =>
        rw [hshown]
        exact hmarker

/-- A marker that starts with white space is put in front again. -/
example : publish " pub".toList (publish " pub".toList "fn f".toList)
    = " pub pub fn f".toList := by decide

/-- There are always no blanks to take away. -/
theorem outdent_zero (raw : Line) : raw.outdent 0 = raw := rfl

end Line

namespace BlockStyle

/-- The style with the same marker that takes no blanks away. -/
def undented (style : BlockStyle) : BlockStyle :=
  { style with dedentWidth := 0 }

/-- Lines that were restyled once are not changed without blanks to take
away. -/
theorem undented_restyle {style : BlockStyle}
    (hmarker : ∀ c, style.publicMarker.head? = some c →
      Text.isBlank c = false) (raws : List Line) :
    style.undented.restyle (style.restyle raws) = style.restyle raws := by
  cases raws with
  | nil => rfl
  | cons first rest =>
      simp only [restyle, undented, List.cons.injEq]
      refine ⟨Line.publish_publish hmarker first, ?_⟩
      exact List.map_id'' Line.outdent_zero _

end BlockStyle

namespace Block

variable {block : Block} {lines : List Line} {i k : Nat} {excerpt : Excerpt}

-- ========================================================= a second time

/-- The first line of an excerpt is the line of the anchor, published. -/
theorem Lifts.first_line (h : block.Lifts lines i k excerpt) :
    ∃ (raw : Line) (rest : List Line), block.anchor <:+: raw
      ∧ excerpt.lines = raw.publish block.style.publicMarker :: rest := by
  obtain ⟨raw, hraw, hocc⟩ := h.start.found
  have hhead : (span lines i k).head? = some raw := by
    rw [head?_span h.le, hraw]
  obtain ⟨others, hspan⟩ := List.head?_eq_some_iff.1 hhead
  refine ⟨raw, others.map (Line.outdent block.style.dedentWidth), hocc, ?_⟩
  rw [h.lines_eq, hspan]
  rfl

/-- All lines of an excerpt, read as lines once more. -/
theorem Lifts.span_lines (h : block.Lifts lines i k excerpt) :
    span excerpt.lines 0 (k - i) = excerpt.lines := by
  unfold span
  rw [List.drop_zero, Nat.sub_zero]
  exact List.take_of_length_le (Nat.le_of_eq h.length_lines)

/-- The block lifted out of an excerpt is all of it. -/
theorem Lifts.again (h : block.Lifts lines i k excerpt)
    (hanchor : ∃ c, block.anchor.head? = some c ∧ Text.isBlank c = false)
    (hbraces : Braceless block.style.publicMarker)
    (hmarker : ∀ c, block.style.publicMarker.head? = some c →
      Text.isBlank c = false) :
    Lifts ⟨block.anchor, block.style.undented⟩ excerpt.lines 0 (k - i)
      excerpt := by
  have hspan := h.span_lines
  obtain ⟨raw, rest, hocc, hfirst⟩ := h.first_line
  refine ⟨⟨⟨_, by rw [hfirst]; rfl, ?_⟩, ?_⟩, Nat.zero_le _, ?_, h.anchor_eq,
    ?_, ?_, ?_, ?_⟩
  · exact Line.infix_publish hanchor hocc
  · exact fun j _ hj => absurd hj (Nat.not_lt_zero j)
  · rw [h.length_lines]
    exact Nat.lt_succ_self _
  · rw [hspan, h.lines_eq, BlockStyle.undented_restyle hmarker]
  · rw [hspan, h.depth_eq_nesting hbraces]
  · rw [hspan, Nat.sub_zero]
    exact h.closing?_lines hbraces
  · exact fun _ => h.length_lines.symm

/-- Take an excerpt of some lines. The anchor does not start with white
space, nor does the marker, which may be empty and has no brace. Lifted out
of the lines of the excerpt, with no blanks to take away, the block is the
same excerpt. Its first line still contains the anchor and starts with the
marker; if it is closed, its lines close with the last of them and no line
before, and if it is truncated, they never close. -/
theorem extract_again (block : Block) (lines : List Line) {excerpt : Excerpt}
    (hanchor : ∃ c, block.anchor.head? = some c ∧ Text.isBlank c = false)
    (hbraces : Braceless block.style.publicMarker)
    (hmarker : ∀ c, block.style.publicMarker.head? = some c →
      Text.isBlank c = false)
    (h : (block.extract lines).value = .ok excerpt) :
    ((Block.mk block.anchor ⟨0, block.style.publicMarker⟩).extract
        excerpt.lines).value = .ok excerpt
      ∧ (∃ first rest, excerpt.lines = first :: rest
        ∧ block.anchor <:+: first ∧ block.style.publicMarker <+: first)
      ∧ (excerpt.ending = .closed →
          IsClose excerpt.lines 0 (excerpt.lines.length - 1))
      ∧ (excerpt.ending = .truncated → ∀ j, ¬ Closes excerpt.lines 0 j) := by
  have hne := anchor_ne_nil_of_extract h
  obtain ⟨i, k, hlifts⟩ := lifts_of_extract h
  have hclosing := hlifts.closing?_lines hbraces
  refine ⟨?_, ?_, ?_, ?_⟩
  · exact (extract_eq_ok_iff ⟨block.anchor, block.style.undented⟩ hne).2
      ⟨0, k - i, hlifts.again hanchor hbraces hmarker⟩
  · obtain ⟨raw, rest, hocc, hfirst⟩ := hlifts.first_line
    exact ⟨_, rest, hfirst, Line.infix_publish hanchor hocc,
      Line.prefix_publish _ _⟩
  · intro hclosed
    rw [hclosed, ← List.drop_zero (l := excerpt.lines)] at hclosing
    have hclose := isClose_of_closing? hclosing
    rwa [Nat.zero_add, ← Nat.add_sub_cancel (k - i) 1,
      ← hlifts.length_lines] at hclose
  · intro htruncated
    rw [htruncated, ← List.drop_zero (l := excerpt.lines)] at hclosing
    exact not_closes_of_closing? hclosing

/-- A block that is indented by eight blanks and whose marker stands
there. -/
def indented : List Line :=
  ["        pub fn f \x7d\n".toList, "            x \x7b\n".toList]

/-- It loses four of its blanks once, and none the second time. -/
theorem extract_again_indented :
    (∃ c, "fn f".toList.head? = some c ∧ Text.isBlank c = false)
      ∧ Braceless BlockStyle.standard.publicMarker
      ∧ (∀ c, BlockStyle.standard.publicMarker.head? = some c →
          Text.isBlank c = false)
      ∧ ∃ excerpt, ((standard "fn f".toList).extract indented).value
          = .ok excerpt
        ∧ excerpt.lines
          = ["pub fn f \x7d\n".toList, "        x \x7b\n".toList]
        ∧ ((Block.mk "fn f".toList ⟨0, "pub".toList⟩).extract
            excerpt.lines).value = .ok excerpt := by
  have hanchor : ∃ c, "fn f".toList.head? = some c
      ∧ Text.isBlank c = false := ⟨'f', rfl, by decide⟩
  have hbraces : Braceless BlockStyle.standard.publicMarker := by
    constructor <;> decide
  have hmarker : ∀ c, BlockStyle.standard.publicMarker.head? = some c →
      Text.isBlank c = false := by
    intro c hc
    obtain rfl := Option.some.inj hc
    decide
  have hvalue : ((standard "fn f".toList).extract indented).value
      = .ok ⟨"fn f".toList,
          ["pub fn f \x7d\n".toList, "        x \x7b\n".toList],
          .closed, 0⟩ := rfl
  exact ⟨hanchor, hbraces, hmarker, _, hvalue, rfl,
    (extract_again (standard "fn f".toList) indented hanchor hbraces hmarker
      hvalue).1⟩

end Block

end BraceLift
