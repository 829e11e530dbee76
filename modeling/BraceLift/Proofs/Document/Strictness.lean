/-
Strict and lenient layouts of the same parts.

A layout that differs from another in its strictness alone gives the same
document and the same records wherever the block closes, and fails in the
same way wherever there is no block. Only a block that never closes sets
the two apart: the strict layout refuses it before the tail is looked at,
so neither a record nor an error of the tail is ever seen
(`strict_eq_lenient_but_truncated`). The regions are any functions at
all; nothing is used of them but what they come to.
-/
import BraceLift.Proofs.Document.Compose

namespace BraceLift.Layout

/-- The layout that refuses a block that never closes. -/
def strictly (layout : Layout) : Layout :=
  { layout with strict := true }

/-- The layout that keeps a block that never closes. -/
def leniently (layout : Layout) : Layout :=
  { layout with strict := false }

variable (layout : Layout) (lines : List Line)

/-- Strictness has no part in what follows the block. -/
theorem follows_strictly {after : List Line} :
    layout.strictly.Follows lines after
      ↔ layout.leniently.Follows lines after := by
  rw [← value_tailLines_eq_ok_iff, ← value_tailLines_eq_ok_iff]
  exact Iff.rfl

theorem follows_leniently {after : List Line} :
    layout.leniently.Follows lines after ↔ layout.Follows lines after := by
  rw [← value_tailLines_eq_ok_iff, ← value_tailLines_eq_ok_iff]
  exact Iff.rfl

variable {lines}

/-- The strict layout gives the documents of the lenient one whose block
closes. -/
theorem strictly_eq_ok_iff (document : Document) :
    (layout.strictly.compose lines).value = .ok document
      ↔ (layout.leniently.compose lines).value = .ok document
        ∧ document.blockEnding = .closed := by
  rw [compose_eq_ok_iff, compose_eq_ok_iff]
  constructor
  · intro hall
    obtain ⟨block, after, hblock, haccept, hfollows, rfl⟩ := hall
    exact ⟨⟨block, after, hblock, fun h => (by cases h),
      (layout.follows_strictly lines).1 hfollows, rfl⟩, haccept rfl⟩
  · intro hall
    obtain ⟨⟨block, after, hblock, -, hfollows, rfl⟩, hclosed⟩ := hall
    exact ⟨block, after, hblock, fun _ => hclosed,
      (layout.follows_strictly lines).2 hfollows, rfl⟩

theorem compose_strictly_of_error {e : ExcerptError}
    (h : (layout.block lines).value = .error e) :
    layout.strictly.compose lines = layout.leniently.compose lines := by
  have hstrict : (layout.strictly.block lines).value = .error e := h
  have hlenient : (layout.leniently.block lines).value = .error e := h
  rw [compose_of_error hstrict, compose_of_error hlenient]
  rfl

theorem compose_strictly_of_closed {block : Excerpt}
    (h : (layout.block lines).value = .ok block)
    (hclosed : block.ending = .closed) :
    layout.strictly.compose lines = layout.leniently.compose lines := by
  have hstrict : (layout.strictly.block lines).value = .ok block := h
  have hlenient : (layout.leniently.block lines).value = .ok block := h
  rw [compose_of_closed hstrict hclosed, compose_of_closed hlenient hclosed]
  rfl

theorem compose_strictly_of_truncated {block : Excerpt}
    (h : (layout.block lines).value = .ok block)
    (hopen : block.ending = .truncated) :
    layout.strictly.compose lines
      = ⟨.error (.unterminated block.anchor block.lines.length),
          (layout.block lines).records⟩ := by
  have hstrict : (layout.strictly.block lines).value = .ok block := h
  rw [compose_of_refused hstrict rfl hopen]
  rfl

variable (lines)

/-- For every layout and all lines: the strict layout gives a document if
and only if the lenient one gives it and its block closes. Without a
block, or with one that closes, the two agree in the result and in the
records. A block that never closes fails the strict one with the anchor
and the number of its lines, whatever the tail, and leaves no record but
its own. A document of either has the preamble, the block, a newline and
what follows, and counts the lines of block and tail. -/
theorem strict_eq_lenient_but_truncated :
    (∀ document, (layout.strictly.compose lines).value = .ok document
        ↔ (layout.leniently.compose lines).value = .ok document
          ∧ document.blockEnding = .closed)
      ∧ (∀ e, (layout.block lines).value = .error e →
          layout.strictly.compose lines = layout.leniently.compose lines)
      ∧ (∀ block, (layout.block lines).value = .ok block →
          block.ending = .closed →
          layout.strictly.compose lines = layout.leniently.compose lines)
      ∧ (∀ block, (layout.block lines).value = .ok block →
          block.ending = .truncated →
          layout.strictly.compose lines
            = ⟨.error (.unterminated block.anchor block.lines.length),
                (layout.block lines).records⟩)
      ∧ ∀ document,
          (layout.strictly.compose lines).value = .ok document
            ∨ (layout.leniently.compose lines).value = .ok document →
          ∃ block after, (layout.block lines).value = .ok block
            ∧ layout.Follows lines after
            ∧ document.text = layout.preamble.flatten ++ block.lines.flatten
                ++ ['\n'] ++ after.flatten
            ∧ document.blockEnding = block.ending
            ∧ document.blockLines = block.lines.length
            ∧ document.tailLines = after.length := by
  refine ⟨layout.strictly_eq_ok_iff,
    fun _ => layout.compose_strictly_of_error,
    fun _ => layout.compose_strictly_of_closed,
    fun _ => layout.compose_strictly_of_truncated, ?_⟩
  intro document heither
  -- a document of the strict layout is one of the lenient layout, too
  have hlenient : (layout.leniently.compose lines).value = .ok document :=
    heither.elim (fun h => ((layout.strictly_eq_ok_iff document).1 h).1) id
  obtain ⟨block, after, hblock, -, hfollows, rfl⟩ :=
    compose_eq_ok_iff.1 hlenient
  refine ⟨block, after, hblock, (layout.follows_leniently lines).1 hfollows,
    ?_, rfl, rfl, rfl⟩
  show layout.preamble.flatten ++ block.lines.flatten
      ++ '\n' :: after.flatten = _
  rw [List.append_cons]

end BraceLift.Layout
