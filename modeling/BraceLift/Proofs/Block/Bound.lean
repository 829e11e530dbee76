/-
How deep a block can be.

The depth is counted in the lines as they were read, while what is held is
the lines as they are shown. Showing a line takes white space from it and
may put a marker in front, so no brace is lost (`total_le_shown`), even if
the marker brings braces of its own. A push therefore moves the depth by no
more than the braces that it adds to what is held, and after any number of
pushes the depth is within the number of braces held
(`natAbs_depth_le_pushAll`), and this within their bytes.

What a push does is told once (`push_cases`): it leaves the scan alone or
captures the line in its shown form.
-/
import BraceLift.Proofs.Block.Conserved
import BraceLift.Proofs.Block.Phases

namespace BraceLift

namespace BraceTally

/-- The number of braces. -/
def total (tally : BraceTally) : Nat :=
  tally.opening + tally.closing

theorem total_append (s t : Text) :
    (ofText (s ++ t)).total = (ofText s).total + (ofText t).total := by
  rw [ofText_append]
  simp only [total]
  omega

/-- Any part of a text has no more braces than all of it. -/
theorem total_le_append_right (s t : Text) :
    (ofText t).total ≤ (ofText (s ++ t)).total := by
  rw [total_append]
  omega

/-- A depth is within the number of braces. -/
theorem natAbs_net_le (tally : BraceTally) :
    tally.net.natAbs ≤ tally.total := by
  simp only [net, total]
  omega

/-- Each brace takes a byte. -/
theorem total_le_byteCount (t : Text) : (ofText t).total ≤ t.byteCount := by
  induction t with
  | nil => exact Nat.le_refl _
  | cons c rest ih =>
      have hone : (ofText [c]).total ≤ 1 := by
        rw [ofText_eq_counts]
        by_cases ho : c = opener
        · subst ho
          decide
        · simp only [total, List.count_singleton, beq_iff_eq, if_neg ho]
          split <;> omega
      have hbytes : Text.byteCount (c :: rest)
          = c.utf8Size + Text.byteCount rest := rfl
      have hsize := c.utf8Size_pos
      rw [← List.singleton_append, total_append, List.singleton_append, hbytes]
      omega

end BraceTally

open BraceTally (ofText)

-- ============================================================= shown lines

/-- A published line has every brace of the raw line. -/
theorem Line.Published.total_le {marker : Text} {raw shown : Line}
    (h : Published marker raw shown) :
    (ofText raw).total ≤ (ofText shown).total := by
  obtain ⟨blanks, body, rfl, hblank, -, hshown⟩ := h
  rw [BraceTally.ofText_append_of_braceless
    (BraceTally.braceless_of_blank hblank)]
  rcases hshown with ⟨-, rfl⟩ | ⟨-, rfl⟩
  · exact Nat.le_refl _
  · rw [List.append_cons]
    exact BraceTally.total_le_append_right _ _

namespace Capture

/-- The number of braces in the captured lines, as they are shown. -/
def braces (held : Capture) : Nat :=
  (ofText held.lines.flatten).total

/-- The number of bytes that the captured lines take. -/
def bytes (held : Capture) : Nat :=
  Text.byteCount held.lines.flatten

theorem braces_le_bytes (held : Capture) : held.braces ≤ held.bytes :=
  BraceTally.total_le_byteCount _

@[simp] theorem braces_add (held : Capture) (shown raw : Line) :
    (held.add shown raw).braces = held.braces + (ofText shown).total := by
  simp [braces, BraceTally.total_append]

@[simp] theorem bytes_add (held : Capture) (shown raw : Line) :
    (held.add shown raw).bytes = held.bytes + shown.byteCount := by
  simp [bytes]

end Capture

namespace BlockScan

-- ================================================================ one push

/-- Whether a push captures the line. -/
def captures (scan : BlockScan) (line : Line) : Bool :=
  match scan.progress with
  | .searching => scan.anchor.occursIn line
  | .capturing _ => true
  | .closed _ => false

/-- The form in which a line is captured. -/
def shown (scan : BlockScan) (line : Line) : Line :=
  match scan.progress with
  | .searching => line.publish scan.style.publicMarker
  | _ => line.outdent scan.style.dedentWidth

/-- A push leaves the scan alone, or it captures the line in its shown
form. -/
theorem push_cases (scan : BlockScan) (line : Line) :
    (scan.captures line = false ∧ (scan.push line).value = scan)
      ∨ (scan.captures line = true
        ∧ (scan.push line).value = (scan.settle
          (scan.progress.held.add (scan.shown line) line)).value) := by
  unfold captures shown push
  cases hprog : scan.progress with
  | searching =>
      cases hocc : scan.anchor.occursIn line with
      | false => exact .inl ⟨rfl, rfl⟩
      | true => exact .inr ⟨rfl, rfl⟩
  | capturing held => exact .inr ⟨rfl, rfl⟩
  | closed held => exact .inl ⟨rfl, rfl⟩

/-- No brace of a line is lost when it is shown. -/
theorem total_le_shown (scan : BlockScan) (line : Line) :
    (ofText line).total ≤ (ofText (scan.shown line)).total := by
  unfold shown
  split
  · exact (Line.published_publish _ _).total_le
  · rw [(Line.outdented_outdent _ _).ofText_eq]

/-- What a push captures is held then. -/
theorem held_push_of_captures {scan : BlockScan} {line : Line}
    (h : scan.captures line = true) :
    (scan.push line).value.progress.held
      = scan.progress.held.add (scan.shown line) line := by
  rcases scan.push_cases line with ⟨hnot, -⟩ | ⟨-, hpush⟩
  · rw [h] at hnot
    cases hnot
  · rw [hpush, held_settle]

/-- A push keeps the depth within the braces held. -/
theorem natAbs_depth_le_push {scan : BlockScan}
    (h : scan.depth.natAbs ≤ scan.progress.held.braces) (line : Line) :
    (scan.push line).value.depth.natAbs
      ≤ (scan.push line).value.progress.held.braces := by
  rcases scan.push_cases line with ⟨-, hpush⟩ | ⟨hcaptures, -⟩
  · rwa [hpush]
  · have hnet := (ofText line).natAbs_net_le
    have hshown := scan.total_le_shown line
    have hdepth : (scan.push line).value.depth
        = scan.depth + (ofText line).net := by
      rw [depth, held_push_of_captures hcaptures]
      rfl
    rw [hdepth, held_push_of_captures hcaptures, Capture.braces_add]
    omega

-- ============================================================== any pushes

/-- Any number of pushes keep the depth within the braces held. -/
theorem natAbs_depth_le_pushAll {scan : BlockScan}
    (h : scan.depth.natAbs ≤ scan.progress.held.braces)
    (lines : List Line) :
    (scan.pushAll lines).value.depth.natAbs
      ≤ (scan.pushAll lines).value.progress.held.braces := by
  induction lines generalizing scan with
  | nil => exact h
  | cons line rest ih => exact ih (natAbs_depth_le_push h line)

/-- A push lets go of nothing that is held. -/
theorem bytes_le_push (scan : BlockScan) (line : Line) :
    scan.progress.held.bytes ≤ (scan.push line).value.progress.held.bytes := by
  rcases scan.push_cases line with ⟨-, hpush⟩ | ⟨hcaptures, -⟩
  · rw [hpush]
  · rw [held_push_of_captures hcaptures, Capture.bytes_add]
    omega

/-- Nor do any number of pushes. -/
theorem bytes_le_pushAll (scan : BlockScan) (lines : List Line) :
    scan.progress.held.bytes
      ≤ (scan.pushAll lines).value.progress.held.bytes := by
  induction lines generalizing scan with
  | nil => exact Nat.le_refl _
  | cons line rest ih =>
      exact Nat.le_trans (scan.bytes_le_push line) (ih _)

end BlockScan

end BraceLift
