/-
What a reader of a document finds: its text, cut into lines again.

A document is meant to read as its preamble, the lines of the block, an
empty line and the lines that follow. It does so if and only if the block
ends inside the source, or the source ends with a newline
(`reader_finds_layout_iff`). The newline written behind the block is an
empty line only where the block's own last line has one; where the block
takes the source to an end without a newline, it ends that line instead,
and no empty line stands in front of what follows
(`reader_finds_no_empty_line`).

The tail plays no part in this: what it keeps is lines as cut, and it
comes last.
-/
import BraceLift.Proofs.Block.Ends
import BraceLift.Proofs.Document.Compose
import BraceLift.Proofs.Tail.Kept

namespace BraceLift

open Text

namespace Layout

-- ============================================================ the tail

/-- What follows the block in the document of a job is lines as cut. -/
theorem areCut_of_follows {job : Job} {lines after : List Line}
    (hlines : AreCut lines) (h : (ofJob job).Follows lines after) :
    AreCut after := by
  cases h with
  | absent _ => exact .nil
  | missing _ _ => exact .nil
  | found htail hregion =>
      obtain ⟨anchor, -, rfl⟩ := Option.map_eq_some_iff.1 htail
      obtain ⟨-, start, -, rfl⟩ := Tail.extract_eq_ok_iff.1 hregion
      exact Tail.areCut_keep (Tail.keepsLines_standard anchor)
        (hlines.sublist (List.drop_sublist _ _))

-- ============================================================ the text

/-- A text that ends with a newline, ended lines and lines as cut, one
after the other, are cut into just these. -/
theorem splitLines_parts {start : Text} (hstart : ['\n'] <:+ start)
    {ended after : List Line} (hended : ∀ line ∈ ended, line.IsEnded)
    {middle : Line} (hmiddle : middle.IsEnded) (hafter : AreCut after) :
    (start ++ (ended.flatten ++ (middle ++ after.flatten))).splitLines
      = start.splitLines ++ (ended ++ middle :: after) := by
  rw [splitLines_append (.inr hstart), splitLines_flatten_append hended,
    splitLines_append_of_isEnded hmiddle, splitLines_flatten hafter]

/-- A newline alone is an ended line. -/
theorem isEnded_newline : Line.IsEnded ['\n'] :=
  ⟨[], List.not_mem_nil, rfl⟩

variable {job : Job} {ending : Ending} {block after : List Line}

/-- The preamble of a job ends with an empty line. -/
theorem newline_suffix_preamble (job : Job) :
    ['\n'] <:+ (ofJob job).preamble.flatten := by
  show ['\n'] <:+ standardPreamble.flatten
  decide

/-- With all its lines ended, the block has an empty line behind it. -/
theorem splitLines_document_of_isEnded
    (hblock : ∀ line ∈ block, line.IsEnded) (hafter : AreCut after) :
    ((ofJob job).document ending block after).text.splitLines
      = splitLines standardPreamble.flatten ++ block ++ [['\n']] ++ after := by
  have hparts := splitLines_parts (newline_suffix_preamble job)
    hblock isEnded_newline hafter
  simpa [document, ofJob] using hparts

/-- The newline behind the block ends its last line if that has none. -/
theorem splitLines_document_of_notMem {earlier : List Line} {last : Line}
    (hearlier : ∀ line ∈ earlier, line.IsEnded) (hlast : '\n' ∉ last)
    (hafter : AreCut after) :
    ((ofJob job).document ending (earlier ++ [last]) after).text.splitLines
      = splitLines standardPreamble.flatten ++ earlier ++ [last ++ ['\n']]
        ++ after := by
  have hparts := splitLines_parts (newline_suffix_preamble job)
    hearlier ⟨last, hlast, rfl⟩ hafter
  simpa [document, ofJob] using hparts

end Layout

-- ======================================================== the document

open Layout

/-- Take a job whose anchor is not all white space and whose marker has no
newline. The lines of its document are those of the preamble, of the
block, an empty line and what follows if and only if the block ends inside
the source. If it does not, its last line takes the newline that was meant
for the empty one. -/
theorem reader_finds_layout_iff (job : Job) (content : Text)
    {document : Document}
    (hword : ∃ c ∈ job.functionAnchor, isBlank c = false)
    (hmarker : '\n' ∉ job.publicMarker)
    (h : ((ofJob job).compose content.splitLines).value = .ok document) :
    ∃ i block after, Block.IsStart job.functionAnchor content.splitLines i
      ∧ ((ofJob job).block content.splitLines).value = .ok block
      ∧ (ofJob job).Follows content.splitLines after
      ∧ document.blockLines = block.lines.length
      ∧ document.tailLines = after.length
      ∧ (document.text.splitLines
            = splitLines standardPreamble.flatten ++ block.lines ++ [['\n']]
              ++ after
          ↔ Block.EndsInside content i block.lines.length)
      ∧ (¬ Block.EndsInside content i block.lines.length →
          ∃ earlier last, block.lines = earlier ++ [last] ∧ '\n' ∉ last
            ∧ document.text.splitLines
              = splitLines standardPreamble.flatten ++ earlier
                ++ [last ++ ['\n']] ++ after) := by
  obtain ⟨block, after, hblock, -, hfollows, rfl⟩ := compose_eq_ok_iff.1 h
  have hafter := areCut_of_follows (areCut_splitLines content) hfollows
  obtain ⟨i, hstart, hinside, hreaches⟩ :=
    Block.ends_of_extract ⟨job.functionAnchor, _⟩ hmarker hword hblock
  have hopen : ¬ Block.EndsInside content i block.lines.length →
      ∃ earlier last, block.lines = earlier ++ [last] ∧ '\n' ∉ last
        ∧ ((ofJob job).document block.ending block.lines
            after).text.splitLines
          = splitLines standardPreamble.flatten ++ earlier
            ++ [last ++ ['\n']] ++ after := by
    intro hnot
    obtain ⟨earlier, last, hlines, hearlier, hlast⟩ := hreaches hnot
    refine ⟨earlier, last, hlines, hlast, ?_⟩
    rw [hlines, splitLines_document_of_notMem hearlier hlast hafter]
  refine ⟨i, block, after, hstart, hblock, hfollows, rfl, rfl, ⟨?_, ?_⟩,
    hopen⟩
  · intro hlayout
    by_contra hnot
    obtain ⟨earlier, last, hlines, -, htext⟩ := hopen hnot
    rw [htext, hlines] at hlayout
    -- one line against two in the same place
    have hlength := congrArg List.length hlayout
    simp only [List.length_append, List.length_singleton] at hlength
    omega
  · intro hin
    exact splitLines_document_of_isEnded (hinside hin) hafter

/-- A source without a newline at its end, whose block ends before its
last line. -/
def endsInside : Text :=
  "fn should_build_sequence() \x7b\n\x7d\nfn build_sequence() \x7b\x7d".toList

/-- The standard job makes a document of it that reads as it is meant
to. -/
theorem reader_finds_layout_endsInside :
    (∃ c ∈ Job.standard.functionAnchor, isBlank c = false)
      ∧ '\n' ∉ Job.standard.publicMarker
      ∧ ∃ document block after,
        ((ofJob .standard).compose endsInside.splitLines).value = .ok document
        ∧ ((ofJob .standard).block endsInside.splitLines).value = .ok block
        ∧ (ofJob .standard).Follows endsInside.splitLines after
        ∧ document.text.splitLines
          = splitLines standardPreamble.flatten ++ block.lines ++ [['\n']]
            ++ after := by
  have hword : ∃ c ∈ Job.standard.functionAnchor, isBlank c = false :=
    ⟨'f', by decide, by decide⟩
  have hmarker : '\n' ∉ Job.standard.publicMarker := by decide
  have hcompose : ((ofJob .standard).compose endsInside.splitLines).value
      = .ok ((ofJob .standard).document .closed
          ["pub fn should_build_sequence() \x7b\n".toList, "\x7d\n".toList]
          ["fn build_sequence() \x7b\x7d".toList]) := rfl
  obtain ⟨i, block, after, hstart, hblock, hfollows, hsize, -, hiff, -⟩ :=
    reader_finds_layout_iff .standard endsInside hword hmarker hcompose
  refine ⟨hword, hmarker, _, block, after, hcompose, hblock, hfollows,
    hiff.2 (.inr ?_)⟩
  have hidx : endsInside.splitLines.findIdx?
      Job.standard.functionAnchor.occursIn = some 0 := rfl
  have hi : some i = some 0 :=
    ((Block.isStart_iff _ _ _).1 hstart).symm.trans hidx
  have hcount : endsInside.splitLines.length = 3 := rfl
  have htwo : 2 = block.lines.length := hsize
  rw [Option.some.inj hi, ← htwo, hcount]
  decide

/-- A source without a newline at its end, whose block is its last
line. -/
def reachesEnd : Text :=
  "fn build_sequence() \x7b\x7d\nfn should_build_sequence() \x7b\x7d".toList

/-- In the document that the standard job makes of it, no empty line
stands between the block and what follows. -/
theorem reader_finds_no_empty_line :
    (∃ c ∈ Job.standard.functionAnchor, isBlank c = false)
      ∧ '\n' ∉ Job.standard.publicMarker
      ∧ ∃ document block after,
        ((ofJob .standard).compose reachesEnd.splitLines).value = .ok document
        ∧ ((ofJob .standard).block reachesEnd.splitLines).value = .ok block
        ∧ (ofJob .standard).Follows reachesEnd.splitLines after
        ∧ document.text.splitLines
          ≠ splitLines standardPreamble.flatten ++ block.lines ++ [['\n']]
            ++ after := by
  refine ⟨⟨'f', by decide, by decide⟩, by decide,
    (ofJob .standard).document .closed
      ["pub fn should_build_sequence() \x7b\x7d".toList] reachesEnd.splitLines,
    _, _, rfl, rfl, .found rfl rfl, ?_⟩
  decide

end BraceLift
