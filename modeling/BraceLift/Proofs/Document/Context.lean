/-
A source that grows at both ends.

Lines in front of the anchors do not matter, and lines behind a block that
has closed do not matter to the block; to the tail, lines at the end add
just what they come to on their own (`Job.carried`), since the tail takes
each line apart from the others. So the document of a source in the midst
of others is its own document with something appended
(`compose_in_context`).

The scan is used through `Progress.after` and the tail through
`Tail.keep`: the first does not change with lines in front
(`after_append_left`) nor, once closed, with lines behind
(`after_append_right`), the second distributes over them
(`keep_append`). Contents come in only at the end, where a content that
ends with a newline is cut apart from what follows it.
-/
import BraceLift.Proofs.Block.Extent
import BraceLift.Proofs.Document.Compose
import BraceLift.Proofs.Text.LineEnds

namespace BraceLift

-- =========================================================== the block

namespace Progress

variable (anchor : Text) (style : BlockStyle)

/-- Lines without the anchor in front are passed over. -/
theorem after_append_left {before : List Line}
    (hnone : before.findIdx? anchor.occursIn = none) (lines : List Line) :
    after anchor style (before ++ lines) = after anchor style lines := by
  unfold after
  rw [List.findIdx?_append, hnone, Option.none_or]
  cases lines.findIdx? anchor.occursIn with
  | none => rfl
  | some i =>
      have hdrop : (before ++ lines).drop (i + before.length)
          = lines.drop i := by
        rw [Nat.add_comm, List.drop_length_add_append]
      simp only [Option.map_some, hdrop]

variable {anchor style}

theorem after_snoc_of_isClosed {lines : List Line}
    (hclosed : (after anchor style lines).isClosed = true) (line : Line) :
    after anchor style (lines ++ [line]) = after anchor style lines := by
  cases hidx : lines.findIdx? anchor.occursIn with
  | none => simp [after, hidx, isClosed] at hclosed
  | some i =>
      cases hclose : Block.closing? (lines.drop i) with
      | none => simp [after, hidx, hclose, isClosed] at hclosed
      | some k =>
          rw [after_snoc_closed _ _ line hidx hclose, after]
          simp only [hidx, hclose]

/-- Once the block has closed, lines behind change nothing. -/
theorem after_append_right {lines : List Line}
    (hclosed : (after anchor style lines).isClosed = true)
    (more : List Line) :
    after anchor style (lines ++ more) = after anchor style lines := by
  induction more generalizing lines with
  | nil => rw [List.append_nil]
  | cons line rest ih =>
      have hstep := after_snoc_of_isClosed hclosed line
      rw [List.append_cons, ih (by rwa [hstep]), hstep]

/-- Only a scan that has closed amounts to a closed excerpt. -/
theorem isClosed_of_amount {progress : Progress} {excerpt : Excerpt}
    (h : progress.amount anchor = .ok excerpt)
    (hclosed : excerpt.ending = .closed) : progress.isClosed = true := by
  cases progress with
  | searching => cases h
  | capturing held =>
      cases h
      cases hclosed
  | closed held => rfl

end Progress

/-- A block that closes is the same among other lines. -/
theorem Block.extract_in_context (block : Block) {before lines : List Line}
    {excerpt : Excerpt}
    (hnone : before.findIdx? block.anchor.occursIn = none)
    (h : (block.extract lines).value = .ok excerpt)
    (hclosed : excerpt.ending = .closed) (more : List Line) :
    (block.extract (before ++ lines ++ more)).value = .ok excerpt := by
  have hne := anchor_ne_nil_of_extract h
  rw [value_extract block hne] at h ⊢
  rw [List.append_assoc, Progress.after_append_left _ _ hnone,
    Progress.after_append_right (Progress.isClosed_of_amount h hclosed), h]

-- ============================================================ the tail

namespace Tail

variable (tail : Tail)

/-- Each line is kept or dropped, and changed, on its own. -/
theorem keep_append (xs ys : List Line) :
    tail.keep (xs ++ ys) = tail.keep xs ++ tail.keep ys := by
  rw [keep, List.filter_append, List.map_append]
  rfl

/-- A tail that is found goes on with what is kept of the lines behind. -/
theorem extract_in_context {before lines : List Line} {excerpt : Excerpt}
    (hnone : before.findIdx? tail.anchor.occursIn = none)
    (h : (tail.extract lines).value = .ok excerpt) (more : List Line) :
    (tail.extract (before ++ lines ++ more)).value
      = .ok (.complete tail.anchor (excerpt.lines ++ tail.keep more)) := by
  obtain ⟨hne, start, hidx, rfl⟩ := extract_eq_ok_iff.1 h
  obtain ⟨hstart, -, -⟩ := List.findIdx?_eq_some_iff_getElem.1 hidx
  have hgrown : (before ++ (lines ++ more)).findIdx? tail.anchor.occursIn
      = some (start + before.length) := by
    rw [List.findIdx?_append, hnone, List.findIdx?_append, hidx]
    rfl
  rw [List.append_assoc, value_extract_found hne hgrown, Nat.add_comm,
    List.drop_length_add_append,
    List.drop_append_of_le_length (Nat.le_of_lt hstart), keep_append]
  rfl

/-- A tail whose anchor is in some line is not missing. -/
theorem not_missing {lines : List Line} {anchor : Text}
    (hin : ∃ line ∈ lines, tail.anchor <:+: line) :
    (tail.extract lines).value ≠ .error (.anchorNotFound anchor) := by
  intro h
  by_cases hne : tail.anchor = []
  · rw [value_extract_nil hne] at h
    cases h
  · cases hidx : lines.findIdx? tail.anchor.occursIn with
    | none =>
        obtain ⟨line, hline, hocc⟩ := hin
        exact (Block.findIdx?_occursIn_eq_none_iff _ _).1 hidx line hline hocc
    | some start =>
        rw [value_extract_found hne hidx] at h
        cases h

end Tail

/-- What lines at the end of its source add to the document of a job:
nothing if it has no tail; else the lines that are no imports, with the
macro called by its bare name. -/
def Job.carried (job : Job) (more : List Line) : List Line :=
  match job.tailAnchor with
  | none => []
  | some _ =>
      (more.filter fun line => !("use ".toList).isPrefixOf line.trim).map
        fun line => line.replaceAll "bitflags::bitflags!".toList
          "bitflags!".toList

theorem Tail.keep_standard (anchor : Text) (lines : List Line) :
    (standard anchor).keep lines
      = (lines.filter fun line => !("use ".toList).isPrefixOf line.trim).map
          fun line => line.replaceAll "bitflags::bitflags!".toList
            "bitflags!".toList := by
  have hdrops : (fun line => !(standard anchor).drops line)
      = fun line => !("use ".toList).isPrefixOf line.trim := by
    funext line
    simp [drops, standard, importOpening]
  rw [keep, hdrops]
  rfl

-- ======================================================== the document

namespace Layout

variable {job : Job} {before lines : List Line}

/-- What follows the block goes on with what the lines behind carry. -/
theorem follows_in_context {after : List Line}
    (hanchor : ∀ anchor, job.tailAnchor = some anchor →
      before.findIdx? anchor.occursIn = none
        ∧ ∃ line ∈ lines, anchor <:+: line)
    (h : (ofJob job).Follows lines after) (more : List Line) :
    (ofJob job).Follows (before ++ lines ++ more)
      (after ++ job.carried more) := by
  cases h with
  | absent htail =>
      have hnone : job.tailAnchor = none := Option.map_eq_none_iff.1 htail
      rw [Job.carried, hnone]
      exact .absent htail
  | missing htail hregion =>
      obtain ⟨anchor, hsome, rfl⟩ := Option.map_eq_some_iff.1 htail
      exact absurd hregion
        (Tail.not_missing (.standard anchor) (hanchor anchor hsome).2)
  | found htail hregion =>
      obtain ⟨anchor, hsome, rfl⟩ := Option.map_eq_some_iff.1 htail
      have hgrown := Tail.extract_in_context (.standard anchor)
        (hanchor anchor hsome).1 hregion more
      rw [Tail.keep_standard] at hgrown
      rw [Job.carried, hsome]
      exact .found htail hgrown

/-- The document of some lines among others is theirs, with something
appended. -/
theorem compose_append {document : Document}
    (hblock : before.findIdx? job.functionAnchor.occursIn = none)
    (hanchor : ∀ anchor, job.tailAnchor = some anchor →
      before.findIdx? anchor.occursIn = none
        ∧ ∃ line ∈ lines, anchor <:+: line)
    (h : ((ofJob job).compose lines).value = .ok document)
    (hclosed : document.blockEnding = .closed) (more : List Line) :
    ((ofJob job).compose (before ++ lines ++ more)).value
      = .ok { document with
          text := document.text ++ (job.carried more).flatten
          tailLines := document.tailLines + (job.carried more).length } := by
  obtain ⟨block, after, hexcerpt, haccept, hfollows, rfl⟩ :=
    compose_eq_ok_iff.1 h
  refine compose_eq_ok_iff.2 ⟨block, after ++ job.carried more, ?_, haccept,
    follows_in_context hanchor hfollows more, ?_⟩
  · exact Block.extract_in_context ⟨job.functionAnchor, _⟩ hblock hexcerpt
      hclosed more
  · simp [Layout.document]

/-- Take a content whose block closes and, if there is a tail, which has
its anchor. With whole lines without the anchors in front and any text
behind, the block stays the same, and the document is only appended to:
by what the text behind carries, line by line. -/
theorem compose_in_context (job : Job) (before content more : Text)
    (document : Document) (hbefore : before = [] ∨ ['\n'] <:+ before)
    (hcontent : ['\n'] <:+ content)
    (hblock : ∀ line ∈ before.splitLines, ¬ job.functionAnchor <:+: line)
    (htail : ∀ anchor, job.tailAnchor = some anchor →
      (∀ line ∈ before.splitLines, ¬ anchor <:+: line)
        ∧ ∃ line ∈ content.splitLines, anchor <:+: line)
    (h : ((ofJob job).compose content.splitLines).value = .ok document)
    (hclosed : document.blockEnding = .closed) :
    ∃ grown, ((ofJob job).compose
          (before ++ content ++ more).splitLines).value = .ok grown
      ∧ grown.blockEnding = document.blockEnding
      ∧ grown.blockLines = document.blockLines
      ∧ grown.text
        = document.text ++ (job.carried more.splitLines).flatten
      ∧ grown.tailLines
        = document.tailLines + (job.carried more.splitLines).length := by
  have hlines : (before ++ content ++ more).splitLines
      = before.splitLines ++ content.splitLines ++ more.splitLines := by
    rw [List.append_assoc, Text.splitLines_append hbefore,
      Text.splitLines_append (.inr hcontent), List.append_assoc]
  rw [hlines, compose_append
    ((Block.findIdx?_occursIn_eq_none_iff _ _).2 hblock)
    (fun anchor hsome => ⟨(Block.findIdx?_occursIn_eq_none_iff _ _).2
      (htail anchor hsome).1, (htail anchor hsome).2⟩) h hclosed]
  exact ⟨_, rfl, rfl, rfl, rfl, rfl⟩

/-- Lines in front: an import and a stray brace. -/
def inFront : Text := "use a;\n\x7d\n".toList

/-- A source in which the tail begins before the block. -/
def amidst : Text :=
  "fn build_sequence()\n fn should_build_sequence() \x7b\n \x7d\n".toList

/-- Text behind: an import, and an unfinished line that calls the macro. -/
def behind : Text := "use b;\nbitflags::bitflags!".toList

/-- The standard job goes through the lines in front, and of the text
behind it appends the call. -/
theorem compose_in_context_amidst :
    ['\n'] <:+ inFront ∧ ['\n'] <:+ amidst
      ∧ (∀ line ∈ inFront.splitLines,
          ¬ Job.standard.functionAnchor <:+: line)
      ∧ (∀ anchor, Job.standard.tailAnchor = some anchor →
          (∀ line ∈ inFront.splitLines, ¬ anchor <:+: line)
            ∧ ∃ line ∈ amidst.splitLines, anchor <:+: line)
      ∧ ∃ document,
        ((ofJob .standard).compose amidst.splitLines).value = .ok document
          ∧ document.blockEnding = .closed
          ∧ ∃ grown, ((ofJob .standard).compose
                (inFront ++ amidst ++ behind).splitLines).value = .ok grown
            ∧ grown.blockEnding = document.blockEnding
            ∧ grown.blockLines = document.blockLines
            ∧ grown.text = document.text ++ "bitflags!".toList
            ∧ grown.tailLines = document.tailLines + 1 := by
  have hfront : ['\n'] <:+ inFront := by decide
  have hamidst : ['\n'] <:+ amidst := by decide
  have hblock : ∀ line ∈ inFront.splitLines,
      ¬ Job.standard.functionAnchor <:+: line :=
    (Block.findIdx?_occursIn_eq_none_iff _ _).1 rfl
  have htail : ∀ anchor, Job.standard.tailAnchor = some anchor →
      (∀ line ∈ inFront.splitLines, ¬ anchor <:+: line)
        ∧ ∃ line ∈ amidst.splitLines, anchor <:+: line := by
    intro anchor hsome
    obtain rfl := Option.some.inj hsome
    exact ⟨(Block.findIdx?_occursIn_eq_none_iff _ _).1 rfl,
      "fn build_sequence()\n".toList, by decide, by decide⟩
  have hcompose : ((ofJob .standard).compose amidst.splitLines).value
      = .ok ((ofJob .standard).document .closed
          ["pub fn should_build_sequence() \x7b\n".toList, " \x7d\n".toList]
          amidst.splitLines) := rfl
  have hcarried : Job.standard.carried behind.splitLines
      = ["bitflags!".toList] := by decide
  obtain ⟨grown, hgrown, hending, hlines, htext, hcount⟩ :=
    compose_in_context .standard inFront amidst behind _ (.inr hfront) hamidst
      hblock htail hcompose rfl
  rw [hcarried] at htext hcount
  exact ⟨hfront, hamidst, hblock, htail, _, hcompose, rfl, grown, hgrown,
    hending, hlines, htext, hcount⟩

end Layout

end BraceLift
