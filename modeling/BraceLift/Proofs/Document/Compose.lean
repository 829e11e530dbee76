/-
Composing a document, by what its block and its tail come to.

There are four ways through a composition before the tail is looked at:
the block fails, the block is open and the layout strict, the block is
closed, the block is open and kept. Each has one equation, for the result
and the records together; the first two are final, the other two leave
the rest to the tail, which for the block of a job is decided by whether
its anchor is empty, missing or found.

Whether there is a document, and which one, is then said at once
(`compose_eq_ok_iff`): the block is accepted, some lines follow it
(`Follows`), and the document has them in their places.
-/
import BraceLift.Document

namespace BraceLift

namespace Layout

variable {layout : Layout} {lines : List Line} {block : Excerpt}

-- =========================================================== the block

theorem compose_of_error {e : ExcerptError}
    (h : (layout.block lines).value = .error e) :
    layout.compose lines = ⟨.error e, (layout.block lines).records⟩ := by
  unfold compose Logged.andThen
  rw [h]
  simp [Logged.quiet]

/-- A strict layout refuses a block that never closes, without a look at
the tail. -/
theorem compose_of_refused (h : (layout.block lines).value = .ok block)
    (hstrict : layout.strict = true) (hopen : block.ending = .truncated) :
    layout.compose lines
      = ⟨.error (.unterminated block.anchor block.size),
          (layout.block lines).records⟩ := by
  have haccept : layout.acceptBlock block
      = .quiet (.error (.unterminated block.anchor block.size)) := by
    unfold acceptBlock Excerpt.closedLines
    rw [if_pos hstrict, hopen]
  unfold compose Logged.andThen
  rw [h]
  dsimp only
  rw [haccept]
  simp [Logged.quiet]

/-- Strict or not, a closed block is accepted as it is. -/
theorem compose_of_closed (h : (layout.block lines).value = .ok block)
    (hclosed : block.ending = .closed) :
    layout.compose lines
      = ⟨(layout.tailLines lines).value.map
            (layout.document .closed block.lines),
          (layout.block lines).records
            ++ (layout.tailLines lines).records⟩ := by
  have haccept : layout.acceptBlock block = .quiet (.ok block.lines) := by
    unfold acceptBlock Excerpt.closedLines
    split
    · rw [hclosed]
    · rw [hclosed]
  unfold compose Logged.andThen
  rw [h]
  dsimp only
  rw [haccept, hclosed]
  cases (layout.tailLines lines).value with
  | error e => simp [Logged.quiet, Except.map]
  | ok tail => simp [Logged.quiet, Except.map]

/-- A lenient layout keeps a block that never closes, with a warning. -/
theorem compose_of_kept (h : (layout.block lines).value = .ok block)
    (hlenient : layout.strict = false) (hopen : block.ending = .truncated) :
    layout.compose lines
      = ⟨(layout.tailLines lines).value.map
            (layout.document .truncated block.lines),
          (layout.block lines).records
            ++ .keptOpen block.anchor block.size
              :: (layout.tailLines lines).records⟩ := by
  have haccept : layout.acceptBlock block
      = .noting (.keptOpen block.anchor block.size) (.ok block.lines) := by
    unfold acceptBlock
    rw [if_neg (by rw [hlenient]; decide), hopen]
  unfold compose Logged.andThen
  rw [h]
  dsimp only
  rw [haccept, hopen]
  cases (layout.tailLines lines).value with
  | error e => simp [Logged.quiet, Logged.noting, Except.map]
  | ok tail => simp [Logged.quiet, Logged.noting, Except.map]

/-- Once the block is accepted, the tail decides. -/
theorem value_compose_of_accepted
    (h : (layout.block lines).value = .ok block)
    (haccept : layout.strict = true → block.ending = .closed) :
    (layout.compose lines).value
      = (layout.tailLines lines).value.map
          (layout.document block.ending block.lines) := by
  cases hending : block.ending with
  | closed => rw [compose_of_closed h hending]
  | truncated =>
      cases hstrict : layout.strict with
      | true =>
          rw [haccept hstrict] at hending
          cases hending
      | false => rw [compose_of_kept h hstrict hending]

-- ============================================== what follows the block

/-- Whether these lines follow the empty line: none without a region and
none where its anchor is missing, else the lines of the region. -/
inductive Follows (layout : Layout) (lines : List Line) :
    List Line → Prop where
  | absent : layout.tail = none → Follows layout lines []
  | missing {region : Region} {anchor : Text} :
      layout.tail = some region →
      (region lines).value = .error (.anchorNotFound anchor) →
      Follows layout lines []
  | found {region : Region} {tail : Excerpt} :
      layout.tail = some region → (region lines).value = .ok tail →
      Follows layout lines tail.lines

theorem value_tailLines_eq_ok_iff {after : List Line} :
    (layout.tailLines lines).value = .ok after
      ↔ layout.Follows lines after := by
  constructor
  · intro h
    unfold tailLines at h
    cases htail : layout.tail with
    | none =>
        rw [htail] at h
        cases h
        exact .absent htail
    | some region =>
        simp only [htail, Logged.value_andThen] at h
        cases hregion : (region lines).value with
        | ok tail =>
            rw [hregion] at h
            cases h
            exact .found htail hregion
        | error e =>
            rw [hregion] at h
            cases e with
            | anchorNotFound anchor =>
                cases h
                exact .missing htail hregion
            | unterminated anchor captured => cases h
            | emptyAnchor => cases h
  · intro h
    unfold tailLines
    cases h with
    | absent htail => rw [htail]; rfl
    | missing htail hregion =>
        simp only [htail, Logged.value_andThen, hregion]
        rfl
    | found htail hregion =>
        simp only [htail, Logged.value_andThen, hregion]
        rfl

/-- There is a document if and only if the block is accepted and it is
settled what follows it. -/
theorem compose_eq_ok_iff {document : Document} :
    (layout.compose lines).value = .ok document
      ↔ ∃ block after, (layout.block lines).value = .ok block
        ∧ (layout.strict = true → block.ending = .closed)
        ∧ layout.Follows lines after
        ∧ document = layout.document block.ending block.lines after := by
  constructor
  · intro h
    cases hblock : (layout.block lines).value with
    | error e =>
        rw [compose_of_error hblock] at h
        cases h
    | ok block =>
        by_cases haccept : layout.strict = true → block.ending = .closed
        · rw [value_compose_of_accepted hblock haccept] at h
          cases htail : (layout.tailLines lines).value with
          | error e =>
              rw [htail] at h
              cases h
          | ok after =>
              rw [htail] at h
              cases h
              exact ⟨block, after, rfl, haccept,
                value_tailLines_eq_ok_iff.1 htail, rfl⟩
        · obtain ⟨hstrict, hopen⟩ := Classical.not_imp.1 haccept
          have htruncated : block.ending = .truncated := by
            cases hending : block.ending with
            | closed => exact absurd hending hopen
            | truncated => rfl
          rw [compose_of_refused hblock hstrict htruncated] at h
          cases h
  · intro hall
    obtain ⟨block, after, hblock, haccept, hfollows, rfl⟩ := hall
    rw [value_compose_of_accepted hblock haccept,
      value_tailLines_eq_ok_iff.2 hfollows]
    rfl

end Layout

-- ============================================================ the tail

namespace Tail

variable {tail : Tail} {lines : List Line}

theorem value_extract_nil (h : tail.anchor = []) :
    (tail.extract lines).value = .error .emptyAnchor := by
  unfold extract
  rw [if_pos h]
  rfl

/-- Where no line contains the anchor, nothing is recorded. -/
theorem extract_missing (hne : tail.anchor ≠ [])
    (h : lines.findIdx? tail.anchor.occursIn = none) :
    tail.extract lines = .quiet (.error (.anchorNotFound tail.anchor)) := by
  unfold extract
  rw [if_neg hne, h]

/-- Where a line does, what is kept and what is dropped from there on is
recorded. -/
theorem extract_found {start : Nat} (hne : tail.anchor ≠ [])
    (h : lines.findIdx? tail.anchor.occursIn = some start) :
    tail.extract lines
      = .noting
          (.tailTaken tail.anchor (start + 1)
            (tail.keep (lines.drop start)).length
            ((lines.drop start).countP tail.drops))
          (.ok (.complete tail.anchor (tail.keep (lines.drop start)))) := by
  unfold extract
  rw [if_neg hne, h]

theorem value_extract_missing (hne : tail.anchor ≠ [])
    (h : lines.findIdx? tail.anchor.occursIn = none) :
    (tail.extract lines).value = .error (.anchorNotFound tail.anchor) := by
  rw [extract_missing hne h]
  rfl

theorem value_extract_found {start : Nat} (hne : tail.anchor ≠ [])
    (h : lines.findIdx? tail.anchor.occursIn = some start) :
    (tail.extract lines).value
      = .ok (.complete tail.anchor (tail.keep (lines.drop start))) := by
  rw [extract_found hne h]
  rfl

/-- A tail is given if and only if its anchor is not empty and is found. -/
theorem extract_eq_ok_iff {excerpt : Excerpt} :
    (tail.extract lines).value = .ok excerpt
      ↔ tail.anchor ≠ []
        ∧ ∃ start, lines.findIdx? tail.anchor.occursIn = some start
          ∧ excerpt
            = .complete tail.anchor (tail.keep (lines.drop start)) := by
  constructor
  · intro h
    by_cases hne : tail.anchor = []
    · rw [value_extract_nil hne] at h
      cases h
    · cases hidx : lines.findIdx? tail.anchor.occursIn with
      | none =>
          rw [value_extract_missing hne hidx] at h
          cases h
      | some start =>
          rw [value_extract_found hne hidx] at h
          cases h
          exact ⟨hne, start, rfl, rfl⟩
  · intro hall
    obtain ⟨hne, start, hidx, rfl⟩ := hall
    exact value_extract_found hne hidx

end Tail

/-- The tail of a job fails if and only if its anchor is empty. -/
theorem Layout.value_tailLines_ofJob (job : Job) (lines : List Line) :
    (job.tailAnchor = some []
        ∧ ((ofJob job).tailLines lines).value = .error .emptyAnchor)
      ∨ (job.tailAnchor ≠ some []
        ∧ ∃ tail, ((ofJob job).tailLines lines).value = .ok tail) := by
  unfold tailLines ofJob
  cases htail : job.tailAnchor with
  | none => exact .inr ⟨by simp, [], rfl⟩
  | some anchor =>
      simp only [Option.map_some, Logged.value_andThen]
      by_cases hnil : anchor = []
      · refine .inl ⟨by rw [hnil], ?_⟩
        rw [Tail.value_extract_nil hnil]
        rfl
      · refine .inr ⟨by simpa using hnil, ?_⟩
        have hne : (Tail.standard anchor).anchor ≠ [] := hnil
        cases hidx : lines.findIdx? (Tail.standard anchor).anchor.occursIn with
        | none =>
            rw [Tail.value_extract_missing hne hidx]
            exact ⟨[], rfl⟩
        | some start =>
            rw [Tail.value_extract_found hne hidx]
            exact ⟨_, rfl⟩

end BraceLift
