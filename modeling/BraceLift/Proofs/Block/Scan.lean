/-
A scan read off the lines it has seen.

`Progress.after` says how far a scan is without running it: the block
starts at the first line that contains the anchor, it closes at
`closing?` of the lines from there on, and what is held is those lines,
restyled, with their depth. The first line is published and all others
are outdented (`restyle`).

One push takes the state after some lines to the state after one more
(`hasSeen_push`), so by induction the same holds of any number of
pushes (`hasSeen_pushAll`). A scan that has closed takes nothing more
(`pushAll_closed`); that is why stopping at the closing line, as
`pushUntilClosed` does, leaves the same state and the same records as
pushing every line (`pushUntilClosed_eq_pushAll`).
-/
import BraceLift.Proofs.Block.Nesting

namespace BraceLift

-- ==================================================== what has been held

/-- The lines of a block as the style shows them: the first published,
the others outdented. -/
def BlockStyle.restyle (style : BlockStyle) : List Line → List Line
  | [] => []
  | first :: rest =>
      first.publish style.publicMarker
        :: rest.map (Line.outdent style.dedentWidth)

/-- One more line behind the first is outdented. -/
theorem BlockStyle.restyle_snoc (style : BlockStyle) {raws : List Line}
    (hne : raws ≠ []) (raw : Line) :
    style.restyle (raws ++ [raw])
      = style.restyle raws ++ [raw.outdent style.dedentWidth] := by
  cases raws with
  | nil => exact absurd rfl hne
  | cons first rest => simp [restyle]

@[simp] theorem BlockStyle.length_restyle (style : BlockStyle)
    (raws : List Line) : (style.restyle raws).length = raws.length := by
  cases raws <;> simp [restyle]

/-- What is held of a block whose raw lines are these. -/
def Capture.ofLines (style : BlockStyle) (raws : List Line) : Capture :=
  ⟨(style.restyle raws).reverse, Block.nesting raws, Block.opens raws⟩

namespace Capture

variable (style : BlockStyle)

@[simp] theorem lines_ofLines (raws : List Line) :
    (ofLines style raws).lines = style.restyle raws :=
  List.reverse_reverse _

@[simp] theorem isBalanced_ofLines (raws : List Line) :
    (ofLines style raws).isBalanced = Block.balances raws := rfl

/-- The first line is captured in its published form. -/
theorem add_publish (raw : Line) :
    empty.add (raw.publish style.publicMarker) raw = ofLines style [raw] := by
  simp only [add, empty, ofLines, BlockStyle.restyle, List.map_nil,
    List.reverse_singleton, Bool.false_or, Int.zero_add]
  rw [← List.nil_append [raw], Block.nesting_snoc, Block.opens_snoc]
  simp

/-- Every further line is captured in its outdented form. -/
theorem add_outdent {raws : List Line} (hne : raws ≠ []) (raw : Line) :
    (ofLines style raws).add (raw.outdent style.dedentWidth) raw
      = ofLines style (raws ++ [raw]) := by
  simp only [add, ofLines]
  rw [BlockStyle.restyle_snoc style hne, Block.nesting_snoc, Block.opens_snoc,
    List.reverse_append]
  rfl

end Capture

-- ====================================================== state after lines

/-- How far a scan is after some lines, read off the lines alone. -/
def Progress.after (anchor : Text) (style : BlockStyle)
    (lines : List Line) : Progress :=
  match lines.findIdx? anchor.occursIn with
  | none => .searching
  | some i =>
      match Block.closing? (lines.drop i) with
      | none => .capturing (.ofLines style (lines.drop i))
      | some k => .closed (.ofLines style ((lines.drop i).take (k + 1)))

namespace Progress

variable (anchor : Text) (style : BlockStyle)

/-- A first line with the anchor starts the block. -/
theorem after_snoc_start {lines : List Line} {line : Line}
    (hnone : lines.findIdx? anchor.occursIn = none)
    (hocc : anchor.occursIn line = true) :
    after anchor style (lines ++ [line])
      = if Block.balances [line] then .closed (.ofLines style [line])
        else .capturing (.ofLines style [line]) := by
  have hidx : (lines ++ [line]).findIdx? anchor.occursIn
      = some lines.length := by
    rw [List.findIdx?_append, hnone]
    simp [hocc]
  have hclose : Block.closing? [line]
      = if Block.balances [line] then some 0 else none := by
    have h := Block.closing?_snoc [] line
    rwa [List.nil_append] at h
  unfold after
  simp only [hidx, List.drop_left, hclose]
  cases Block.balances [line] <;> rfl

/-- A line without the anchor is passed over until the block starts. -/
theorem after_snoc_skip {lines : List Line} {line : Line}
    (hnone : lines.findIdx? anchor.occursIn = none)
    (hocc : anchor.occursIn line = false) :
    after anchor style (lines ++ [line]) = .searching := by
  have hidx : (lines ++ [line]).findIdx? anchor.occursIn = none := by
    rw [List.findIdx?_append, hnone]
    simp [hocc]
  unfold after
  rw [hidx]

/-- While the block is open, one more line either closes it or is held
with the others. -/
theorem after_snoc_open {lines : List Line} {i : Nat} (line : Line)
    (hidx : lines.findIdx? anchor.occursIn = some i)
    (hopen : Block.closing? (lines.drop i) = none) :
    after anchor style (lines ++ [line])
      = if Block.balances (lines.drop i ++ [line]) then
          .closed (.ofLines style (lines.drop i ++ [line]))
        else .capturing (.ofLines style (lines.drop i ++ [line])) := by
  obtain ⟨hi, -, -⟩ := List.findIdx?_eq_some_iff_getElem.1 hidx
  have hidx' : (lines ++ [line]).findIdx? anchor.occursIn = some i := by
    rw [List.findIdx?_append, hidx]
    rfl
  have hdrop : (lines ++ [line]).drop i = lines.drop i ++ [line] :=
    List.drop_append_of_le_length (Nat.le_of_lt hi)
  have htake : (lines.drop i ++ [line]).take ((lines.drop i).length + 1)
      = lines.drop i ++ [line] :=
    List.take_of_length_le (by simp)
  unfold after
  simp only [hidx', hdrop, Block.closing?_snoc, hopen, Option.none_or]
  cases Block.balances (lines.drop i ++ [line]) with
  | false => rfl
  | true => simp only [if_true, htake]

/-- Once the block has closed, one more line changes nothing. -/
theorem after_snoc_closed {lines : List Line} {i k : Nat} (line : Line)
    (hidx : lines.findIdx? anchor.occursIn = some i)
    (hclosed : Block.closing? (lines.drop i) = some k) :
    after anchor style (lines ++ [line])
      = .closed (.ofLines style ((lines.drop i).take (k + 1))) := by
  obtain ⟨hi, -, -⟩ := List.findIdx?_eq_some_iff_getElem.1 hidx
  obtain ⟨hk, -, -⟩ := (Block.closing?_eq_some_iff _ _).1 hclosed
  have hidx' : (lines ++ [line]).findIdx? anchor.occursIn = some i := by
    rw [List.findIdx?_append, hidx]
    rfl
  have hdrop : (lines ++ [line]).drop i = lines.drop i ++ [line] :=
    List.drop_append_of_le_length (Nat.le_of_lt hi)
  unfold after
  simp only [hidx', hdrop, Block.closing?_snoc, hclosed, Option.some_or]
  rw [List.take_append_of_le_length hk]

end Progress

-- ============================================================== the push

namespace BlockScan

/-- A captured line closes the block if the lines then balance. -/
theorem progress_settle (scan : BlockScan) (style : BlockStyle)
    (raws : List Line) :
    (scan.settle (.ofLines style raws)).value.progress
      = if Block.balances raws then .closed (.ofLines style raws)
        else .capturing (.ofLines style raws) := by
  unfold settle
  rw [Capture.isBalanced_ofLines]
  split <;> rfl

/-- Capturing a line changes neither the anchor nor the style. -/
theorem settle_frame (scan : BlockScan) (held : Capture) :
    (scan.settle held).value.anchor = scan.anchor
      ∧ (scan.settle held).value.style = scan.style := by
  unfold settle
  split <;> exact ⟨rfl, rfl⟩

/-- A push changes neither the anchor nor the style. -/
theorem push_frame (scan : BlockScan) (line : Line) :
    (scan.push line).value.anchor = scan.anchor
      ∧ (scan.push line).value.style = scan.style := by
  unfold push
  split
  · exact ⟨rfl, rfl⟩
  · exact settle_frame scan _
  · split
    · rw [Logged.value_andThen]
      exact settle_frame scan _
    · exact ⟨rfl, rfl⟩

/-- Whether the progress of a scan is the one that these lines give. -/
def HasSeen (scan : BlockScan) (lines : List Line) : Prop :=
  scan.progress = .after scan.anchor scan.style lines

/-- One push takes the state after some lines to the state after one
more: the four cases are those of the lines, not of the state. -/
theorem hasSeen_push {scan : BlockScan} {lines : List Line}
    (hseen : scan.HasSeen lines) (line : Line) :
    (scan.push line).value.HasSeen (lines ++ [line]) := by
  obtain ⟨hanchor, hstyle⟩ := push_frame scan line
  unfold HasSeen at hseen ⊢
  rw [hanchor, hstyle]
  cases hidx : lines.findIdx? scan.anchor.occursIn with
  | none =>
      have hprog : scan.progress = .searching := by
        rw [hseen, Progress.after, hidx]
      cases hocc : scan.anchor.occursIn line with
      | false =>
          rw [Progress.after_snoc_skip _ _ hidx hocc]
          simp [push, hprog, hocc, Logged.quiet]
      | true =>
          rw [Progress.after_snoc_start _ _ hidx hocc, ← progress_settle scan]
          simp [push, hprog, hocc, Capture.add_publish]
  | some i =>
      cases hclose : Block.closing? (lines.drop i) with
      | none =>
          have hprog : scan.progress
              = .capturing (.ofLines scan.style (lines.drop i)) := by
            rw [hseen, Progress.after]
            simp only [hidx, hclose]
          obtain ⟨hi, -, -⟩ := List.findIdx?_eq_some_iff_getElem.1 hidx
          have hne : lines.drop i ≠ [] := by
            rw [Ne, List.drop_eq_nil_iff]
            omega
          rw [Progress.after_snoc_open _ _ line hidx hclose,
            ← progress_settle scan]
          simp only [push, hprog]
          rw [Capture.add_outdent _ hne]
      | some k =>
          have hprog : scan.progress = .closed
              (.ofLines scan.style ((lines.drop i).take (k + 1))) := by
            rw [hseen, Progress.after]
            simp only [hidx, hclose]
          rw [Progress.after_snoc_closed _ _ line hidx hclose, ← hprog]
          simp only [push, hprog, Logged.quiet]

-- =============================================================== the run

/-- Any number of pushes change neither the anchor nor the style. -/
theorem pushAll_frame (scan : BlockScan) (lines : List Line) :
    (scan.pushAll lines).value.anchor = scan.anchor
      ∧ (scan.pushAll lines).value.style = scan.style := by
  induction lines generalizing scan with
  | nil => exact ⟨rfl, rfl⟩
  | cons line rest ih =>
      obtain ⟨hanchor, hstyle⟩ := push_frame scan line
      rw [pushAll, Logged.value_andThen, ← hanchor, ← hstyle]
      exact ih _

/-- Pushing lines takes the state after some lines to the state after
all of them. -/
theorem hasSeen_pushAll {scan : BlockScan} {seen : List Line}
    (hseen : scan.HasSeen seen) (lines : List Line) :
    (scan.pushAll lines).value.HasSeen (seen ++ lines) := by
  induction lines generalizing scan seen with
  | nil => rwa [List.append_nil]
  | cons line rest ih =>
      have h := ih (hasSeen_push hseen line)
      rwa [List.append_assoc, List.singleton_append] at h

/-- A scan that has seen no line is in the state after no lines. -/
theorem hasSeen_start {anchor : Text} {style : BlockStyle} {scan : BlockScan}
    (h : start anchor style = .ok scan) :
    scan.anchor = anchor ∧ scan.style = style ∧ scan.HasSeen [] := by
  unfold start at h
  split at h
  · cases h
  · cases h
    exact ⟨rfl, rfl, rfl⟩

/-- A closed scan takes nothing more and records nothing. -/
theorem pushAll_closed {scan : BlockScan}
    (hclosed : scan.progress.isClosed = true) (lines : List Line) :
    scan.pushAll lines = .quiet scan := by
  cases hp : scan.progress with
  | searching => rw [hp] at hclosed; cases hclosed
  | capturing held => rw [hp] at hclosed; cases hclosed
  | closed held =>
      induction lines with
      | nil => rfl
      | cons line rest ih =>
          rw [pushAll, push, hp]
          simp only [Logged.andThen, Logged.quiet] at ih ⊢
          rw [ih]
          rfl

/-- Stopping where the block closes leaves the state and the records of
pushing every line. -/
theorem pushUntilClosed_eq_pushAll (scan : BlockScan) (lines : List Line) :
    scan.pushUntilClosed lines = scan.pushAll lines := by
  induction lines generalizing scan with
  | nil => rfl
  | cons line rest ih =>
      rw [pushUntilClosed, pushAll]
      congr 1
      funext next
      split
      · next hclosed => rw [pushAll_closed hclosed]
      · exact ih next

end BlockScan

-- =========================================================== the excerpt

/-- What a scan that is so far amounts to. -/
def Progress.amount (anchor : Text) :
    Progress → Except ExcerptError Excerpt
  | .searching => .error (.anchorNotFound anchor)
  | .capturing held => .ok ⟨anchor, held.lines, .truncated, held.depth⟩
  | .closed held => .ok ⟨anchor, held.lines, .closed, held.depth⟩

theorem BlockScan.value_finish (scan : BlockScan) :
    scan.finish.value = scan.progress.amount scan.anchor := by
  unfold finish
  cases scan.progress <;> rfl

/-- Nothing is extracted at the empty anchor. -/
theorem Block.value_extract_nil {block : Block} (h : block.anchor = [])
    (lines : List Line) :
    (block.extract lines).value = .error .emptyAnchor := by
  unfold extract
  rw [BlockScan.start, dif_pos h]
  rfl

/-- A block is extracted by pushing the lines to a scan that is started at
its anchor. -/
theorem Block.extract_of_start (block : Block) {scan : BlockScan}
    (h : BlockScan.start block.anchor block.style = .ok scan)
    (lines : List Line) :
    block.extract lines = (scan.pushAll lines).andThen BlockScan.finish := by
  unfold extract
  rw [h]
  exact congrArg (Logged.andThen · BlockScan.finish)
    (scan.pushUntilClosed_eq_pushAll lines)

/-- A scan is started at any anchor but the empty one. -/
theorem BlockScan.start_eq {anchor : Text} (hne : anchor ≠ [])
    (style : BlockStyle) :
    start anchor style = .ok ⟨anchor, style, .searching, hne⟩ := by
  rw [start, dif_neg hne]

/-- The excerpt of a block is read off the state after all lines. -/
theorem Block.value_extract (block : Block) (hne : block.anchor ≠ [])
    (lines : List Line) :
    (block.extract lines).value
      = (Progress.after block.anchor block.style lines).amount
          block.anchor := by
  have hstart := BlockScan.start_eq hne block.style
  obtain ⟨-, -, hseen⟩ := BlockScan.hasSeen_start hstart
  rw [block.extract_of_start hstart, Logged.value_andThen]
  have hall := BlockScan.hasSeen_pushAll hseen lines
  obtain ⟨ha, hs⟩ := BlockScan.pushAll_frame
    ⟨block.anchor, block.style, .searching, hne⟩ lines
  rw [BlockScan.value_finish, hall, ha, hs, List.nil_append]

end BraceLift
