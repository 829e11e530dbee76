/-
A block taken line by line and a block taken at once.

Whoever pushes the lines of a block may stop anywhere at or behind the
closing line, or not at all: what the scan amounts to is the same, and so
are its records (`stream_eq_extract`). Two facts carry this. Pushing is a
run, so pushing more lines goes on from where the pushes before have led
(`pushAll_append`); and a scan that has closed takes nothing more
(`pushAll_closed`), so from there on going on is doing nothing.

The closing line is known from the lines alone (`IsClose`), and it is the
first one whose push answers that the block is closed
(`answer_eq_closed_iff`).
-/
import BraceLift.Proofs.Block.Phases

namespace BraceLift

namespace Block

variable {anchor : Text} {front : List Line} {i k : Nat}

-- ==================================================== a front of the lines

/-- The lines up to `k` do not change with what stands behind them. -/
theorem span_append_left (hle : i ≤ k) (hk : k < front.length)
    (rest : List Line) : span (front ++ rest) i k = span front i k := by
  unfold span
  rw [List.drop_append_of_le_length (by omega),
    List.take_append_of_le_length]
  rw [List.length_drop]
  omega

/-- What closes in a front of the lines closes in all of them. -/
theorem Closes.append_right (h : Closes front i k) (rest : List Line) :
    Closes (front ++ rest) i k := by
  have hspan := span_append_left h.le h.inside rest
  refine ⟨h.le, ?_, ?_, ?_⟩
  · rw [List.length_append]
    exact Nat.lt_add_right _ h.inside
  · rw [hspan]
    exact h.opens
  · rw [depthOver, hspan]
    exact h.depth_le

theorem Closes.of_append_right {rest : List Line}
    (h : Closes (front ++ rest) i k) (hk : k < front.length) :
    Closes front i k := by
  have hspan := span_append_left h.le hk rest
  refine ⟨h.le, hk, ?_, ?_⟩
  · rw [← hspan]
    exact h.opens
  · rw [depthOver, ← hspan]
    exact h.depth_le

/-- The first line with the anchor stays the first one. -/
theorem IsStart.append_right (h : IsStart anchor front i)
    (rest : List Line) : IsStart anchor (front ++ rest) i := by
  rw [isStart_iff] at h ⊢
  rw [List.findIdx?_append, h]
  rfl

theorem IsStart.of_append_right {rest : List Line}
    (h : IsStart anchor (front ++ rest) i) (hi : i < front.length) :
    IsStart anchor front i := by
  obtain ⟨raw, hraw, hocc⟩ := h.found
  rw [List.getElem?_append_left hi] at hraw
  refine ⟨⟨raw, hraw, hocc⟩, fun j raw' hj hraw' => ?_⟩
  refine h.first j raw' hj ?_
  rwa [List.getElem?_append_left (by omega)]

/-- Where some line closes, there is a first one that does. -/
theorem Closes.exists_isClose {lines : List Line} (h : Closes lines i k) :
    ∃ k', IsClose lines i k' ∧ k' ≤ k := by
  cases hclose : closing? (lines.drop i) with
  | none => exact absurd h (not_closes_of_closing? hclose k)
  | some n =>
      have his := isClose_of_closing? hclose
      exact ⟨i + n, his, his.least k h⟩

/-- The block of all lines closes in a front of them if and only if its
closing line stands there. -/
theorem closes_in_front_iff {lines : List Line} (hfront : front <+: lines) :
    (∃ i k, IsStart anchor front i ∧ Closes front i k)
      ↔ ∃ i k, IsStart anchor lines i ∧ IsClose lines i k
        ∧ k < front.length := by
  obtain ⟨rest, rfl⟩ := hfront
  constructor
  · intro hall
    obtain ⟨i, k, hstart, hcloses⟩ := hall
    obtain ⟨k', hclose, hle⟩ := (hcloses.append_right rest).exists_isClose
    exact ⟨i, k', hstart.append_right rest, hclose,
      Nat.lt_of_le_of_lt hle hcloses.inside⟩
  · intro hall
    obtain ⟨i, k, hstart, hclose, hk⟩ := hall
    have hi := Nat.lt_of_le_of_lt hclose.closes.le hk
    exact ⟨i, k, hstart.of_append_right hi,
      hclose.closes.of_append_right hk⟩

end Block

/-- The state after some lines is a closed one if and only if some of
these lines close the block that starts in them. -/
theorem Progress.isClosed_after_iff {anchor : Text} {style : BlockStyle}
    {lines : List Line} :
    (after anchor style lines).isClosed = true
      ↔ ∃ i k, Block.IsStart anchor lines i ∧ Block.Closes lines i k := by
  cases hidx : lines.findIdx? anchor.occursIn with
  | none =>
      simp only [after, hidx, isClosed, Bool.false_eq_true, false_iff]
      intro hall
      obtain ⟨i, k, hstart, -⟩ := hall
      rw [(Block.isStart_iff _ _ _).1 hstart] at hidx
      cases hidx
  | some i =>
      have hstart := (Block.isStart_iff _ _ _).2 hidx
      cases hclose : Block.closing? (lines.drop i) with
      | none =>
          simp only [after, hidx, hclose, isClosed, Bool.false_eq_true,
            false_iff]
          intro hall
          obtain ⟨i', k, hstart', hcloses⟩ := hall
          obtain rfl := hstart'.unique hstart
          exact Block.not_closes_of_closing? hclose k hcloses
      | some n =>
          simp only [after, hidx, hclose, isClosed, true_iff]
          exact ⟨i, i + n, hstart, (Block.isClose_of_closing? hclose).closes⟩

namespace BlockScan

variable (scan : BlockScan)

-- ============================================================== the pushes

/-- Pushing more lines goes on from where the first ones have led. -/
theorem pushAll_append (xs ys : List Line) :
    scan.pushAll (xs ++ ys)
      = (scan.pushAll xs).andThen fun next => next.pushAll ys := by
  induction xs generalizing scan with
  | nil => rw [List.nil_append, pushAll, Logged.quiet_andThen]
  | cons line rest ih =>
      rw [List.cons_append, pushAll, pushAll, Logged.andThen_assoc]
      congr 1
      funext next
      exact ih next

variable {scan}

theorem isClosed_iff_phase :
    scan.progress.isClosed = true ↔ scan.progress.phase = .closed := by
  cases scan.progress <;> simp [Progress.isClosed, Progress.phase]

/-- A push answers that the block is closed if it leaves it closed. -/
theorem answer_eq_closed_iff_isClosed (line : Line) :
    scan.answer line = .closed
      ↔ (scan.push line).value.progress.isClosed = true := by
  rw [(scan.advances line).answer_eq, isClosed_iff_phase]

/-- Where the pushes have led to a closed scan, further ones may be left
out. -/
theorem pushAll_eq_of_closed {front lines : List Line}
    (hfront : front <+: lines)
    (hclosed : (scan.pushAll front).value.progress.isClosed = true) :
    scan.pushAll front = scan.pushAll lines := by
  obtain ⟨rest, rfl⟩ := hfront
  rw [pushAll_append, Logged.andThen, pushAll_closed hclosed]
  simp [Logged.quiet]

-- ==================================================== a scan from the start

variable {anchor : Text} {style : BlockStyle} {fresh : BlockScan}
  {front lines : List Line}

/-- A front of the lines closes a scan if and only if the closing line of
the block stands there. -/
theorem isClosed_pushAll_iff (hfresh : start anchor style = .ok fresh)
    (hfront : front <+: lines) :
    (fresh.pushAll front).value.progress.isClosed = true
      ↔ ∃ i k, Block.IsStart anchor lines i ∧ Block.IsClose lines i k
        ∧ k < front.length := by
  obtain ⟨ha, hs, hseen⟩ := hasSeen_start hfresh
  have hall := hasSeen_pushAll hseen front
  obtain ⟨hanchor, hstyle⟩ := pushAll_frame fresh front
  rw [HasSeen, hanchor, hstyle, ha, hs, List.nil_append] at hall
  rw [hall, Progress.isClosed_after_iff, Block.closes_in_front_iff hfront]

/-- A push answers that the block is closed if and only if its line is the
closing line or one behind it. -/
theorem answer_eq_closed_iff (hfresh : start anchor style = .ok fresh)
    {n : Nat} {line : Line} (hline : lines[n]? = some line) :
    (fresh.pushAll (lines.take n)).value.answer line = .closed
      ↔ ∃ i k, Block.IsStart anchor lines i ∧ Block.IsClose lines i k
        ∧ k ≤ n := by
  obtain ⟨hn, -⟩ := List.getElem?_eq_some_iff.1 hline
  have hpush : ((fresh.pushAll (lines.take n)).value.push line).value
      = (fresh.pushAll (lines.take (n + 1))).value := by
    rw [List.take_add_one, hline, pushAll_append]
    rfl
  rw [answer_eq_closed_iff_isClosed, hpush,
    isClosed_pushAll_iff hfresh (List.take_prefix (n + 1) lines),
    List.length_take_of_le hn]
  simp only [Nat.lt_succ_iff]

/-- Take any anchor but the empty one. Pushing all lines and finishing is
extracting the block, in the result and in the records, and so is pushing
any front of the lines that has the closing line in it. The closing line
is the first one whose push answers that the block is closed. A scan that
has answered so once is the same after any further lines, has recorded
nothing more and gives no other answer. -/
theorem stream_eq_extract {anchor : Text} (hne : anchor ≠ [])
    (style : BlockStyle) :
    (∃ fresh, start anchor style = .ok fresh
      ∧ (∀ lines, (fresh.pushAll lines).andThen finish
          = (Block.mk anchor style).extract lines)
      ∧ (∀ lines front i k, Block.IsStart anchor lines i →
          Block.IsClose lines i k → front <+: lines → k < front.length →
          (fresh.pushAll front).andThen finish
            = (Block.mk anchor style).extract lines)
      ∧ ∀ lines n line, lines[n]? = some line →
          ((fresh.pushAll (lines.take n)).value.answer line = .closed
            ↔ ∃ i k, Block.IsStart anchor lines i ∧ Block.IsClose lines i k
              ∧ k ≤ n))
      ∧ ∀ (scan : BlockScan) line, scan.answer line = .closed →
          ∀ more other,
            (scan.push line).value.pushAll more
                = .quiet (scan.push line).value
              ∧ (scan.push line).value.answer other = .closed := by
  have hfresh := start_eq hne style
  refine ⟨⟨_, hfresh, ?_, ?_, ?_⟩, ?_⟩
  · intro lines
    exact ((Block.mk anchor style).extract_of_start hfresh lines).symm
  · intro lines front i k hstart hclose hfront hk
    rw [(Block.mk anchor style).extract_of_start hfresh lines]
    have hclosed := (isClosed_pushAll_iff hfresh hfront).2
      ⟨i, k, hstart, hclose, hk⟩
    rw [pushAll_eq_of_closed hfront hclosed]
  · intro lines n line hline
    exact answer_eq_closed_iff hfresh hline
  · intro scan line hanswer more other
    have hclosed := (answer_eq_closed_iff_isClosed line).1 hanswer
    have hsame := pushAll_closed hclosed
    refine ⟨hsame more, ?_⟩
    rw [answer_eq_closed_iff_isClosed]
    have hpush := congrArg (·.value.progress.isClosed) (hsame [other])
    exact hpush.trans hclosed

/-- The block that starts at line 1 closes with line 3, and the last line
is behind it. -/
theorem stream_strayCloser :
    "fn f".toList ≠ []
      ∧ ∃ fresh, start "fn f".toList .standard = .ok fresh
        ∧ Block.IsStart "fn f".toList Block.strayCloser 1
        ∧ Block.IsClose Block.strayCloser 1 3
        ∧ (fresh.pushAll (Block.strayCloser.take 4)).andThen finish
          = (Block.standard "fn f".toList).extract Block.strayCloser
        ∧ (fresh.pushAll (Block.strayCloser.take 3)).value.answer
            " \x7b\n".toList = .closed
        ∧ ((fresh.pushAll (Block.strayCloser.take 3)).value.push
              " \x7b\n".toList).value.pushAll ["fn f \x7b\n".toList]
          = .quiet ((fresh.pushAll (Block.strayCloser.take 3)).value.push
              " \x7b\n".toList).value := by
  have hne : "fn f".toList ≠ [] := by decide
  have hstart : Block.IsStart "fn f".toList Block.strayCloser 1 :=
    (Block.isStart_iff _ _ _).2 rfl
  have hclose : Block.IsClose Block.strayCloser 1 3 :=
    Block.isClose_of_closing? (n := 2) rfl
  obtain ⟨⟨fresh, hfresh, -, hfront, hanswers⟩, hfrozen⟩ :=
    stream_eq_extract hne .standard
  have hanswer := (hanswers _ 3 " \x7b\n".toList rfl).2
    ⟨1, 3, hstart, hclose, Nat.le_refl 3⟩
  exact ⟨hne, fresh, hfresh, hstart, hclose,
    hfront _ _ 1 3 hstart hclose (List.take_prefix 4 _) (by decide), hanswer,
    (hfrozen _ _ hanswer ["fn f \x7b\n".toList] []).1⟩

end BlockScan

end BraceLift
