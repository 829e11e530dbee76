/-
What the state of a scan tells of the lines pushed so far.

A scan searches, captures, and is closed, in this order. Its phase and
what it holds are read off the pushed lines (`Reflects`): the phase tells
whether a line contains the anchor and whether the block balances; what
is held is one stretch of these lines, from the first one that contains
the anchor to the last one, or to the one that closes (`Covers`).

`reachable_scan` says so of every scan that was started at an anchor and
given any lines, together with what one push more does to it
(`Advances`). That the state follows from the lines is `hasSeen_pushAll`;
here each of its three cases is put into words.
-/
import BraceLift.Proofs.Block.Extent

namespace BraceLift

/-- The place of a phase in the order in which a scan takes them. -/
def Phase.rank : Phase → Nat
  | .searching => 0
  | .capturing => 1
  | .closed => 2

namespace Capture

variable (style : BlockStyle) {raws : List Line}

theorem lines_ofLines_ne_nil (hne : raws ≠ []) :
    (ofLines style raws).lines ≠ [] := by
  rw [lines_ofLines, Ne, ← List.length_eq_zero_iff,
    BlockStyle.length_restyle, List.length_eq_zero_iff]
  exact hne

/-- A capture is balanced if it has been opened and its depth is down to
zero or below. -/
theorem isBalanced_iff (held : Capture) :
    held.isBalanced = true ↔ held.opened = true ∧ held.depth ≤ 0 := by
  rw [isBalanced, Bool.and_eq_true, decide_eq_true_eq]

end Capture

namespace BlockScan

variable {scan : BlockScan} {pushed : List Line}

-- ================================================= the state, in words

/-- Whether a scan holds the pushed lines from `i` to `k`: they start
where the anchor is found first, are shown in the style of the scan, and
their braces are the ones that were counted. -/
structure Covers (scan : BlockScan) (pushed : List Line) (i k : Nat) :
    Prop where
  start : Block.IsStart scan.anchor pushed i
  le : i ≤ k
  inside : k < pushed.length
  shown : scan.style.Restyled (Block.span pushed i k)
    scan.progress.held.lines
  depth_eq : scan.depth = Block.depthOver pushed i k
  opened_iff : scan.progress.held.opened = true
    ↔ ∃ raw ∈ Block.span pushed i k, BraceTally.opener ∈ raw
  /-- A block that is open goes on to the last line. -/
  last_of_capturing : scan.progress.phase = .capturing →
    k + 1 = pushed.length
  /-- A block that is closed ends where it closed first. -/
  isClose_of_closed : scan.progress.phase = .closed →
    Block.IsClose pushed i k

/-- What the state of a scan says about the lines pushed so far. -/
structure Reflects (scan : BlockScan) (pushed : List Line) : Prop where
  searching_iff : scan.progress.phase = .searching
    ↔ ∀ raw ∈ pushed, ¬ scan.anchor <:+: raw
  of_searching : scan.progress.phase = .searching →
    scan.progress.held.lines = [] ∧ scan.depth = 0
      ∧ scan.progress.held.opened = false
  of_capturing : scan.progress.phase = .capturing →
    scan.progress.held.lines ≠ []
      ∧ ¬ (scan.progress.held.opened = true ∧ scan.depth ≤ 0)
  of_closed : scan.progress.phase = .closed →
    scan.progress.held.lines ≠ []
      ∧ scan.progress.held.opened = true ∧ scan.depth ≤ 0
  covers : scan.progress.phase ≠ .searching →
    ∃ i k, scan.Covers pushed i k

/-- What a push of this line does to a scan: it answers with the phase it
leaves, goes back to no earlier one, and keeps what is held in front. -/
structure Advances (scan : BlockScan) (line : Line) : Prop where
  answer_eq : scan.answer line = (scan.push line).value.progress.phase
  rank_le : scan.progress.phase.rank
    ≤ (scan.push line).value.progress.phase.rank
  prefix_held : scan.progress.held.lines
    <+: (scan.push line).value.progress.held.lines

-- ===================================================== the three cases

theorem reflects_of_searching (hprog : scan.progress = .searching)
    (hidx : pushed.findIdx? scan.anchor.occursIn = none) :
    scan.Reflects pushed := by
  have hphase : scan.progress.phase = .searching := by rw [hprog]; rfl
  constructor
  case searching_iff =>
    exact iff_of_true hphase
      ((Block.findIdx?_occursIn_eq_none_iff _ _).1 hidx)
  case of_searching =>
    intro _
    rw [depth, hprog]
    exact ⟨rfl, rfl, rfl⟩
  case of_capturing => exact fun h => nomatch hphase.symm.trans h
  case of_closed => exact fun h => nomatch hphase.symm.trans h
  case covers => exact fun h => absurd hphase h

/-- A line that contains the anchor is among the pushed ones, so the scan
does not search any more. -/
theorem not_searching_of_start {i : Nat}
    (hstart : Block.IsStart scan.anchor pushed i) :
    ¬ ∀ raw ∈ pushed, ¬ scan.anchor <:+: raw := by
  obtain ⟨raw, hraw, hocc⟩ := hstart.found
  exact fun h => h raw (List.mem_of_getElem? hraw) hocc

/-- The captured lines, restyled, are what a scan holds if it holds their
capture. -/
theorem covers_of_held {i k : Nat}
    (hheld : scan.progress.held
      = .ofLines scan.style (Block.span pushed i k))
    (hstart : Block.IsStart scan.anchor pushed i) (hle : i ≤ k)
    (hin : k < pushed.length)
    (hlast : scan.progress.phase = .capturing → k + 1 = pushed.length)
    (hclose : scan.progress.phase = .closed → Block.IsClose pushed i k) :
    scan.Covers pushed i k := by
  refine ⟨hstart, hle, hin, ?_, ?_, ?_, hlast, hclose⟩
  · rw [hheld, Capture.lines_ofLines]
    exact scan.style.restyled_restyle _
  · rw [depth, hheld, Block.depthOver_eq_nesting]
    rfl
  · rw [hheld]
    exact Block.opens_iff _

theorem reflects_of_capturing {i : Nat}
    (hprog : scan.progress
      = .capturing (.ofLines scan.style (pushed.drop i)))
    (hidx : pushed.findIdx? scan.anchor.occursIn = some i)
    (hopen : Block.closing? (pushed.drop i) = none) :
    scan.Reflects pushed := by
  have hphase : scan.progress.phase = .capturing := by rw [hprog]; rfl
  have hheld : scan.progress.held = .ofLines scan.style (pushed.drop i) := by
    rw [hprog]; rfl
  have hstart := (Block.isStart_iff _ _ _).2 hidx
  obtain ⟨hi, -, -⟩ := List.findIdx?_eq_some_iff_getElem.1 hidx
  have hlen : 0 < (pushed.drop i).length := by
    rw [List.length_drop]
    omega
  -- the last line is one after which the lines do not balance
  have hbal : Block.balances (pushed.drop i) = false := by
    have h := (Block.closing?_eq_none_iff _).1 hopen
      ((pushed.drop i).length - 1) (by omega)
    rwa [List.take_of_length_le (by omega)] at h
  constructor
  case searching_iff =>
    refine iff_of_false ?_ (not_searching_of_start hstart)
    rw [hphase]
    decide
  case of_searching => exact fun h => nomatch hphase.symm.trans h
  case of_capturing =>
    intro _
    rw [depth, ← Capture.isBalanced_iff, hheld,
      Capture.isBalanced_ofLines, hbal]
    exact ⟨Capture.lines_ofLines_ne_nil _ (List.ne_nil_of_length_pos hlen),
      by decide⟩
  case of_closed => exact fun h => nomatch hphase.symm.trans h
  case covers =>
    intro _
    refine ⟨i, pushed.length - 1, covers_of_held ?_ hstart (by omega)
      (by omega) (fun _ => by omega)
      fun h => nomatch hphase.symm.trans h⟩
    rw [hheld, Block.span_last hi]

theorem reflects_of_closed {i n : Nat}
    (hprog : scan.progress
      = .closed (.ofLines scan.style ((pushed.drop i).take (n + 1))))
    (hidx : pushed.findIdx? scan.anchor.occursIn = some i)
    (hclose : Block.closing? (pushed.drop i) = some n) :
    scan.Reflects pushed := by
  have hphase : scan.progress.phase = .closed := by rw [hprog]; rfl
  have hheld : scan.progress.held
      = .ofLines scan.style ((pushed.drop i).take (n + 1)) := by
    rw [hprog]; rfl
  have hstart := (Block.isStart_iff _ _ _).2 hidx
  have hisClose := Block.isClose_of_closing? hclose
  obtain ⟨hn, hbal, -⟩ := (Block.closing?_eq_some_iff _ _).1 hclose
  have hne : (pushed.drop i).take (n + 1) ≠ [] := by
    rw [Ne, List.take_eq_nil_iff]
    rintro (h | h)
    · cases h
    · rw [h] at hn
      cases hn
  constructor
  case searching_iff =>
    refine iff_of_false ?_ (not_searching_of_start hstart)
    rw [hphase]
    decide
  case of_searching => exact fun h => nomatch hphase.symm.trans h
  case of_capturing => exact fun h => nomatch hphase.symm.trans h
  case of_closed =>
    intro _
    rw [depth, ← Capture.isBalanced_iff, hheld, Capture.isBalanced_ofLines]
    exact ⟨Capture.lines_ofLines_ne_nil _ hne, hbal⟩
  case covers =>
    intro _
    refine ⟨i, i + n, covers_of_held ?_ hstart (by omega)
      hisClose.closes.inside (fun h => nomatch hphase.symm.trans h)
      fun _ => hisClose⟩
    rw [hheld, Block.span_add]

/-- The state that the pushed lines give says what they are. -/
theorem HasSeen.reflects (hseen : scan.HasSeen pushed) :
    scan.Reflects pushed := by
  unfold HasSeen Progress.after at hseen
  cases hidx : pushed.findIdx? scan.anchor.occursIn with
  | none =>
      simp only [hidx] at hseen
      exact reflects_of_searching hseen hidx
  | some i =>
      cases hclose : Block.closing? (pushed.drop i) with
      | none =>
          simp only [hidx, hclose] at hseen
          exact reflects_of_capturing hseen hidx hclose
      | some n =>
          simp only [hidx, hclose] at hseen
          exact reflects_of_closed hseen hidx hclose

-- ============================================================ one push

theorem phase_settle (scan : BlockScan) (held : Capture) :
    (scan.settle held).value.progress.phase = held.phase := by
  unfold settle Capture.phase
  split <;> rfl

theorem held_settle (scan : BlockScan) (held : Capture) :
    (scan.settle held).value.progress.held = held := by
  unfold settle
  split <;> rfl

/-- Once a line is captured, a scan captures or is closed. -/
theorem one_le_rank_settle (scan : BlockScan) (held : Capture) :
    1 ≤ (scan.settle held).value.progress.phase.rank := by
  rw [phase_settle, Capture.phase]
  split <;> decide

/-- Any push, of any line, to any scan. -/
theorem advances (scan : BlockScan) (line : Line) : scan.Advances line := by
  cases hprog : scan.progress with
  | searching =>
      cases hocc : scan.anchor.occursIn line with
      | false =>
          have hpush : (scan.push line).value = scan := by
            simp [push, hprog, hocc, Logged.quiet]
          constructor <;> simp [answer, hpush, hprog, hocc, Progress.phase]
      | true =>
          have hpush : (scan.push line).value = (scan.settle (.add .empty
              (line.publish scan.style.publicMarker) line)).value := by
            simp [push, hprog, hocc]
          constructor
          · simp [answer, hpush, hprog, hocc, phase_settle]
          · rw [hprog]
            exact Nat.zero_le _
          · rw [hprog]
            exact List.nil_prefix
  | capturing held =>
      have hpush : (scan.push line).value = (scan.settle
          (held.add (line.outdent scan.style.dedentWidth) line)).value := by
        simp only [push, hprog]
      constructor
      · rw [hpush, phase_settle, answer, hprog]
      · rw [hpush, hprog]
        exact one_le_rank_settle _ _
      · rw [hpush, held_settle, hprog, Capture.lines_add]
        exact List.prefix_append _ _
  | closed held =>
      have hpush : (scan.push line).value = scan := by
        simp only [push, hprog, Logged.quiet]
      constructor <;> simp [answer, hpush, hprog, Progress.phase]

-- ================================================ every reachable scan

/-- A scan can be started at any anchor but the empty one. Whatever lines
are then pushed, also after the block has closed, its state is what these
lines say, and the next push advances it. -/
theorem reachable_scan {anchor : Text} (hne : anchor ≠ [])
    (style : BlockStyle) :
    ∃ fresh, start anchor style = .ok fresh
      ∧ ∀ pushed line,
        (fresh.pushAll pushed).value.anchor = anchor
          ∧ (fresh.pushAll pushed).value.style = style
          ∧ (fresh.pushAll pushed).value.Reflects pushed
          ∧ (fresh.pushAll pushed).value.Advances line := by
  have hstart := start_eq hne style
  obtain ⟨-, -, hseen⟩ := hasSeen_start hstart
  refine ⟨_, hstart, fun pushed line => ?_⟩
  obtain ⟨ha, hs⟩ := pushAll_frame ⟨anchor, style, .searching, hne⟩ pushed
  refine ⟨ha, hs, ?_, advances _ line⟩
  have hall := hasSeen_pushAll hseen pushed
  rw [List.nil_append] at hall
  exact hall.reflects

/-- A depth below zero before the block opens, and a line pushed after it
has closed. -/
theorem reachable_strayCloser :
    "fn f".toList ≠ []
      ∧ ∃ fresh, start "fn f".toList .standard = .ok fresh
        ∧ (fresh.pushAll Block.strayCloser).value.progress.phase = .closed
        ∧ (fresh.pushAll Block.strayCloser).value.Reflects Block.strayCloser
        ∧ (fresh.pushAll Block.strayCloser).value.Advances
            "fn f \x7b\n".toList := by
  have hne : "fn f".toList ≠ [] := by decide
  obtain ⟨fresh, hfresh, hall⟩ := reachable_scan hne .standard
  have hstart : start "fn f".toList .standard
      = .ok ⟨"fn f".toList, .standard, .searching, hne⟩ := rfl
  obtain ⟨-, -, hreflects, hadvances⟩ :=
    hall Block.strayCloser "fn f \x7b\n".toList
  refine ⟨hne, fresh, hfresh, ?_, hreflects, hadvances⟩
  rw [hstart] at hfresh
  cases hfresh
  rfl

end BlockScan

end BraceLift
