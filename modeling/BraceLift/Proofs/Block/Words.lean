/-
The scan in words of 64 bits.

A machine counts braces in unsigned words, reads the counts as signed ones
and adds up their differences, and every one of these operations wraps
around. `WordScan` is the scan with this arithmetic, its decisions taken on
the word that it has for the depth.

As long as the captured lines take less than 2^63 bytes it is the same scan.
Then no word of a captured line wraps around (`Exact`): a line has no more
braces than are held after it, the depth before and after it is within that
number, too (`natAbs_depth_le_push`), and both are less than 2^63. So a push
keeps the two scans together (`computes_push`), and as nothing that is held
is let go of, so does every push of a run whose end fits
(`computes_pushAll`).
-/
import Mathlib.Algebra.Group.Nat.Defs
import BraceLift.Proofs.Block.Bound
import BraceLift.Proofs.Block.Streaming

namespace BraceLift

open BraceTally (ofText opener closer)

-- =================================================================== words

/-- The braces of a text, counted in words. -/
structure WordTally where
  opening : UInt64
  closing : UInt64
  deriving DecidableEq

namespace WordTally

/-- Counts one more character. -/
def add (tally : WordTally) (c : Char) : WordTally :=
  if c = opener then { tally with opening := tally.opening + 1 }
  else if c = closer then { tally with closing := tally.closing + 1 }
  else tally

/-- The braces of a text. -/
def ofText (t : Text) : WordTally :=
  t.foldl add ⟨0, 0⟩

/-- What the text adds to the depth: the difference of the counts, both
read as signed words. -/
def net (tally : WordTally) : Int64 :=
  tally.opening.toInt64 - tally.closing.toInt64

/-- Whether there is an opening brace. -/
def hasOpening (tally : WordTally) : Bool :=
  0 < tally.opening

end WordTally

/-- A scan that counts in words. -/
structure WordScan where
  anchor : Text
  style : BlockStyle
  phase : Phase
  /-- The captured lines as they are shown, newest first. -/
  recent : List Line
  depth : Int64
  opened : Bool
  deriving DecidableEq

namespace WordScan

/-- A scan that has seen no line. -/
def start (anchor : Text) (style : BlockStyle) : WordScan :=
  ⟨anchor, style, .searching, [], 0, false⟩

/-- Captures a line, `shown` being its changed form. -/
def capture (scan : WordScan) (shown raw : Line) : WordScan :=
  let tally := WordTally.ofText raw
  let depth := scan.depth + tally.net
  let opened := scan.opened || tally.hasOpening
  { scan with
    phase := if opened && decide (depth ≤ 0) then .closed else .capturing
    recent := shown :: scan.recent
    depth := depth
    opened := opened }

/-- Takes one more line. -/
def push (scan : WordScan) (line : Line) : WordScan :=
  match scan.phase with
  | .closed => scan
  | .capturing => scan.capture (line.outdent scan.style.dedentWidth) line
  | .searching =>
      if scan.anchor.occursIn line then
        scan.capture (line.publish scan.style.publicMarker) line
      else scan

/-- Takes all lines. -/
def pushAll (scan : WordScan) (lines : List Line) : WordScan :=
  lines.foldl push scan

end WordScan

-- ======================================================== words and numbers

/-- A sum of signed words is the sum of numbers if this one is a signed
word. -/
theorem toInt_add_of_fits {a b : Int64}
    (h : (a.toInt + b.toInt).natAbs < 2 ^ 63) :
    (a + b).toInt = a.toInt + b.toInt := by
  rw [Int64.toInt_add, Int.bmod_eq_of_le] <;> omega

/-- So it is with a difference. -/
theorem toInt_sub_of_fits {a b : Int64}
    (h : (a.toInt - b.toInt).natAbs < 2 ^ 63) :
    (a - b).toInt = a.toInt - b.toInt := by
  rw [Int64.toInt_sub, Int.bmod_eq_of_le] <;> omega

/-- An unsigned word below 2^63 is the same number as a signed one. -/
theorem toInt_toInt64_of_lt {a : UInt64} (h : a.toNat < 2 ^ 63) :
    a.toInt64.toInt = a.toNat := by
  show a.toBitVec.toInt = _
  rw [BitVec.toInt_eq_toNat_of_lt (by rw [UInt64.toNat_toBitVec]; omega),
    UInt64.toNat_toBitVec]

namespace WordTally

@[simp] theorem add_opener (tally : WordTally) :
    tally.add opener = { tally with opening := tally.opening + 1 } :=
  if_pos rfl

@[simp] theorem add_closer (tally : WordTally) :
    tally.add closer = { tally with closing := tally.closing + 1 } := by
  have hne : closer ≠ opener := by decide
  rw [add, if_neg hne, if_pos rfl]

theorem add_of_ne (tally : WordTally) {c : Char} (ho : c ≠ opener)
    (hc : c ≠ closer) : tally.add c = tally := by
  rw [add, if_neg ho, if_neg hc]

/-- The counts in words are the counts, but for whole turns. -/
theorem toNat_foldl_add (t : Text) (tally : WordTally) :
    (t.foldl add tally).opening.toNat
        = (tally.opening.toNat + t.count opener) % 2 ^ 64
      ∧ (t.foldl add tally).closing.toNat
        = (tally.closing.toNat + t.count closer) % 2 ^ 64 := by
  induction t generalizing tally with
  | nil =>
      have ho := tally.opening.toNat_lt
      have hc := tally.closing.toNat_lt
      simp only [List.foldl_nil, List.count_nil]
      omega
  | cons c rest ih =>
      rw [List.foldl_cons]
      obtain ⟨hopening, hclosing⟩ := ih (tally.add c)
      rw [hopening, hclosing]
      by_cases ho : c = opener
      · have hne : opener ≠ closer := by decide
        subst ho
        simp only [add_opener, UInt64.toNat_add, UInt64.toNat_one,
          List.count_cons_self, List.count_cons_of_ne hne, and_true]
        omega
      · by_cases hc : c = closer
        · subst hc
          simp only [add_closer, UInt64.toNat_add, UInt64.toNat_one,
            List.count_cons_self, List.count_cons_of_ne ho, true_and]
          omega
        · rw [add_of_ne tally ho hc, List.count_cons_of_ne ho,
            List.count_cons_of_ne hc]
          exact ⟨rfl, rfl⟩

/-- The counts in words are those of a text that has fewer braces than
there are words. -/
theorem toNat_ofText {t : Text} (h : (BraceTally.ofText t).total < 2 ^ 63) :
    (ofText t).opening.toNat = (BraceTally.ofText t).opening
      ∧ (ofText t).closing.toNat = (BraceTally.ofText t).closing := by
  obtain ⟨hopening, hclosing⟩ := toNat_foldl_add t ⟨0, 0⟩
  rw [BraceTally.ofText_eq_counts] at h ⊢
  simp only [BraceTally.total] at h
  simp only [UInt64.toNat_zero, Nat.zero_add] at hopening hclosing
  unfold ofText
  rw [hopening, hclosing]
  exact ⟨Nat.mod_eq_of_lt (by omega), Nat.mod_eq_of_lt (by omega)⟩

end WordTally

-- ========================================================== exact operations

namespace WordScan

/-- Whether every word that is computed when a line is captured is the
number that it stands for. -/
structure Exact (scan : WordScan) (raw : Line) : Prop where
  /-- The counters, after each character of the line. -/
  counters : ∀ front, front <+: raw →
    (WordTally.ofText front).opening.toNat = (ofText front).opening
      ∧ (WordTally.ofText front).closing.toNat = (ofText front).closing
  /-- The two counts, read as signed words. -/
  casts : (WordTally.ofText raw).opening.toInt64.toInt = (ofText raw).opening
    ∧ (WordTally.ofText raw).closing.toInt64.toInt = (ofText raw).closing
  /-- Their difference. -/
  difference : (WordTally.ofText raw).net.toInt = (ofText raw).net
  /-- The depth with this difference added. -/
  sum : (scan.depth + (WordTally.ofText raw).net).toInt
    = scan.depth.toInt + (ofText raw).net

/-- All words are exact if the braces of the line and the new depth are
less than 2^63. -/
theorem exact_of_fits {scan : WordScan} {raw : Line}
    (hbraces : (ofText raw).total < 2 ^ 63)
    (hdepth : (scan.depth.toInt + (ofText raw).net).natAbs < 2 ^ 63) :
    scan.Exact raw := by
  have hcounters : ∀ front, front <+: raw →
      (WordTally.ofText front).opening.toNat = (ofText front).opening
        ∧ (WordTally.ofText front).closing.toNat = (ofText front).closing := by
    rintro front ⟨rest, rfl⟩
    refine WordTally.toNat_ofText ?_
    rw [BraceTally.total_append] at hbraces
    omega
  obtain ⟨hopening, hclosing⟩ := hcounters raw List.prefix_rfl
  have htotal : (ofText raw).opening + (ofText raw).closing < 2 ^ 63 := hbraces
  have hcasts : (WordTally.ofText raw).opening.toInt64.toInt
        = (ofText raw).opening
      ∧ (WordTally.ofText raw).closing.toInt64.toInt
        = (ofText raw).closing := by
    rw [toInt_toInt64_of_lt (by omega), toInt_toInt64_of_lt (by omega),
      hopening, hclosing]
    exact ⟨rfl, rfl⟩
  have hnet : (WordTally.ofText raw).net.toInt = (ofText raw).net := by
    unfold WordTally.net BraceTally.net
    rw [toInt_sub_of_fits (by omega), hcasts.1, hcasts.2]
  refine ⟨hcounters, hcasts, hnet, ?_⟩
  rw [toInt_add_of_fits (by rwa [hnet]), hnet]

/-- With exact words an opening brace is seen just where there is one. -/
theorem Exact.hasOpening_eq {scan : WordScan} {raw : Line}
    (h : scan.Exact raw) :
    (WordTally.ofText raw).hasOpening = (ofText raw).hasOpening := by
  have hcount := (h.counters raw List.prefix_rfl).1
  unfold WordTally.hasOpening BraceTally.hasOpening
  exact decide_eq_decide.2 (by rw [UInt64.lt_iff_toNat_lt, hcount,
    UInt64.toNat_zero])

-- ================================================================ one push

/-- Whether a scan in words is where a scan is. -/
structure Computes (word : WordScan) (scan : BlockScan) : Prop where
  anchor_eq : word.anchor = scan.anchor
  style_eq : word.style = scan.style
  phase_eq : word.phase = scan.progress.phase
  recent_eq : word.recent = scan.progress.held.recent
  depth_eq : word.depth.toInt = scan.depth
  opened_eq : word.opened = scan.progress.held.opened

variable {word : WordScan} {scan : BlockScan}

/-- Two scans that are in the same place capture the same lines, in the
same form. -/
theorem Computes.push_eq (h : word.Computes scan) (line : Line) :
    word.push line
      = if scan.captures line then word.capture (scan.shown line) line
        else word := by
  unfold push BlockScan.captures BlockScan.shown
  rw [h.phase_eq, h.anchor_eq, h.style_eq]
  cases scan.progress <;> rfl

/-- Before a push that fits, all words for the line are exact. -/
theorem Computes.exact (h : word.Computes scan)
    (hdepth : scan.depth.natAbs ≤ scan.progress.held.braces) {line : Line}
    (hcaptures : scan.captures line = true)
    (hfits : (scan.push line).value.progress.held.bytes < 2 ^ 63) :
    word.Exact line := by
  have hnet := (ofText line).natAbs_net_le
  have hshown := scan.total_le_shown line
  have hbytes := (scan.push line).value.progress.held.braces_le_bytes
  rw [BlockScan.held_push_of_captures hcaptures] at hbytes hfits
  rw [Capture.braces_add] at hbytes
  refine exact_of_fits (by omega) ?_
  rw [h.depth_eq]
  omega

/-- Where all words for a line are exact, capturing it keeps the two scans
together. -/
theorem Computes.capture (h : word.Computes scan) {raw : Line}
    (hexact : word.Exact raw) (shown : Line) :
    (word.capture shown raw).Computes
      (scan.settle (scan.progress.held.add shown raw)).value := by
  obtain ⟨hanchor, hstyle⟩ := scan.settle_frame
    (scan.progress.held.add shown raw)
  have hdepth : (word.depth + (WordTally.ofText raw).net).toInt
      = (scan.progress.held.add shown raw).depth := by
    rw [hexact.sum, h.depth_eq]
    rfl
  have hopened : (word.opened || (WordTally.ofText raw).hasOpening)
      = (scan.progress.held.add shown raw).opened := by
    rw [h.opened_eq, hexact.hasOpening_eq]
    rfl
  constructor
  case anchor_eq => rw [hanchor]; exact h.anchor_eq
  case style_eq => rw [hstyle]; exact h.style_eq
  case phase_eq =>
    rw [BlockScan.phase_settle, Capture.phase, Capture.isBalanced, ← hopened,
      ← hdepth]
    simp only [WordScan.capture, Int64.le_iff_toInt_le, Int64.toInt_zero]
  case recent_eq =>
    rw [BlockScan.held_settle]
    exact congrArg (shown :: ·) h.recent_eq
  case depth_eq =>
    rw [BlockScan.depth, BlockScan.held_settle]
    exact hdepth
  case opened_eq =>
    rw [BlockScan.held_settle]
    exact hopened

/-- A push that fits keeps the two scans together. -/
theorem computes_push (h : word.Computes scan)
    (hdepth : scan.depth.natAbs ≤ scan.progress.held.braces) (line : Line)
    (hfits : (scan.push line).value.progress.held.bytes < 2 ^ 63) :
    (word.push line).Computes (scan.push line).value := by
  rw [h.push_eq]
  rcases scan.push_cases line with ⟨hnot, hpush⟩ | ⟨hcaptures, hpush⟩
  · rw [hpush, hnot]
    exact h
  · have hexact := h.exact hdepth hcaptures hfits
    rw [hpush, if_pos hcaptures]
    exact h.capture hexact (scan.shown line)

-- ============================================================== any pushes

/-- Pushes after which all still fits keep the two scans together. -/
theorem computes_pushAll (h : word.Computes scan)
    (hdepth : scan.depth.natAbs ≤ scan.progress.held.braces)
    (lines : List Line)
    (hfits : (scan.pushAll lines).value.progress.held.bytes < 2 ^ 63) :
    (word.pushAll lines).Computes (scan.pushAll lines).value := by
  induction lines generalizing word scan with
  | nil => exact h
  | cons line rest ih =>
      have hnext : (scan.push line).value.progress.held.bytes < 2 ^ 63 :=
        Nat.lt_of_le_of_lt ((scan.push line).value.bytes_le_pushAll rest) hfits
      exact ih (computes_push h hdepth line hnext)
        (BlockScan.natAbs_depth_le_push hdepth line) hfits

end WordScan

namespace BlockScan

/-- The depth is within the number of braces held, and this within their
bytes. While these are less than 2^63 a machine that counts in words has
computed nothing but exact words, in the last push and in all before. -/
theorem depth_fits_words {anchor : Text} (hne : anchor ≠ [])
    (style : BlockStyle) :
    ∃ fresh, start anchor style = .ok fresh ∧ ∀ pushed,
      (fresh.pushAll pushed).value.depth.natAbs
          ≤ (fresh.pushAll pushed).value.progress.held.braces
        ∧ (fresh.pushAll pushed).value.progress.held.braces
          ≤ (fresh.pushAll pushed).value.progress.held.bytes
        ∧ ((fresh.pushAll pushed).value.progress.held.bytes < 2 ^ 63 →
          ∀ earlier, earlier <+: pushed →
            ((WordScan.start anchor style).pushAll earlier).Computes
                (fresh.pushAll earlier).value
              ∧ ∀ line, earlier ++ [line] <+: pushed →
                (fresh.pushAll earlier).value.captures line = true →
                ((WordScan.start anchor style).pushAll earlier).Exact
                  line) := by
  refine ⟨_, start_eq hne style, fun pushed => ?_⟩
  generalize hfresh : BlockScan.mk anchor style .searching hne = fresh
  have hzero : fresh.depth.natAbs ≤ fresh.progress.held.braces := by
    rw [← hfresh]
    exact Nat.zero_le _
  have hstart : (WordScan.start anchor style).Computes fresh := by
    rw [← hfresh]
    exact ⟨rfl, rfl, rfl, rfl, rfl, rfl⟩
  refine ⟨natAbs_depth_le_pushAll hzero pushed, Capture.braces_le_bytes _,
    fun hfits earlier hearlier => ?_⟩
  -- what fits at the end fits after any front of the pushes
  have hfront : ∀ front, front <+: pushed →
      (fresh.pushAll front).value.progress.held.bytes < 2 ^ 63 := by
    rintro front ⟨rest, rfl⟩
    rw [pushAll_append, Logged.value_andThen] at hfits
    exact Nat.lt_of_le_of_lt (bytes_le_pushAll _ rest) hfits
  have hcomputes := WordScan.computes_pushAll hstart hzero earlier
    (hfront earlier hearlier)
  refine ⟨hcomputes, fun line hline hcaptures => ?_⟩
  have hnext := hfront (earlier ++ [line]) hline
  rw [pushAll_append, Logged.value_andThen] at hnext
  exact hcomputes.exact (natAbs_depth_le_pushAll hzero earlier) hcaptures
    hnext

/-- A style whose marker brings braces. -/
def bracedMarker : BlockStyle :=
  ⟨2, "\x7b\x7d\x7d ".toList⟩

/-- The words for the third line of the block, before which the depth is
negative. -/
theorem words_of_strayCloser :
    "fn f".toList ≠ []
      ∧ ∃ fresh, start "fn f".toList bracedMarker = .ok fresh
        ∧ (fresh.pushAll Block.strayCloser).value.depth.natAbs
          ≤ (fresh.pushAll Block.strayCloser).value.progress.held.braces
        ∧ (fresh.pushAll Block.strayCloser).value.progress.held.bytes < 2 ^ 63
        ∧ (fresh.pushAll (Block.strayCloser.take 3)).value.depth = -1
        ∧ ((WordScan.start "fn f".toList bracedMarker).pushAll
            (Block.strayCloser.take 3)).Exact " \x7b\n".toList := by
  have hne : "fn f".toList ≠ [] := by decide
  obtain ⟨fresh, hfresh, hall⟩ := depth_fits_words hne bracedMarker
  obtain ⟨hdepth, -, hwords⟩ := hall Block.strayCloser
  have hstart : start "fn f".toList bracedMarker
      = .ok ⟨"fn f".toList, bracedMarker, .searching, by decide⟩ := rfl
  obtain rfl := Except.ok.inj (hstart.symm.trans hfresh)
  have hfits : (pushAll ⟨"fn f".toList, bracedMarker, .searching, by decide⟩
      Block.strayCloser).value.progress.held.bytes < 2 ^ 63 := by
    decide
  obtain ⟨-, hexact⟩ :=
    hwords hfits (Block.strayCloser.take 3) (List.take_prefix 3 _)
  refine ⟨hne, _, hfresh, hdepth, hfits, by decide, ?_⟩
  exact hexact " \x7b\n".toList ⟨["\x7d\n".toList], by decide⟩ (by decide)

end BlockScan

end BraceLift
