/-
What a block extraction means, said without running it.

The statement is about indices into the raw lines. A block starts at the
first line that contains the anchor (`IsStart`). For a later line `k`,
`depthOver` counts the braces of the lines from the start to `k` and
`Closes` says that one of them has an opening brace while the depth is
down to zero or below; the block ends at the least such `k` (`IsClose`),
or runs to the last line if there is none. How each line is shown is
said by its text alone (`Published`, `Outdented`): which blanks go, what
stands in front.

`extract_from_start_to_close` puts the two sides together. The scan
enters through `Progress.after` only, which splits into the same three
cases: no start, a start without a close, a start and its close.
-/
import BraceLift.Proofs.Block.Scan

namespace BraceLift

-- ====================================================== how lines are shown

namespace Line

/-- The line without all of its leading white space; the marker and a
blank in front unless it then starts with the marker. -/
def Published (marker : Text) (raw shown : Line) : Prop :=
  ∃ blanks body, raw = blanks ++ body
    ∧ (∀ c ∈ blanks, Text.isBlank c = true)
    ∧ (∀ c, body.head? = some c → Text.isBlank c = false)
    ∧ (marker <+: body ∧ shown = body
      ∨ ¬ marker <+: body ∧ shown = marker ++ ' ' :: body)

/-- The line without exactly `width` blanks in front; the line itself if
it has fewer. -/
def Outdented (width : Nat) (raw shown : Line) : Prop :=
  raw = List.replicate width ' ' ++ shown
    ∨ ¬ List.replicate width ' ' <+: raw ∧ shown = raw

theorem published_publish (marker : Text) (raw : Line) :
    Published marker raw (raw.publish marker) := by
  obtain ⟨blanks, hsplit, hblank, hword⟩ := Text.trimStart_split raw
  refine ⟨blanks, Text.trimStart raw, hsplit, hblank, hword, ?_⟩
  unfold publish
  by_cases h : marker <+: Text.trimStart raw
  · exact .inl ⟨h, if_pos (List.isPrefixOf_iff_prefix.2 h)⟩
  · exact .inr ⟨h, if_neg fun hp => h (List.isPrefixOf_iff_prefix.1 hp)⟩

theorem outdented_outdent (width : Nat) (raw : Line) :
    Outdented width raw (raw.outdent width) := by
  unfold outdent
  cases h : afterSpaces? width raw with
  | some rest => exact .inl ((afterSpaces?_eq_some_iff width raw rest).1 h)
  | none =>
      refine .inr ⟨?_, rfl⟩
      intro hall
      obtain ⟨rest, hrest⟩ := hall
      rw [(afterSpaces?_eq_some_iff width raw rest).2 hrest.symm] at h
      cases h

end Line

/-- Lines as a style shows them: as many, in the same order, the first
published and each later one outdented. -/
structure BlockStyle.Restyled (style : BlockStyle)
    (raws shown : List Line) : Prop where
  length_eq : shown.length = raws.length
  first : ∀ raw line, raws[0]? = some raw → shown[0]? = some line →
    Line.Published style.publicMarker raw line
  later : ∀ n raw line, raws[n + 1]? = some raw →
    shown[n + 1]? = some line → Line.Outdented style.dedentWidth raw line

theorem BlockStyle.restyled_restyle (style : BlockStyle)
    (raws : List Line) : style.Restyled raws (style.restyle raws) := by
  cases raws with
  | nil => exact ⟨rfl, by simp, by simp⟩
  | cons first rest =>
      refine ⟨style.length_restyle _, ?_, ?_⟩
      · intro raw line hraw hline
        cases hraw
        cases hline
        exact Line.published_publish _ _
      · intro n raw line hraw hline
        rw [List.getElem?_cons_succ] at hraw
        rw [restyle, List.getElem?_cons_succ, List.getElem?_map, hraw] at hline
        cases hline
        exact Line.outdented_outdent _ _

namespace Block

-- ================================================================ extents

/-- The lines from `i` to `k`, both among them. -/
def span (lines : List Line) (i k : Nat) : List Line :=
  (lines.drop i).take (k + 1 - i)

/-- Opening braces less closing ones in the lines from `i` to `k`. -/
def depthOver (lines : List Line) (i k : Nat) : Int :=
  ((span lines i k).flatten.count BraceTally.opener : Int)
    - (span lines i k).flatten.count BraceTally.closer

/-- Whether line `i` is the first one that contains the anchor. -/
structure IsStart (anchor : Text) (lines : List Line) (i : Nat) : Prop where
  found : ∃ raw, lines[i]? = some raw ∧ anchor <:+: raw
  first : ∀ j raw, j < i → lines[j]? = some raw → ¬ anchor <:+: raw

/-- Whether the lines from `i` to `k` have an opening brace and leave no
block open. -/
structure Closes (lines : List Line) (i k : Nat) : Prop where
  le : i ≤ k
  inside : k < lines.length
  opens : ∃ raw ∈ span lines i k, BraceTally.opener ∈ raw
  depth_le : depthOver lines i k ≤ 0

/-- Whether `k` is the least line that closes what starts at `i`. -/
structure IsClose (lines : List Line) (i k : Nat) : Prop where
  closes : Closes lines i k
  least : ∀ j, Closes lines i j → k ≤ j

theorem span_add (lines : List Line) (i n : Nat) :
    span lines i (i + n) = (lines.drop i).take (n + 1) := by
  unfold span
  congr 1
  omega

/-- The lines up to the last one are all that follow. -/
theorem span_last {lines : List Line} {i : Nat} (hi : i < lines.length) :
    span lines i (lines.length - 1) = lines.drop i := by
  unfold span
  refine List.take_of_length_le ?_
  rw [List.length_drop]
  omega

theorem depthOver_eq_nesting (lines : List Line) (i k : Nat) :
    depthOver lines i k = nesting (span lines i k) :=
  (nesting_eq_counts _).symm

/-- The start is what a search for the anchor finds. -/
theorem isStart_iff (anchor : Text) (lines : List Line) (i : Nat) :
    IsStart anchor lines i ↔ lines.findIdx? anchor.occursIn = some i := by
  rw [List.findIdx?_eq_some_iff_getElem]
  constructor
  · intro hall
    obtain ⟨⟨raw, hraw, hocc⟩, hfirst⟩ := hall
    obtain ⟨hi, rfl⟩ := List.getElem?_eq_some_iff.1 hraw
    refine ⟨hi, (Text.occursIn_iff _ _).2 hocc, fun j hj => ?_⟩
    rw [Text.occursIn_iff]
    exact hfirst j _ hj (List.getElem?_eq_getElem (by omega))
  · intro hall
    obtain ⟨hi, hocc, hfirst⟩ := hall
    refine ⟨⟨lines[i], List.getElem?_eq_getElem hi,
      (Text.occursIn_iff _ _).1 hocc⟩, ?_⟩
    intro j raw hj hraw hin
    obtain ⟨hj', rfl⟩ := List.getElem?_eq_some_iff.1 hraw
    exact hfirst j hj ((Text.occursIn_iff _ _).2 hin)

theorem IsStart.unique {anchor : Text} {lines : List Line} {i j : Nat}
    (h : IsStart anchor lines i) (h' : IsStart anchor lines j) : i = j := by
  rw [isStart_iff] at h h'
  exact Option.some.inj (h.symm.trans h')

/-- Lines close if, taken from the start, they balance. -/
theorem closes_add_iff (lines : List Line) (i n : Nat) :
    Closes lines i (i + n)
      ↔ n < (lines.drop i).length
        ∧ balances ((lines.drop i).take (n + 1)) = true := by
  rw [List.length_drop, balances, Bool.and_eq_true, opens_iff,
    decide_eq_true_eq, ← span_add, ← depthOver_eq_nesting]
  constructor
  · intro hall
    obtain ⟨-, hin, hopen, hdepth⟩ := hall
    exact ⟨by omega, hopen, hdepth⟩
  · intro hall
    obtain ⟨hin, hopen, hdepth⟩ := hall
    exact ⟨by omega, by omega, hopen, hdepth⟩

/-- The close is `closing?` of the lines from the start on. -/
theorem isClose_of_closing? {lines : List Line} {i n : Nat}
    (h : closing? (lines.drop i) = some n) : IsClose lines i (i + n) := by
  obtain ⟨hn, hbal, hfirst⟩ := (closing?_eq_some_iff _ _).1 h
  refine ⟨(closes_add_iff lines i n).2 ⟨hn, hbal⟩, fun j hj => ?_⟩
  obtain ⟨m, rfl⟩ := Nat.exists_eq_add_of_le hj.le
  obtain ⟨-, hbal'⟩ := (closes_add_iff lines i m).1 hj
  by_cases hlt : m < n
  · rw [hfirst m hlt] at hbal'
    cases hbal'
  · omega

/-- Where `closing?` finds nothing, nothing closes. -/
theorem not_closes_of_closing? {lines : List Line} {i : Nat}
    (h : closing? (lines.drop i) = none) (k : Nat) :
    ¬ Closes lines i k := by
  intro hk
  obtain ⟨n, rfl⟩ := Nat.exists_eq_add_of_le hk.le
  obtain ⟨hn, hbal⟩ := (closes_add_iff lines i n).1 hk
  rw [(closing?_eq_none_iff _).1 h n hn] at hbal
  cases hbal

/-- No line contains the anchor if a search finds none. -/
theorem findIdx?_occursIn_eq_none_iff (anchor : Text) (lines : List Line) :
    lines.findIdx? anchor.occursIn = none
      ↔ ∀ raw ∈ lines, ¬ anchor <:+: raw := by
  rw [List.findIdx?_eq_none_iff]
  constructor
  · intro h raw hraw hin
    have := h raw hraw
    rw [(Text.occursIn_iff _ _).2 hin] at this
    cases this
  · intro h raw hraw
    rw [← Bool.not_eq_true, Text.occursIn_iff]
    exact h raw hraw

-- ================================================ the excerpt of an extent

variable (block : Block) (hne : block.anchor ≠ []) (lines : List Line)

include hne

theorem value_extract_missing
    (h : lines.findIdx? block.anchor.occursIn = none) :
    (block.extract lines).value
      = .error (.anchorNotFound block.anchor) := by
  rw [value_extract block hne, Progress.after, h]
  rfl

theorem value_extract_closed {i n : Nat}
    (h : lines.findIdx? block.anchor.occursIn = some i)
    (hclose : closing? (lines.drop i) = some n) :
    (block.extract lines).value
      = .ok ⟨block.anchor, block.style.restyle (span lines i (i + n)),
          .closed, depthOver lines i (i + n)⟩ := by
  rw [value_extract block hne, Progress.after, h, depthOver_eq_nesting,
    span_add]
  simp only [hclose, Progress.amount, Capture.lines_ofLines]
  rfl

theorem value_extract_truncated {i : Nat}
    (h : lines.findIdx? block.anchor.occursIn = some i)
    (hclose : closing? (lines.drop i) = none) :
    (block.extract lines).value
      = .ok ⟨block.anchor,
          block.style.restyle (span lines i (lines.length - 1)),
          .truncated, depthOver lines i (lines.length - 1)⟩ := by
  obtain ⟨hi, -, -⟩ := List.findIdx?_eq_some_iff_getElem.1 h
  rw [value_extract block hne, Progress.after, h, depthOver_eq_nesting,
    span_last hi]
  simp only [hclose, Progress.amount, Capture.lines_ofLines]
  rfl

/-- A block extraction gives the lines from the first one that contains
the anchor to the least one that closes, or to the last if none does;
without a line that contains the anchor, and only then, the anchor is
missing. A user who asks for no style gets four blanks and `pub`. -/
theorem extract_from_start_to_close :
    ((block.extract lines).value = .error (.anchorNotFound block.anchor)
        ↔ ∀ raw ∈ lines, ¬ block.anchor <:+: raw)
      ∧ (∀ i, IsStart block.anchor lines i →
          ((∃ k, Closes lines i k) →
            ∃ k shown, IsClose lines i k
              ∧ (block.extract lines).value
                = .ok ⟨block.anchor, shown, .closed, depthOver lines i k⟩
              ∧ block.style.Restyled (span lines i k) shown)
          ∧ ((∀ k, ¬ Closes lines i k) →
            ∃ shown, (block.extract lines).value
                = .ok ⟨block.anchor, shown, .truncated,
                    depthOver lines i (lines.length - 1)⟩
              ∧ block.style.Restyled (span lines i (lines.length - 1))
                  shown))
      ∧ standard block.anchor = ⟨block.anchor, 4, "pub".toList⟩ := by
  refine ⟨?_, ?_, rfl⟩
  · rw [← findIdx?_occursIn_eq_none_iff]
    constructor
    · intro h
      cases hidx : lines.findIdx? block.anchor.occursIn with
      | none => rfl
      | some i =>
          cases hclose : closing? (lines.drop i) with
          | none =>
              rw [value_extract_truncated block hne lines hidx hclose] at h
              cases h
          | some n =>
              rw [value_extract_closed block hne lines hidx hclose] at h
              cases h
    · exact value_extract_missing block hne lines
  · intro i hstart
    have hidx := (isStart_iff _ _ _).1 hstart
    cases hclose : closing? (lines.drop i) with
    | none =>
        refine ⟨?_, fun _ => ?_⟩
        · intro hall
          obtain ⟨k, hk⟩ := hall
          exact absurd hk (not_closes_of_closing? hclose k)
        · exact ⟨_, value_extract_truncated block hne lines hidx hclose,
            block.style.restyled_restyle _⟩
    | some n =>
        have his := isClose_of_closing? hclose
        refine ⟨fun _ => ?_, ?_⟩
        · exact ⟨i + n, _, his,
            value_extract_closed block hne lines hidx hclose,
            block.style.restyled_restyle _⟩
        · intro hnever
          exact absurd his.closes (hnever _)

omit hne

/-- Lines in which a stray closing brace stands before the first opening
one, and the anchor is found twice. -/
def strayCloser : List Line :=
  ["\x7d\n".toList, "  fn f() \x7d\n".toList, "    fn f\n".toList,
    " \x7b\n".toList, "\x7d\n".toList]

/-- The depth is negative until the fourth line opens and, being back at
zero with it, closes. -/
theorem extract_strayCloser :
    IsStart "fn f".toList strayCloser 1 ∧ Closes strayCloser 1 3
      ∧ ∃ k shown, IsClose strayCloser 1 k
        ∧ ((standard "fn f".toList).extract strayCloser).value
          = .ok ⟨"fn f".toList, shown, .closed, depthOver strayCloser 1 k⟩
        ∧ BlockStyle.standard.Restyled (span strayCloser 1 k) shown := by
  have hstart : IsStart "fn f".toList strayCloser 1 :=
    (isStart_iff _ _ _).2 rfl
  have hcloses : Closes strayCloser 1 3 :=
    (closes_add_iff strayCloser 1 2).2 (by decide)
  exact ⟨hstart, hcloses,
    ((extract_from_start_to_close (standard "fn f".toList) (by decide)
      strayCloser).2.1 1 hstart).1 ⟨3, hcloses⟩⟩

-- ================================================ an excerpt and its lines

/-- Whether an excerpt is lifted out of the lines from `i` to `k`. They
close with the last of them, or are all that follow and do not close. -/
structure Lifts (block : Block) (lines : List Line) (i k : Nat)
    (excerpt : Excerpt) : Prop where
  start : IsStart block.anchor lines i
  le : i ≤ k
  inside : k < lines.length
  anchor_eq : excerpt.anchor = block.anchor
  lines_eq : excerpt.lines = block.style.restyle (span lines i k)
  depth_eq : excerpt.depth = nesting (span lines i k)
  closing_eq : closing? (span lines i k)
    = match excerpt.ending with
      | .closed => some (k - i)
      | .truncated => none
  last_of_truncated : excerpt.ending = .truncated → k + 1 = lines.length

theorem length_span {lines : List Line} {i k : Nat} (h : k < lines.length) :
    (span lines i k).length = k + 1 - i := by
  rw [span, List.length_take, List.length_drop]
  omega

/-- Whether a line is the closing one is seen from the front up to it. -/
theorem closing?_take_iff {raws : List Line} {n : Nat} :
    closing? (raws.take (n + 1)) = some n ↔ closing? raws = some n := by
  have hfirst : ∀ j, j < n →
      balances ((raws.take (n + 1)).take (j + 1))
        = balances (raws.take (j + 1)) := by
    intro j hj
    rw [List.take_take, Nat.min_eq_left (by omega)]
  have hlen : n < (raws.take (n + 1)).length ↔ n < raws.length := by
    rw [List.length_take]
    omega
  rw [closing?_eq_some_iff, closing?_eq_some_iff, hlen, List.take_take,
    Nat.min_self]
  exact and_congr_right fun _ => and_congr_right fun _ =>
    forall₂_congr fun j hj => by rw [hfirst j hj]

/-- The lines up to the close are closed by the last of them. -/
theorem closing?_span_iff {lines : List Line} {i k : Nat} (hle : i ≤ k) :
    closing? (span lines i k) = some (k - i)
      ↔ closing? (lines.drop i) = some (k - i) := by
  rw [← closing?_take_iff, span, List.take_take,
    show min (k - i + 1) (k + 1 - i) = k - i + 1 by omega, closing?_take_iff]

/-- An excerpt of a block is one that is lifted out of some lines. -/
theorem extract_eq_ok_iff (block : Block) (hne : block.anchor ≠ [])
    {lines : List Line} {excerpt : Excerpt} :
    (block.extract lines).value = .ok excerpt
      ↔ ∃ i k, block.Lifts lines i k excerpt := by
  constructor
  · intro h
    cases hidx : lines.findIdx? block.anchor.occursIn with
    | none =>
        rw [value_extract_missing block hne lines hidx] at h
        cases h
    | some i =>
        have hstart := (isStart_iff _ _ _).2 hidx
        obtain ⟨hi, -, -⟩ := List.findIdx?_eq_some_iff_getElem.1 hidx
        cases hclose : closing? (lines.drop i) with
        | none =>
            rw [value_extract_truncated block hne lines hidx hclose] at h
            cases h
            refine ⟨i, lines.length - 1, hstart, by omega, by omega, rfl, rfl,
              depthOver_eq_nesting _ _ _, ?_, fun _ => by omega⟩
            rw [span_last hi]
            exact hclose
        | some n =>
            rw [value_extract_closed block hne lines hidx hclose] at h
            cases h
            have hcloses := (isClose_of_closing? hclose).closes
            refine ⟨i, i + n, hstart, hcloses.le, hcloses.inside, rfl, rfl,
              depthOver_eq_nesting _ _ _, ?_, fun h => nomatch h⟩
            refine (closing?_span_iff hcloses.le).2 ?_
            rw [Nat.add_sub_cancel_left]
            exact hclose
  · intro hall
    obtain ⟨i, k, hlifts⟩ := hall
    obtain ⟨anchor, shown, ending, depth⟩ := excerpt
    obtain ⟨hstart, hle, hin, rfl, rfl, rfl, hclose, hlast⟩ := hlifts
    have hidx := (isStart_iff _ _ _).1 hstart
    cases ending with
    | closed =>
        have hclose' := (closing?_span_iff hle).1 hclose
        rw [value_extract_closed block hne lines hidx hclose',
          depthOver_eq_nesting, Nat.add_sub_cancel' hle]
    | truncated =>
        obtain rfl : k = lines.length - 1 := by
          have := hlast rfl
          omega
        have hi : i < lines.length := by omega
        rw [span_last hi] at hclose
        rw [value_extract_truncated block hne lines hidx hclose,
          depthOver_eq_nesting]

/-- A block with an excerpt has an anchor. -/
theorem anchor_ne_nil_of_extract {block : Block} {lines : List Line}
    {excerpt : Excerpt} (h : (block.extract lines).value = .ok excerpt) :
    block.anchor ≠ [] := by
  intro hnil
  rw [value_extract_nil hnil] at h
  cases h

theorem lifts_of_extract {block : Block} {lines : List Line}
    {excerpt : Excerpt} (h : (block.extract lines).value = .ok excerpt) :
    ∃ i k, block.Lifts lines i k excerpt :=
  (extract_eq_ok_iff block (anchor_ne_nil_of_extract h)).1 h

end Block

end BraceLift
