/-
What the two changes made to captured lines leave as it was.

Outdenting takes blanks away, publishing takes white space away and may
put a marker in front. No brace is among these as long as the marker has
none, so every line keeps its tally (`map_ofText_restyle`). Lines with the
same tallies have the same depth and close at the same place
(`nesting_congr`, `closing?_congr`), so what the scan has counted in a
block as it was read can be counted again in its excerpt.

The newline at the end of a line is lost in one case only. Publishing
takes all of a line that is nothing but white space, its newline among it;
if the line has anything else, its end is left alone
(`Published.newline_suffix_iff`). `extract_conserves` puts the two
together.
-/
import BraceLift.Proofs.Block.Ends

namespace BraceLift

open BraceTally (opener closer)

namespace BraceTally

/-- Whether a text has no brace in it. -/
def Braceless (t : Text) : Prop :=
  opener ∉ t ∧ closer ∉ t

/-- Text without braces may be put in front of any text. -/
theorem ofText_append_of_braceless {s : Text} (hs : Braceless s) (t : Text) :
    ofText (s ++ t) = ofText t := by
  obtain ⟨hopener, hcloser⟩ := hs
  rw [ofText_eq_counts, ofText_eq_counts]
  simp [List.count_eq_zero.2 hopener, List.count_eq_zero.2 hcloser]

/-- White space has no brace in it. -/
theorem braceless_of_blank {t : Text} (h : ∀ c ∈ t, Text.isBlank c = true) :
    Braceless t := by
  constructor
  · intro hin
    exact absurd (h _ hin) (by decide)
  · intro hin
    exact absurd (h _ hin) (by decide)

end BraceTally

open BraceTally (Braceless)

namespace Line

variable {raw shown : Line}

-- ======================================================== braces of a line

theorem Outdented.ofText_eq {width : Nat} (h : Outdented width raw shown) :
    BraceTally.ofText shown = BraceTally.ofText raw := by
  rcases h with rfl | ⟨-, rfl⟩
  · have hblank : ∀ c ∈ List.replicate width ' ', Text.isBlank c = true := by
      intro c hc
      rw [List.eq_of_mem_replicate hc]
      decide
    exact (BraceTally.ofText_append_of_braceless
      (BraceTally.braceless_of_blank hblank) shown).symm
  · rfl

theorem Published.ofText_eq {marker : Text} (hmarker : Braceless marker)
    (h : Published marker raw shown) :
    BraceTally.ofText shown = BraceTally.ofText raw := by
  obtain ⟨blanks, body, rfl, hblank, -, hshown⟩ := h
  rw [BraceTally.ofText_append_of_braceless
    (BraceTally.braceless_of_blank hblank)]
  rcases hshown with ⟨-, rfl⟩ | ⟨-, rfl⟩
  · rfl
  · have hfront : Braceless (marker ++ [' ']) := by
      unfold Braceless
      simp only [List.mem_append, not_or]
      exact ⟨⟨hmarker.1, by decide⟩, hmarker.2, by decide⟩
    rw [List.append_cons, BraceTally.ofText_append_of_braceless hfront]

-- ======================================================= the end of a line

/-- What a text ends with, it ends with behind any other text. -/
theorem singleton_suffix_append_iff {c : Char} {s t : Text} (ht : t ≠ []) :
    [c] <:+ s ++ t ↔ [c] <:+ t := by
  rw [List.singleton_suffix_iff_getLast?_eq_some,
    List.singleton_suffix_iff_getLast?_eq_some,
    List.getLast?_append_of_ne_nil _ ht]

/-- Outdenting leaves the end of a line alone. -/
theorem Outdented.newline_suffix_iff {width : Nat}
    (h : Outdented width raw shown) : ['\n'] <:+ shown ↔ ['\n'] <:+ raw := by
  rcases h with rfl | ⟨-, rfl⟩
  · by_cases hnil : shown = []
    · subst hnil
      refine iff_of_false (by simp) fun hend => ?_
      rw [List.append_nil] at hend
      have hin := hend.subset (List.mem_singleton_self _)
      exact absurd (List.eq_of_mem_replicate hin) (by decide)
    · exact (singleton_suffix_append_iff hnil).symm
  · rfl

/-- Publishing leaves the end of a line alone if the line is not white
space all through; if it is, no newline is left. -/
theorem Published.newline_suffix_iff {marker : Text}
    (h : Published marker raw shown) :
    ['\n'] <:+ shown
      ↔ ['\n'] <:+ raw ∧ ¬ ∀ c ∈ raw, Text.isBlank c = true := by
  obtain ⟨blanks, body, rfl, hblank, hbody, hshown⟩ := h
  cases body with
  | nil =>
      rw [List.append_nil]
      refine iff_of_false ?_ fun hraw => hraw.2 hblank
      rcases hshown with ⟨-, rfl⟩ | ⟨-, rfl⟩
      · simp
      · rw [singleton_suffix_append_iff (List.cons_ne_nil _ _)]
        decide
  | cons d rest =>
      have hword : ¬ ∀ c ∈ blanks ++ d :: rest, Text.isBlank c = true := by
        intro hall
        have hd := hall d (by simp)
        rw [hbody d rfl] at hd
        cases hd
      rw [singleton_suffix_append_iff (List.cons_ne_nil d rest),
        and_iff_left hword]
      rcases hshown with ⟨-, rfl⟩ | ⟨-, rfl⟩
      · rfl
      · rw [List.append_cons,
          singleton_suffix_append_iff (List.cons_ne_nil d rest)]

end Line

-- ========================================================= braces of lines

/-- Restyled lines have the tallies of the lines they were. -/
theorem BlockStyle.map_ofText_restyle {style : BlockStyle}
    (hmarker : Braceless style.publicMarker) (raws : List Line) :
    (style.restyle raws).map BraceTally.ofText
      = raws.map BraceTally.ofText := by
  cases raws with
  | nil => rfl
  | cons first rest =>
      simp only [restyle, List.map_cons, List.map_map, List.cons.injEq]
      refine ⟨(Line.published_publish _ _).ofText_eq hmarker, ?_⟩
      refine List.map_congr_left fun raw _ => ?_
      exact (Line.outdented_outdent _ _).ofText_eq

namespace Block

variable {raws shown : List Line}
  (h : shown.map BraceTally.ofText = raws.map BraceTally.ofText)

include h

/-- Lines with the same tallies have the same tally put together. -/
theorem ofText_flatten_congr :
    BraceTally.ofText shown.flatten = BraceTally.ofText raws.flatten := by
  induction shown generalizing raws with
  | nil =>
      obtain rfl := List.map_eq_nil_iff.1 h.symm
      rfl
  | cons line rest ih =>
      obtain ⟨raw, others, rfl, hline, hrest⟩ := List.map_eq_cons_iff.1 h.symm
      rw [List.flatten_cons, List.flatten_cons, BraceTally.ofText_append,
        BraceTally.ofText_append, hline, ih hrest.symm]

theorem nesting_congr : nesting shown = nesting raws :=
  congrArg BraceTally.net (ofText_flatten_congr h)

theorem balances_congr : balances shown = balances raws := by
  unfold balances opens
  rw [ofText_flatten_congr h, nesting_congr h]

/-- Lines with the same tallies close at the same place. -/
theorem closing?_congr : closing? shown = closing? raws := by
  have hlen : shown.length = raws.length := by
    simpa using congrArg List.length h
  unfold closing?
  rw [hlen]
  refine List.find?_congr fun k _ => balances_congr ?_
  rw [List.map_take, List.map_take, h]

end Block

-- ============================================================= the excerpt

namespace Block

variable {block : Block} {lines : List Line} {i k : Nat} {excerpt : Excerpt}

/-- The depth of an excerpt is that of its lines as they are shown. -/
theorem Lifts.depth_eq_nesting (h : block.Lifts lines i k excerpt)
    (hmarker : Braceless block.style.publicMarker) :
    excerpt.depth = nesting excerpt.lines := by
  rw [h.depth_eq, h.lines_eq]
  exact (nesting_congr (BlockStyle.map_ofText_restyle hmarker _)).symm

/-- An excerpt closes where its lines as they are shown do. -/
theorem Lifts.closing?_lines (h : block.Lifts lines i k excerpt)
    (hmarker : Braceless block.style.publicMarker) :
    closing? excerpt.lines
      = match excerpt.ending with
        | .closed => some (k - i)
        | .truncated => none := by
  rw [h.lines_eq, closing?_congr (BlockStyle.map_ofText_restyle hmarker _)]
  exact h.closing_eq

theorem Lifts.length_lines (h : block.Lifts lines i k excerpt) :
    excerpt.lines.length = k - i + 1 := by
  have hle := h.le
  rw [h.lines_eq, BlockStyle.length_restyle, length_span h.inside]
  omega

/-- An excerpt is closed if and only if its lines as they are shown
balance. -/
theorem Lifts.closed_iff (h : block.Lifts lines i k excerpt)
    (hmarker : Braceless block.style.publicMarker) :
    excerpt.ending = .closed ↔ balances excerpt.lines = true := by
  have hclose := h.closing?_lines hmarker
  have hall : excerpt.lines.take (k - i + 1) = excerpt.lines :=
    List.take_of_length_le (Nat.le_of_eq h.length_lines)
  cases hending : excerpt.ending with
  | closed =>
      rw [hending] at hclose
      obtain ⟨-, hbal, -⟩ := (closing?_eq_some_iff _ _).1 hclose
      rw [hall] at hbal
      exact iff_of_true rfl hbal
  | truncated =>
      rw [hending] at hclose
      have hbal := (closing?_eq_none_iff _).1 hclose (k - i)
        (by rw [h.length_lines]; omega)
      rw [hall] at hbal
      rw [hbal]
      simp

/-- Each line of an excerpt has the braces of its raw line and ends like
it, but for a first line that was nothing but white space. -/
theorem Lifts.line_conserved (h : block.Lifts lines i k excerpt)
    (hmarker : Braceless block.style.publicMarker) {n : Nat}
    {raw shown : Line} (hraw : lines[i + n]? = some raw)
    (hshown : excerpt.lines[n]? = some shown) :
    BraceTally.ofText shown = BraceTally.ofText raw
      ∧ (['\n'] <:+ shown
        ↔ ['\n'] <:+ raw ∧ ¬ (n = 0 ∧ ∀ c ∈ raw, Text.isBlank c = true)) := by
  obtain ⟨hn, -⟩ := List.getElem?_eq_some_iff.1 hshown
  rw [h.length_lines] at hn
  have hle := h.le
  have hspan : (span lines i k)[n]? = some raw := by
    rw [span, List.getElem?_take_of_lt (by omega), List.getElem?_drop, hraw]
  have hrestyled := block.style.restyled_restyle (span lines i k)
  rw [← h.lines_eq] at hrestyled
  cases n with
  | zero =>
      have hpublished := hrestyled.first raw shown hspan hshown
      refine ⟨hpublished.ofText_eq hmarker, ?_⟩
      simpa using hpublished.newline_suffix_iff
  | succ n =>
      have houtdented := hrestyled.later n raw shown hspan hshown
      refine ⟨houtdented.ofText_eq, ?_⟩
      simpa using houtdented.newline_suffix_iff

/-- Take an excerpt of some lines, its marker being without braces. It
is the lines from the first one with the anchor on, restyled, and each of
them has the braces of the raw line it was. So its depth is that of its
own text, and it is closed if and only if an opening brace stands in its
lines and its own depth is down to zero. Each of its lines ends with a
newline if and only if the raw line does, with one exception: a first line
that was nothing but white space has lost its newline. That takes an
anchor of white space alone. -/
theorem extract_conserves (block : Block) (lines : List Line)
    {excerpt : Excerpt} (hmarker : Braceless block.style.publicMarker)
    (h : (block.extract lines).value = .ok excerpt) :
    ∃ i, IsStart block.anchor lines i
      ∧ excerpt.lines
        = block.style.restyle ((lines.drop i).take excerpt.lines.length)
      ∧ (∀ n raw shown, lines[i + n]? = some raw →
          excerpt.lines[n]? = some shown →
          shown.count opener = raw.count opener
            ∧ shown.count closer = raw.count closer
            ∧ (['\n'] <:+ shown
              ↔ ['\n'] <:+ raw
                ∧ ¬ (n = 0 ∧ ∀ c ∈ raw, Text.isBlank c = true)))
      ∧ excerpt.depth
        = (excerpt.text.count opener : Int) - excerpt.text.count closer
      ∧ (excerpt.ending = .closed
        ↔ (∃ line ∈ excerpt.lines, opener ∈ line)
          ∧ (excerpt.text.count opener : Int) - excerpt.text.count closer ≤ 0)
      ∧ ∀ raw, lines[i]? = some raw → (∀ c ∈ raw, Text.isBlank c = true) →
          ∀ c ∈ block.anchor, Text.isBlank c = true := by
  obtain ⟨i, k, hlifts⟩ := lifts_of_extract h
  have hnesting : nesting excerpt.lines
      = (excerpt.text.count opener : Int) - excerpt.text.count closer :=
    nesting_eq_counts _
  refine ⟨i, hlifts.start, ?_, ?_, ?_, ?_, ?_⟩
  · have hle := hlifts.le
    have hspan : (lines.drop i).take excerpt.lines.length
        = span lines i k := by
      rw [hlifts.length_lines, span, Nat.sub_add_comm hle]
    rw [hspan]
    exact hlifts.lines_eq
  · intro n raw shown hraw hshown
    obtain ⟨htally, hend⟩ := hlifts.line_conserved hmarker hraw hshown
    rw [BraceTally.ofText_eq_counts, BraceTally.ofText_eq_counts,
      BraceTally.mk.injEq] at htally
    exact ⟨htally.1, htally.2, hend⟩
  · rw [hlifts.depth_eq_nesting hmarker, hnesting]
  · rw [hlifts.closed_iff hmarker, balances, Bool.and_eq_true,
      decide_eq_true_eq, opens_iff, hnesting]
  · intro raw hraw hblank c hc
    obtain ⟨raw', hraw', hocc⟩ := hlifts.start.found
    rw [hraw, Option.some.injEq] at hraw'
    exact hblank c (hraw' ▸ hocc.subset hc)

/-- A content whose first line is white space, and a block behind it. -/
def blankFirst : Text := " \t\n  fn f \x7b\x7d\n".toList

/-- At a blank as anchor, the first line is `pub` and a blank without its
newline, while the second keeps its own. -/
theorem extract_blankFirst :
    Braceless BlockStyle.standard.publicMarker
      ∧ ∃ excerpt,
        ((standard [' ']).extract blankFirst.splitLines).value = .ok excerpt
          ∧ excerpt.lines = ["pub ".toList, "  fn f \x7b\x7d\n".toList]
          ∧ excerpt.depth
            = (excerpt.text.count opener : Int) - excerpt.text.count closer
          ∧ (['\n'] <:+ "pub ".toList
            ↔ ['\n'] <:+ " \t\n".toList
              ∧ ¬ (0 = 0 ∧ ∀ c ∈ " \t\n".toList, Text.isBlank c = true)) := by
  have hmarker : Braceless BlockStyle.standard.publicMarker := by
    constructor <;> decide
  have hvalue : ((standard [' ']).extract blankFirst.splitLines).value
      = .ok ⟨[' '], ["pub ".toList, "  fn f \x7b\x7d\n".toList], .closed, 0⟩ :=
    rfl
  obtain ⟨i, hstart, -, hline, hdepth, -⟩ :=
    extract_conserves (standard [' ']) blankFirst.splitLines hmarker hvalue
  obtain rfl : i = 0 := hstart.unique ((isStart_iff _ _ _).2 rfl)
  exact ⟨hmarker, _, hvalue, rfl, hdepth, (hline 0 _ _ rfl rfl).2.2⟩

end Block

end BraceLift
