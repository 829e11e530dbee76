/-
Where in a content its block and its tail start.

Both are looked for line by line, yet where they start can be told from
the content alone: it is the line in which the anchor occurs first. A line
has a newline at most at its end, so an anchor with a newline at most at
its own end never goes across two lines; it occurs in the content if and
only if it occurs in a line (`infix_flatten_iff`), and the first line with
the anchor has its first occurrence (`cutAtLineOf_of_isStart`). An anchor
with a newline further in front occurs in no line at all.

`extract_from_first_occurrence` says what follows for the two regions: the
tail that is copied as it is has every character from the start of that
line on, and the raw lines of the block are the first of these.
-/
import Mathlib.Data.List.Infix
import BraceLift.Proofs.Block.Extent
import BraceLift.Proofs.Document.Compose
import BraceLift.Proofs.Text.Division
import BraceLift.Proofs.Text.Occurrence

namespace BraceLift

namespace Text

variable {part : Text}

-- ==================================================== the anchor in lines

/-- A text with a newline in front of its end is in no line. -/
theorem not_infix_of_newline_mem {lines : List Line} (h : AreLines lines)
    (hpart : '\n' ∈ part.dropLast) : ∀ line ∈ lines, ¬ part <:+: line := by
  intro line hline hall
  obtain ⟨before, after, rfl⟩ := hall
  have hne : part ≠ [] := fun hnil => by simp [hnil] at hpart
  refine h.newline_last _ hline ?_
  rw [List.append_assoc,
    List.dropLast_append_of_ne_nil (List.append_ne_nil_of_left_ne_nil hne _)]
  refine List.mem_append_right _ ?_
  by_cases hafter : after = []
  · rwa [hafter, List.append_nil]
  · rw [List.dropLast_append_of_ne_nil hafter]
    exact List.mem_append_left _ (List.dropLast_subset _ hpart)

/-- What stands in front of an occurrence in a line has no newline. -/
theorem newline_notMem_of_occurs {lines : List Line} (h : AreLines lines)
    (hne : part ≠ []) {line : Line} (hline : line ∈ lines)
    {before after : Text} (hocc : line = before ++ part ++ after) :
    '\n' ∉ before := by
  intro hin
  refine h.newline_last line hline ?_
  rw [hocc, List.append_assoc,
    List.dropLast_append_of_ne_nil (List.append_ne_nil_of_left_ne_nil hne _)]
  exact List.mem_append_left _ hin

/-- Ended lines put together are nothing, or end where a line does. -/
theorem line_start_flatten {lines : List Line}
    (h : ∀ line ∈ lines, line.IsEnded) :
    lines.flatten = [] ∨ ['\n'] <:+ lines.flatten := by
  rcases List.eq_nil_or_concat' lines with rfl | ⟨front, last, rfl⟩
  · exact .inl rfl
  · refine .inr ((h last (by simp)).suffix.trans ?_)
    rw [List.flatten_append, List.flatten_singleton]
    exact List.suffix_append _ _

variable (hne : part ≠ []) (hlast : '\n' ∉ part.dropLast)

include hne hlast

/-- An occurrence behind ended lines that do not contain the text starts
behind all of them. -/
theorem occurs_behind_lines {lines : List Line}
    (hended : ∀ line ∈ lines, line.IsEnded)
    (hnone : ∀ line ∈ lines, ¬ part <:+: line) {t before after : Text}
    (h : lines.flatten ++ t = before ++ part ++ after) :
    ∃ front, before = lines.flatten ++ front ∧ t = front ++ part ++ after := by
  induction lines generalizing before with
  | nil => exact ⟨before, rfl, h⟩
  | cons line rest ih =>
      obtain ⟨⟨body, -, hline⟩, hrest⟩ := List.forall_mem_cons.1 hended
      obtain ⟨hnot, hnots⟩ := List.forall_mem_cons.1 hnone
      subst hline
      rw [List.flatten_cons, List.append_assoc, List.append_assoc,
        List.singleton_append] at h
      rcases occurs_before_or_behind hne hlast h with
        ⟨after', hin⟩ | ⟨front, rfl, hfront⟩
      · exact absurd ⟨before, after', hin.symm⟩ hnot
      · obtain ⟨front', rfl, ht⟩ := ih hrest hnots hfront
        exact ⟨front', by simp, ht⟩

/-- A text with a newline at most at its end occurs in lines put together
if and only if it occurs in one of them. -/
theorem infix_flatten_iff {lines : List Line} (hcut : AreCut lines) :
    part <:+: lines.flatten ↔ ∃ line ∈ lines, part <:+: line := by
  constructor
  · intro h
    induction hcut with
    | nil => exact absurd (List.infix_nil.1 h) hne
    | last _ =>
        rw [List.flatten_singleton] at h
        exact ⟨_, List.mem_singleton_self _, h⟩
    | @cons line rest hended _ ih =>
        obtain ⟨body, -, rfl⟩ := hended
        rw [List.flatten_cons, List.append_assoc, List.singleton_append,
          infix_append_cons_iff hne hlast] at h
        rcases h with h | h
        · exact ⟨_, List.mem_cons_self .., h⟩
        · obtain ⟨l, hl, hin⟩ := ih h
          exact ⟨l, List.mem_cons_of_mem _ hl, hin⟩
  · rintro ⟨line, hline, h⟩
    exact h.trans (List.infix_of_mem_flatten hline)

/-- Where lines without the text stand in front of a line with it, that
line is the one in which the text occurs first. -/
theorem cutAtLineOf_append {xs ys : List Line} {line : Line}
    (hlines : AreLines (xs ++ line :: ys))
    (hnone : ∀ l ∈ xs, ¬ part <:+: l) (hocc : part <:+: line) :
    CutAtLineOf part (xs ++ line :: ys).flatten xs.flatten
      (line :: ys).flatten := by
  have hended : ∀ l ∈ xs, l.IsEnded :=
    hlines.areCut.isEnded_left (List.cons_ne_nil line ys)
  obtain ⟨before, hbefore⟩ := exists_beforeFirst
    ((infix_flatten_iff hne hlast hlines.areCut).2 ⟨line, by simp, hocc⟩)
  obtain ⟨after, hafter⟩ := hbefore.found
  rw [List.flatten_append] at hafter
  obtain ⟨between, rfl, hrest⟩ :=
    occurs_behind_lines hne hlast hended hnone hafter
  refine ⟨List.flatten_append, line_start_flatten hended, between, ?_, hbefore⟩
  -- the first occurrence is not behind any one in the line
  obtain ⟨inside, more, rfl⟩ := hocc
  have hle := hbefore.first (xs.flatten ++ inside) (more ++ ys.flatten)
    (by simp)
  have hbetween : between <+: ((inside ++ part ++ more) :: ys).flatten := by
    rw [hrest, List.append_assoc]
    exact List.prefix_append _ _
  have hinside : inside <+: ((inside ++ part ++ more) :: ys).flatten := by
    simp
  have hshort : between <+: inside :=
    List.prefix_of_prefix_length_le hbetween hinside (by simpa using hle)
  have hfree := newline_notMem_of_occurs hlines hne
    (List.mem_append_right xs (List.mem_cons_self ..)) rfl
  exact fun hin => hfree (hshort.subset hin)

/-- The first line that contains the anchor is the line of the first
occurrence of the anchor in all lines together. -/
theorem cutAtLineOf_of_isStart {lines : List Line} (hlines : AreLines lines)
    {i : Nat} (h : Block.IsStart part lines i) :
    CutAtLineOf part lines.flatten (lines.take i).flatten
      (lines.drop i).flatten := by
  obtain ⟨⟨line, hline, hocc⟩, hfirst⟩ := h
  obtain ⟨hi, rfl⟩ := List.getElem?_eq_some_iff.1 hline
  have hnone : ∀ l ∈ lines.take i, ¬ part <:+: l := by
    intro l hl
    obtain ⟨j, hj, rfl⟩ := List.mem_take_iff_getElem.1 hl
    exact hfirst j _ (by omega) (List.getElem?_eq_getElem (by omega))
  have hsplit : lines.take i ++ lines[i] :: lines.drop (i + 1) = lines := by
    rw [← List.drop_eq_getElem_cons hi, List.take_append_drop]
  have hcut := cutAtLineOf_append hne hlast (hsplit.symm ▸ hlines) hnone hocc
  rwa [hsplit, ← List.drop_eq_getElem_cons hi] at hcut

end Text

-- =========================================================== the two regions

/-- The search for an anchor fails if and only if no line contains it. -/
theorem Block.findIdx?_eq_none_iff_not_exists (anchor : Text)
    (lines : List Line) :
    lines.findIdx? anchor.occursIn = none
      ↔ ¬ ∃ raw ∈ lines, anchor <:+: raw := by
  rw [findIdx?_occursIn_eq_none_iff]
  simp

/-- A block starts if some line contains its anchor. -/
theorem Block.exists_isStart {anchor : Text} {lines : List Line}
    (h : ∃ raw ∈ lines, anchor <:+: raw) : ∃ i, IsStart anchor lines i := by
  cases hidx : lines.findIdx? anchor.occursIn with
  | none => exact absurd h ((findIdx?_eq_none_iff_not_exists _ _).1 hidx)
  | some i => exact ⟨i, (isStart_iff _ _ _).2 hidx⟩

/-- Where a block starts, there is an excerpt of it. -/
theorem Block.exists_lifts (block : Block) (hne : block.anchor ≠ [])
    {lines : List Line} {i : Nat} (h : IsStart block.anchor lines i) :
    ∃ k excerpt, (block.extract lines).value = .ok excerpt
      ∧ block.Lifts lines i k excerpt := by
  have hidx := (isStart_iff _ _ _).1 h
  have hok : ∃ excerpt, (block.extract lines).value = .ok excerpt := by
    cases hclose : closing? (lines.drop i) with
    | none => exact ⟨_, value_extract_truncated block hne lines hidx hclose⟩
    | some n => exact ⟨_, value_extract_closed block hne lines hidx hclose⟩
  obtain ⟨excerpt, hexcerpt⟩ := hok
  obtain ⟨j, k, hlifts⟩ := lifts_of_extract hexcerpt
  obtain rfl := h.unique hlifts.start
  exact ⟨k, excerpt, hexcerpt, hlifts⟩

/-- The anchor of a block is missing if and only if no line contains it. -/
theorem Block.missing_iff (block : Block) (hne : block.anchor ≠ [])
    (lines : List Line) :
    (block.extract lines).value = .error (.anchorNotFound block.anchor)
      ↔ ¬ ∃ raw ∈ lines, block.anchor <:+: raw := by
  rw [← findIdx?_eq_none_iff_not_exists]
  cases hidx : lines.findIdx? block.anchor.occursIn with
  | none => exact iff_of_true (value_extract_missing block hne lines hidx) rfl
  | some i =>
      obtain ⟨k, excerpt, hexcerpt, -⟩ :=
        block.exists_lifts hne ((isStart_iff _ _ _).2 hidx)
      rw [hexcerpt]
      simp

/-- So it is with the anchor of a tail. -/
theorem Tail.missing_iff (tail : Tail) (hne : tail.anchor ≠ [])
    (lines : List Line) :
    (tail.extract lines).value = .error (.anchorNotFound tail.anchor)
      ↔ ¬ ∃ raw ∈ lines, tail.anchor <:+: raw := by
  rw [← Block.findIdx?_eq_none_iff_not_exists]
  cases hidx : lines.findIdx? tail.anchor.occursIn with
  | none => exact iff_of_true (value_extract_missing hne hidx) rfl
  | some i =>
      rw [value_extract_found hne hidx]
      simp

/-- A tail that is copied as it is keeps every line. -/
theorem Tail.keep_verbatim (anchor : Text) (region : List Line) :
    (verbatim anchor).keep region = region := by
  have hall : region.filter (!(verbatim anchor).drops ·) = region :=
    List.filter_eq_self.2 fun _ _ => rfl
  rw [keep, hall]
  exact List.map_id _

/-- What a block and a tail take from the rest of a content: the tail what
it keeps of all its lines, one that is copied as it is the rest itself, and
the block the raw lines that the rest begins with. -/
structure TakenFrom (block : Block) (tail : Tail) (content rest : Text) :
    Prop where
  kept : (tail.extract content.splitLines).value
    = .ok (.complete tail.anchor (tail.keep rest.splitLines))
  copied : ∃ copy, ((Tail.verbatim tail.anchor).extract
    content.splitLines).value = .ok copy ∧ copy.text = rest
  lifted : ∃ i k excerpt,
    (block.extract content.splitLines).value = .ok excerpt
      ∧ block.Lifts content.splitLines i k excerpt
      ∧ (Block.span content.splitLines i k).flatten <+: rest

/-- The rest is all lines from the start of the block on. -/
theorem takenFrom_of_isStart {anchor : Text} (hne : anchor ≠ [])
    (style : BlockStyle) (openings : List Text)
    (substitutions : List Substitution) {content : Text} {i : Nat}
    (hstart : Block.IsStart anchor content.splitLines i) :
    TakenFrom ⟨anchor, style⟩ ⟨anchor, openings, substitutions⟩ content
      (content.splitLines.drop i).flatten := by
  have hidx := (Block.isStart_iff _ _ _).1 hstart
  have hcut := (Text.areCut_splitLines content).sublist
    (List.drop_sublist i content.splitLines)
  refine ⟨?_, ?_, ?_⟩
  · rw [Text.splitLines_flatten hcut, Tail.value_extract_found hne hidx]
  · refine ⟨_, Tail.value_extract_found hne hidx, ?_⟩
    rw [Tail.keep_verbatim]
    rfl
  · obtain ⟨k, excerpt, hexcerpt, hlifts⟩ :=
      Block.exists_lifts ⟨anchor, style⟩ hne hstart
    exact ⟨i, k, excerpt, hexcerpt, hlifts,
      List.IsPrefix.flatten (List.take_prefix _ _)⟩

/-- Take an anchor that has a newline at most at its end. A block and a
tail at this anchor, whatever they do to their lines, miss it in a content
if and only if it does not occur there. If it does, both take what they
take from the line of its first occurrence on. An anchor with a newline
further in front is missed in every content. -/
theorem extract_from_first_occurrence {anchor : Text} (hne : anchor ≠ [])
    (style : BlockStyle) (openings : List Text)
    (substitutions : List Substitution) (content : Text) :
    ('\n' ∉ anchor.dropLast →
        ((Block.extract ⟨anchor, style⟩ content.splitLines).value
            = .error (.anchorNotFound anchor) ↔ ¬ anchor <:+: content)
          ∧ ((Tail.extract ⟨anchor, openings, substitutions⟩
              content.splitLines).value
            = .error (.anchorNotFound anchor) ↔ ¬ anchor <:+: content)
          ∧ (anchor <:+: content →
            ∃ front rest, Text.CutAtLineOf anchor content front rest)
          ∧ ∀ front rest, Text.CutAtLineOf anchor content front rest →
            TakenFrom ⟨anchor, style⟩ ⟨anchor, openings, substitutions⟩
              content rest)
      ∧ ('\n' ∈ anchor.dropLast →
        (Block.extract ⟨anchor, style⟩ content.splitLines).value
            = .error (.anchorNotFound anchor)
          ∧ (Tail.extract ⟨anchor, openings, substitutions⟩
              content.splitLines).value
            = .error (.anchorNotFound anchor)) := by
  have hlines := (Text.areCut_splitLines content).areLines
  have hblock := Block.missing_iff ⟨anchor, style⟩ hne content.splitLines
  have htail := Tail.missing_iff ⟨anchor, openings, substitutions⟩ hne
    content.splitLines
  constructor
  · intro hlast
    have hin : anchor <:+: content
        ↔ ∃ raw ∈ content.splitLines, anchor <:+: raw := by
      rw [← Text.infix_flatten_iff hne hlast hlines.areCut,
        Text.flatten_splitLines]
    have hcut : ∀ {i}, Block.IsStart anchor content.splitLines i →
        Text.CutAtLineOf anchor content (content.splitLines.take i).flatten
          (content.splitLines.drop i).flatten := by
      intro i hstart
      have h := Text.cutAtLineOf_of_isStart hne hlast hlines hstart
      rwa [Text.flatten_splitLines] at h
    refine ⟨hblock.trans (not_congr hin.symm), htail.trans (not_congr hin.symm),
      ?_, ?_⟩
    · intro hocc
      obtain ⟨i, hstart⟩ := Block.exists_isStart (hin.1 hocc)
      exact ⟨_, _, hcut hstart⟩
    · intro front rest hrest
      obtain ⟨between, -, ⟨after, hafter⟩, -⟩ := hrest.same_line
      obtain ⟨i, hstart⟩ :=
        Block.exists_isStart (hin.1 ⟨_, after, hafter.symm⟩)
      obtain ⟨-, rfl⟩ := hrest.unique (hcut hstart)
      exact takenFrom_of_isStart hne style openings substitutions hstart
  · intro hearly
    have hnone : ¬ ∃ raw ∈ content.splitLines, anchor <:+: raw := by
      rintro ⟨raw, hraw, hocc⟩
      exact Text.not_infix_of_newline_mem hlines hearly raw hraw hocc
    exact ⟨hblock.2 hnone, htail.2 hnone⟩

/-- A content in which an opening brace comes up before the first one at
the end of a line. -/
def braceInside : Text := "a \x7b b\nfn f() \x7b\n x\n\x7d\nmore".toList

/-- At an anchor that ends with a newline, both regions start with the
second line; at one with a newline in front, there is none. -/
theorem extract_braceInside :
    "\x7b\n".toList ≠ [] ∧ '\n' ∉ "\x7b\n".toList.dropLast
      ∧ "\x7b\n".toList <:+: braceInside
      ∧ Text.CutAtLineOf "\x7b\n".toList braceInside "a \x7b b\n".toList
        "fn f() \x7b\n x\n\x7d\nmore".toList
      ∧ TakenFrom (.standard "\x7b\n".toList) (.verbatim "\x7b\n".toList)
        braceInside "fn f() \x7b\n x\n\x7d\nmore".toList
      ∧ '\n' ∈ "\n\x7d".toList.dropLast
      ∧ ((Block.standard "\n\x7d".toList).extract braceInside.splitLines).value
        = .error (.anchorNotFound "\n\x7d".toList) := by
  have hne : "\x7b\n".toList ≠ [] := by decide
  have hlast : '\n' ∉ "\x7b\n".toList.dropLast := by decide
  have hocc : "\x7b\n".toList <:+: braceInside :=
    (Text.occursIn_iff _ _).1 (by decide)
  have hcut : Text.CutAtLineOf "\x7b\n".toList braceInside
      "a \x7b b\n".toList "fn f() \x7b\n x\n\x7d\nmore".toList :=
    Text.cutAtLineOf_of_isStart hne hlast
      (Text.areCut_splitLines braceInside).areLines
      ((Block.isStart_iff _ _ 1).2 rfl)
  have hearly : '\n' ∈ "\n\x7d".toList.dropLast := by decide
  obtain ⟨-, -, -, htaken⟩ := (extract_from_first_occurrence hne .standard
    [] [] braceInside).1 hlast
  obtain ⟨hmissed, -⟩ := (extract_from_first_occurrence (by decide) .standard
    [] [] braceInside).2 hearly
  exact ⟨hne, hlast, hocc, hcut, htaken _ _ hcut, hearly, hmissed⟩

end BraceLift
