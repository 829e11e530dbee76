/-
Blocks read character by character.

A scan looks at the nesting depth only where a line ends. A
`BraceCounter` looks at it after every character and stops at the first
one after which a brace has been opened and no more are open than were
closed (`stop?`). `Nested` says which closing brace matches an opening
one: the text between the two has all its braces in pairs.

What a counter has read when it stops is one of two things
(`reaches_of_stop?`). If no closing brace stands before the first opening
one, it is the text up to the brace that matches this one; if one does,
the depth is below zero there and the counter stops at the first opening
brace itself.

The two levels are tied by one fact: after whole lines the counter is
settled if and only if the lines balance (`isSettled_after_flatten`). So
a block never closes before the line in which the counter stops, and in
that line unless the rest of it opens more braces than it closes
(`extract_closes_from_stop`).
-/
import Mathlib.Data.List.Infix
import BraceLift.Proofs.Block.Ends

namespace BraceLift

open BraceTally (opener closer)

/-- Braces counted one character after the other. -/
structure BraceCounter where
  /-- Opening braces less closing ones. -/
  depth : Int
  /-- Whether an opening brace has been counted. -/
  opened : Bool
  deriving DecidableEq

namespace BraceCounter

-- ============================================================ the counter

/-- Nothing counted yet. -/
def fresh : BraceCounter := ⟨0, false⟩

/-- Counts one more character. -/
def feed (counter : BraceCounter) (c : Char) : BraceCounter :=
  if c = opener then ⟨counter.depth + 1, true⟩
  else if c = closer then ⟨counter.depth - 1, counter.opened⟩
  else counter

/-- The counter after some more text. -/
def after (counter : BraceCounter) (t : Text) : BraceCounter :=
  t.foldl feed counter

/-- Whether a brace has been opened and no more are open than were
closed. -/
def isSettled (counter : BraceCounter) : Bool :=
  counter.opened && decide (counter.depth ≤ 0)

/-- What a counter reads of a text until it is settled, and what is left
then; nothing if it never is. -/
def stop? (counter : BraceCounter) : Text → Option (Text × Text)
  | [] => none
  | c :: rest =>
      let next := counter.feed c
      if next.isSettled then some ([c], rest)
      else (next.stop? rest).map fun cut => (c :: cut.1, cut.2)

theorem feed_eq (counter : BraceCounter) (c : Char) :
    counter.feed c
      = ⟨counter.depth + (BraceTally.ofText [c]).net,
          counter.opened || (BraceTally.ofText [c]).hasOpening⟩ := by
  have hne : opener ≠ closer := by decide
  unfold feed
  rw [BraceTally.ofText_eq_counts]
  by_cases ho : c = opener
  · subst ho
    simp [BraceTally.net, BraceTally.hasOpening, hne]
  · by_cases hc : c = closer
    · subst hc
      simp [BraceTally.net, BraceTally.hasOpening, Ne.symm hne,
        Int.sub_eq_add_neg]
    · simp [BraceTally.net, BraceTally.hasOpening, ho, hc]

/-- A counter adds the tally of a text to what it had. -/
theorem after_eq (counter : BraceCounter) (t : Text) :
    counter.after t
      = ⟨counter.depth + (BraceTally.ofText t).net,
          counter.opened || (BraceTally.ofText t).hasOpening⟩ := by
  induction t generalizing counter with
  | nil => simp [after, BraceTally.ofText_eq_counts, BraceTally.net,
      BraceTally.hasOpening]
  | cons c rest ih =>
      have hstep : counter.after (c :: rest) = (counter.feed c).after rest :=
        rfl
      have hnet := BraceTally.net_append [c] rest
      have hopening := BraceTally.hasOpening_append [c] rest
      rw [List.singleton_append] at hnet hopening
      rw [hstep, ih, feed_eq, hnet, hopening, Int.add_assoc, Bool.or_assoc]

/-- After whole lines, a counter is settled if the lines balance. -/
theorem isSettled_after_flatten (raws : List Line) :
    (fresh.after raws.flatten).isSettled = Block.balances raws := by
  rw [after_eq]
  unfold isSettled Block.balances Block.nesting Block.opens fresh
  rw [Bool.false_or, Int.zero_add]

-- =============================================================== stopping

/-- A counter that is settled by the next character stops behind it. -/
theorem stop?_of_feed {counter : BraceCounter} {c : Char} (t : Text)
    (h : (counter.feed c).isSettled = true) :
    counter.stop? (c :: t) = some ([c], t) := by
  rw [stop?, h]
  rfl

/-- A counter that is not settled by it goes on. -/
theorem stop?_cons {counter : BraceCounter} {c : Char}
    {t read rest : Text} (hnot : (counter.feed c).isSettled = false)
    (h : counter.stop? (c :: t) = some (read, rest)) :
    ∃ more, (counter.feed c).stop? t = some (more, rest)
      ∧ read = c :: more := by
  rw [stop?, hnot, if_neg Bool.false_ne_true, Option.map_eq_some_iff] at h
  obtain ⟨⟨more, rest'⟩, hcut, heq⟩ := h
  cases heq
  exact ⟨more, hcut, rfl⟩

/-- A counter that stops has read the front of the text and is settled. -/
theorem stop?_eq_some {counter : BraceCounter} {t read rest : Text}
    (h : counter.stop? t = some (read, rest)) :
    t = read ++ rest ∧ (counter.after read).isSettled = true := by
  induction t generalizing counter read with
  | nil => cases h
  | cons c t ih =>
      cases hnext : (counter.feed c).isSettled with
      | true =>
          rw [stop?_of_feed t hnext] at h
          cases h
          exact ⟨rfl, hnext⟩
      | false =>
          obtain ⟨more, hcut, rfl⟩ := stop?_cons hnext h
          obtain ⟨rfl, hread⟩ := ih hcut
          exact ⟨rfl, hread⟩

/-- A counter that is settled after some of a text stops there or
before. -/
theorem stop?_of_isSettled {counter : BraceCounter} {t front : Text}
    (hne : front ≠ []) (hfront : front <+: t)
    (h : (counter.after front).isSettled = true) :
    ∃ read rest, counter.stop? t = some (read, rest) ∧ read <+: front := by
  induction t generalizing counter front with
  | nil => exact absurd (List.prefix_nil.1 hfront) hne
  | cons c more ih =>
      obtain ⟨d, front, rfl⟩ := List.exists_cons_of_ne_nil hne
      obtain ⟨rfl, hprefix⟩ := List.cons_prefix_cons.1 hfront
      cases hnext : (counter.feed d).isSettled with
      | true =>
          exact ⟨[d], more, stop?_of_feed more hnext,
            List.prefix_append [d] front⟩
      | false =>
          have hrest : front ≠ [] := by
            rintro rfl
            have hone : (counter.feed d).isSettled = true := h
            rw [hnext] at hone
            cases hone
          obtain ⟨read, rest, hcut, hread⟩ := ih hrest hprefix h
          refine ⟨d :: read, rest, ?_, List.cons_prefix_cons.2 ⟨rfl, hread⟩⟩
          rw [stop?, hnext, if_neg Bool.false_ne_true, hcut]
          rfl

end BraceCounter

-- =============================================================== matching

/-- Whether all braces of a text are in pairs. An opening brace and a
closing one match if what stands between them is such a text. -/
inductive Nested : Text → Prop where
  | nil : Nested []
  | plain {c : Char} {rest : Text} :
      c ≠ opener → c ≠ closer → Nested rest → Nested (c :: rest)
  | pair {inner rest : Text} :
      Nested inner → Nested rest → Nested (opener :: (inner ++ closer :: rest))

/-- Whether a text is so many nested texts, each with a brace that closes
what was open around it. -/
def Unwinds (depth : Nat) (t : Text) : Prop :=
  ∃ inners : List Text, inners.length = depth ∧ (∀ s ∈ inners, Nested s)
    ∧ t = (inners.map (· ++ [closer])).flatten

namespace Unwinds

variable {d : Nat} {t : Text}

theorem zero : Unwinds 0 [] :=
  ⟨[], rfl, List.forall_mem_nil _, rfl⟩

theorem closer_cons (h : Unwinds d t) : Unwinds (d + 1) (closer :: t) := by
  obtain ⟨inners, rfl, hnested, rfl⟩ := h
  exact ⟨[] :: inners, rfl, List.forall_mem_cons.2 ⟨.nil, hnested⟩, rfl⟩

theorem plain_cons {c : Char} (ho : c ≠ opener) (hc : c ≠ closer)
    (h : Unwinds (d + 1) t) : Unwinds (d + 1) (c :: t) := by
  obtain ⟨inners, hlen, hnested, rfl⟩ := h
  obtain ⟨s, others, rfl⟩ := List.exists_cons_of_length_eq_add_one hlen
  obtain ⟨hs, hothers⟩ := List.forall_mem_cons.1 hnested
  exact ⟨(c :: s) :: others, hlen,
    List.forall_mem_cons.2 ⟨.plain ho hc hs, hothers⟩, rfl⟩

/-- An opening brace makes one nested text of the first two. -/
theorem opener_cons (h : Unwinds (d + 2) t) :
    Unwinds (d + 1) (opener :: t) := by
  obtain ⟨inners, hlen, hnested, rfl⟩ := h
  obtain ⟨s, others, rfl⟩ := List.exists_cons_of_length_eq_add_one hlen
  obtain ⟨s', others, rfl⟩ :=
    List.exists_cons_of_length_eq_add_one (Nat.succ.inj hlen)
  obtain ⟨hs, hothers⟩ := List.forall_mem_cons.1 hnested
  obtain ⟨hs', hothers⟩ := List.forall_mem_cons.1 hothers
  exact ⟨(opener :: (s ++ closer :: s')) :: others, Nat.succ.inj hlen,
    List.forall_mem_cons.2 ⟨.pair hs hs', hothers⟩, by simp⟩

theorem nested (h : Unwinds 1 t) : ∃ inner, Nested inner
    ∧ t = inner ++ [closer] := by
  obtain ⟨inners, hlen, hnested, rfl⟩ := h
  obtain ⟨inner, rfl⟩ := List.length_eq_one_iff.1 hlen
  exact ⟨inner, hnested inner (List.mem_singleton.2 rfl), by simp⟩

end Unwinds

/-- Whether a text ends where its first opening brace is matched or, if a
closing brace stands before that one, with this opening brace. -/
inductive Reaches : Text → Prop where
  | matching {front inner : Text} :
      opener ∉ front → closer ∉ front → Nested inner →
      Reaches (front ++ opener :: (inner ++ [closer]))
  | opening {front : Text} :
      opener ∉ front → closer ∈ front → Reaches (front ++ [opener])

theorem Reaches.plain_cons {c : Char} {t : Text} (ho : c ≠ opener)
    (hc : c ≠ closer) (h : Reaches t) : Reaches (c :: t) := by
  cases h with
  | @matching front inner hopener hcloser hinner =>
      have hopener' := List.not_mem_cons_of_ne_of_not_mem (Ne.symm ho) hopener
      have hcloser' := List.not_mem_cons_of_ne_of_not_mem (Ne.symm hc) hcloser
      exact .matching hopener' hcloser' hinner
  | @opening front hopener hcloser =>
      have hopener' := List.not_mem_cons_of_ne_of_not_mem (Ne.symm ho) hopener
      exact .opening hopener' (List.mem_cons_of_mem c hcloser)

namespace BraceCounter

variable {depth : Int} {opened : Bool}

theorem feed_opener : feed ⟨depth, opened⟩ opener = ⟨depth + 1, true⟩ := rfl

theorem feed_closer :
    feed ⟨depth, opened⟩ closer = ⟨depth - 1, opened⟩ := rfl

theorem feed_plain (counter : BraceCounter) {c : Char} (ho : c ≠ opener)
    (hc : c ≠ closer) : counter.feed c = counter := by
  unfold feed
  rw [if_neg ho, if_neg hc]

theorem not_isSettled_of_pos (h : 0 < depth) :
    isSettled ⟨depth, opened⟩ = false := by
  unfold isSettled
  rw [decide_eq_false (by dsimp only; omega), Bool.and_false]

theorem isSettled_of_opened (h : depth ≤ 0) :
    isSettled ⟨depth, true⟩ = true := by
  unfold isSettled
  rw [decide_eq_true h]
  rfl

/-- With `d + 1` braces open, a counter reads until all are closed. -/
theorem unwinds_of_stop? {d : Nat} {t read rest : Text}
    (h : stop? ⟨d + 1, true⟩ t = some (read, rest)) :
    Unwinds (d + 1) read := by
  induction t generalizing d read with
  | nil => cases h
  | cons c t ih =>
      by_cases ho : c = opener
      · subst ho
        have hopen : (feed ⟨(d : Int) + 1, true⟩ opener).isSettled = false := by
          rw [feed_opener]
          exact not_isSettled_of_pos (by omega)
        obtain ⟨more, hcut, rfl⟩ := stop?_cons hopen h
        exact (ih (d := d + 1) hcut).opener_cons
      · by_cases hc : c = closer
        · subst hc
          cases d with
          | zero =>
              rw [stop?_of_feed t rfl] at h
              cases h
              exact Unwinds.zero.closer_cons
          | succ d =>
              have hnext : feed ⟨((d + 1 : Nat) : Int) + 1, true⟩ closer
                  = ⟨d + 1, true⟩ := by
                rw [feed_closer, Int.add_sub_cancel]
                rfl
              have hopen : (feed ⟨((d + 1 : Nat) : Int) + 1, true⟩
                  closer).isSettled = false := by
                rw [hnext]
                exact not_isSettled_of_pos (by omega)
              obtain ⟨more, hcut, rfl⟩ := stop?_cons hopen h
              rw [hnext] at hcut
              exact (ih hcut).closer_cons
        · have hnext := feed_plain ⟨(d : Int) + 1, true⟩ ho hc
          have hopen : (feed ⟨(d : Int) + 1, true⟩ c).isSettled = false := by
            rw [hnext]
            exact not_isSettled_of_pos (by omega)
          obtain ⟨more, hcut, rfl⟩ := stop?_cons hopen h
          rw [hnext] at hcut
          exact (ih hcut).plain_cons ho hc

/-- Nothing but an opening brace settles a counter that has read none. -/
theorem feed_unopened {c : Char} (ho : c ≠ opener) (depth : Int) :
    (feed ⟨depth, false⟩ c).isSettled = false
      ∧ feed ⟨depth, false⟩ c
        = ⟨if c = closer then depth - 1 else depth, false⟩ := by
  unfold feed
  rw [if_neg ho]
  split <;> exact ⟨rfl, rfl⟩

/-- Below zero, a counter stops at the first opening brace. -/
theorem opening_of_stop? {depth : Int} {t read rest : Text}
    (hneg : depth < 0) (h : stop? ⟨depth, false⟩ t = some (read, rest)) :
    ∃ front, opener ∉ front ∧ read = front ++ [opener] := by
  induction t generalizing depth read with
  | nil => cases h
  | cons c t ih =>
      by_cases ho : c = opener
      · subst ho
        have hsettled : (feed ⟨depth, false⟩ opener).isSettled = true := by
          rw [feed_opener]
          exact isSettled_of_opened (by omega)
        rw [stop?_of_feed t hsettled] at h
        cases h
        exact ⟨[], List.not_mem_nil, rfl⟩
      · obtain ⟨hopen, hnext⟩ := feed_unopened ho depth
        obtain ⟨more, hcut, rfl⟩ := stop?_cons hopen h
        rw [hnext] at hcut
        obtain ⟨front, hfront, rfl⟩ := ih (by split <;> omega) hcut
        exact ⟨c :: front,
          List.not_mem_cons_of_ne_of_not_mem (Ne.symm ho) hfront, rfl⟩

/-- A counter from the start reads up to the brace that matches the first
opening one, or is below zero when this one comes. -/
theorem reaches_of_stop? {t read rest : Text}
    (h : fresh.stop? t = some (read, rest)) : Reaches read := by
  induction t generalizing read with
  | nil => cases h
  | cons c t ih =>
      by_cases ho : c = opener
      · subst ho
        obtain ⟨more, hcut, rfl⟩ := stop?_cons rfl h
        obtain ⟨inner, hinner, rfl⟩ := (unwinds_of_stop? (d := 0) hcut).nested
        exact @Reaches.matching [] inner List.not_mem_nil List.not_mem_nil
          hinner
      · obtain ⟨hopen, -⟩ := feed_unopened ho 0
        obtain ⟨more, hcut, rfl⟩ := stop?_cons hopen h
        by_cases hc : c = closer
        · subst hc
          obtain ⟨front, hfront, rfl⟩ := opening_of_stop? (by decide) hcut
          exact @Reaches.opening (closer :: front)
            (List.not_mem_cons_of_ne_of_not_mem (Ne.symm ho) hfront)
            (List.mem_cons_self ..)
        · rw [feed_plain _ ho hc] at hcut
          exact (ih hcut).plain_cons ho hc

end BraceCounter

namespace Block

-- ============================================== where the counter stops

/-- Whether the counter that reads the lines from `i` on stops inside line
`j`. It has then read `read`, of which `part` is in line `j`, and `left`
is what is left of this line. -/
structure StopsIn (lines : List Line) (i j : Nat)
    (read part left : Text) : Prop where
  le : i ≤ j
  stops : ∃ rest, BraceCounter.fresh.stop? (lines.drop i).flatten
    = some (read, rest)
  line : lines[j]? = some (part ++ left)
  part_ne_nil : part ≠ []
  read_eq : read = ((lines.drop i).take (j - i)).flatten ++ part

/-- Whether the counter that reads the lines from `i` on never stops. -/
def NeverStops (lines : List Line) (i : Nat) : Prop :=
  BraceCounter.fresh.stop? (lines.drop i).flatten = none

/-- The last character of any front of some lines is in one of them. -/
theorem exists_line_of_prefix {raws : List Line} {read : Text}
    (hne : read ≠ []) (hread : read <+: raws.flatten) :
    ∃ n part left, raws[n]? = some (part ++ left) ∧ part ≠ []
      ∧ read = (raws.take n).flatten ++ part := by
  induction raws generalizing read with
  | nil => exact absurd (List.prefix_nil.1 hread) hne
  | cons raw more ih =>
      obtain ⟨rest, hrest⟩ := hread
      rw [List.flatten_cons, List.append_eq_append_iff] at hrest
      rcases hrest with ⟨left, rfl, -⟩ | ⟨more', rfl, hmore⟩
      · exact ⟨0, read, left, rfl, hne, rfl⟩
      · by_cases hnil : more' = []
        · subst hnil
          rw [List.append_nil] at hne ⊢
          exact ⟨0, raw, [], by simp, hne, rfl⟩
        · obtain ⟨n, part, left, hline, hpart, rfl⟩ :=
            ih hnil ⟨rest, hmore.symm⟩
          refine ⟨n + 1, part, left, hline, hpart, ?_⟩
          rw [List.take_succ_cons, List.flatten_cons, List.append_assoc]

variable {lines : List Line} {i j : Nat} {read part left : Text}

theorem exists_stopsIn {rest : Text}
    (h : BraceCounter.fresh.stop? (lines.drop i).flatten
      = some (read, rest)) :
    ∃ j part left, StopsIn lines i j read part left := by
  obtain ⟨heq, hsettled⟩ := BraceCounter.stop?_eq_some h
  have hne : read ≠ [] := by
    rintro rfl
    cases hsettled
  obtain ⟨n, part, left, hline, hpart, hread⟩ :=
    exists_line_of_prefix hne (heq ▸ List.prefix_append read rest)
  refine ⟨i + n, part, left, Nat.le_add_right i n, ⟨rest, h⟩, ?_, hpart, ?_⟩
  · rw [← hline, List.getElem?_drop]
  · rw [Nat.add_sub_cancel_left]
    exact hread

/-- Lines that close stop a counter before their end. -/
theorem Closes.stops {k : Nat} (h : Closes lines i k) :
    ∃ read rest, BraceCounter.fresh.stop? (lines.drop i).flatten
        = some (read, rest)
      ∧ read <+: (span lines i k).flatten := by
  obtain ⟨n, rfl⟩ := Nat.exists_eq_add_of_le h.le
  obtain ⟨-, hbal⟩ := (closes_add_iff lines i n).1 h
  rw [← span_add, ← BraceCounter.isSettled_after_flatten] at hbal
  refine BraceCounter.stop?_of_isSettled ?_ ?_ hbal
  · intro hnil
    rw [hnil] at hbal
    cases hbal
  · rw [span_add]
    exact (List.take_prefix _ _).flatten

/-- A counter that never stops leaves nothing that closes. -/
theorem NeverStops.not_closes (h : NeverStops lines i) (k : Nat) :
    ¬ Closes lines i k := by
  intro hk
  obtain ⟨read, rest, hstop, -⟩ := hk.stops
  rw [NeverStops, hstop] at h
  cases h

namespace StopsIn

/-- Up to the end of the line in which the counter stops, the lines are
what it has read and what is left of the line. -/
theorem flatten_span (h : StopsIn lines i j read part left) :
    (span lines i j).flatten = read ++ left := by
  have hget : (lines.drop i)[j - i]? = some (part ++ left) := by
    rw [List.getElem?_drop, Nat.add_sub_cancel' h.le, h.line]
  have hsub : j + 1 - i = j - i + 1 := by
    have := h.le
    omega
  rw [span, hsub, List.take_add_one, hget, List.flatten_append, h.read_eq,
    List.append_assoc]
  simp

theorem isSettled (h : StopsIn lines i j read part left) :
    (BraceTally.ofText read).hasOpening = true
      ∧ (BraceTally.ofText read).net ≤ 0 := by
  obtain ⟨rest, hstop⟩ := h.stops
  obtain ⟨-, hsettled⟩ := BraceCounter.stop?_eq_some hstop
  rw [BraceCounter.after_eq, BraceCounter.isSettled, Bool.and_eq_true,
    decide_eq_true_eq] at hsettled
  simpa [BraceCounter.fresh] using hsettled

/-- No line before the one in which the counter stops closes the block. -/
theorem le_of_closes (h : StopsIn lines i j read part left) {k : Nat}
    (hk : Closes lines i k) : j ≤ k := by
  obtain ⟨rest, hstop⟩ := h.stops
  obtain ⟨read', rest', hstop', hread⟩ := hk.stops
  rw [hstop] at hstop'
  cases hstop'
  by_contra hlt
  -- all lines up to `k` would be shorter than what the counter has read
  have hlines : span lines i k <+: (lines.drop i).take (j - i) :=
    List.take_prefix_take_left (by omega)
  have hshort := hlines.flatten.length_le
  have hlong := hread.length_le
  have hpart := List.length_pos_iff.2 h.part_ne_nil
  rw [h.read_eq, List.length_append] at hlong
  omega

/-- The line in which the counter stops closes the block unless the rest
of it opens too many braces. -/
theorem closes_iff (h : StopsIn lines i j read part left) :
    Closes lines i j ↔ depthOver lines i j ≤ 0 := by
  constructor
  · exact Closes.depth_le
  · intro hdepth
    obtain ⟨hin, -⟩ := List.getElem?_eq_some_iff.1 h.line
    refine ⟨h.le, hin, ?_, hdepth⟩
    have hopener := (BraceTally.hasOpening_iff read).1 h.isSettled.1
    rw [← List.mem_flatten, h.flatten_span]
    exact List.mem_append_left left hopener

/-- If the line in which the counter stops does not close the block, the
rest of it opens more braces than it closes. -/
theorem net_left_pos (h : StopsIn lines i j read part left)
    (hnot : ¬ Closes lines i j) : 0 < (BraceTally.ofText left).net := by
  rw [h.closes_iff, depthOver_eq_nesting, nesting, h.flatten_span,
    BraceTally.net_append] at hnot
  have hread := h.isSettled.2
  omega

end StopsIn

-- ==================================================== the two levels tied

/-- Whether the excerpt of a block is closed and its last line is `k`. -/
def ClosesAt (block : Block) (lines : List Line) (i k : Nat) : Prop :=
  i ≤ k ∧ k < lines.length
    ∧ ∃ shown, (block.extract lines).value
        = .ok ⟨block.anchor, shown, .closed, depthOver lines i k⟩
      ∧ block.style.Restyled (span lines i k) shown

variable {block : Block}

/-- There is at most one line that closes first. -/
theorem IsClose.unique {k k' : Nat} (h : IsClose lines i k)
    (h' : IsClose lines i k') : k = k' :=
  Nat.le_antisymm (h.least _ h'.closes) (h'.least _ h.closes)

/-- An excerpt closes where its lines close first. -/
theorem closesAt_iff_isClose (hne : block.anchor ≠ [])
    (hstart : IsStart block.anchor lines i) (k : Nat) :
    block.ClosesAt lines i k ↔ IsClose lines i k := by
  have hidx := (isStart_iff _ _ _).1 hstart
  constructor
  · intro h
    obtain ⟨hle, hin, shown, hvalue, hshown⟩ := h
    cases hclose : closing? (lines.drop i) with
    | none =>
        rw [value_extract_truncated block hne lines hidx hclose] at hvalue
        cases hvalue
    | some n =>
        have his := isClose_of_closing? hclose
        rw [value_extract_closed block hne lines hidx hclose,
          Except.ok.injEq, Excerpt.mk.injEq] at hvalue
        obtain ⟨-, rfl, -, -⟩ := hvalue
        -- the number of its lines tells where the excerpt ends
        have hlen := hshown.length_eq
        rw [BlockStyle.length_restyle, length_span his.closes.inside,
          length_span hin] at hlen
        have hk : i + n = k := by omega
        exact hk ▸ his
  · intro h
    cases hclose : closing? (lines.drop i) with
    | none => exact absurd h.closes (not_closes_of_closing? hclose k)
    | some n =>
        obtain rfl := h.unique (isClose_of_closing? hclose)
        exact ⟨h.closes.le, h.closes.inside, _,
          value_extract_closed block hne lines hidx hclose,
          block.style.restyled_restyle _⟩

/-- A closed excerpt closes at some line. -/
theorem closesAt_of_closed (hne : block.anchor ≠ [])
    (hstart : IsStart block.anchor lines i) {excerpt : Excerpt}
    (h : (block.extract lines).value = .ok excerpt)
    (hclosed : excerpt.ending = .closed) : ∃ k, block.ClosesAt lines i k := by
  have hidx := (isStart_iff _ _ _).1 hstart
  cases hclose : closing? (lines.drop i) with
  | none =>
      rw [value_extract_truncated block hne lines hidx hclose] at h
      cases h
      cases hclosed
  | some n =>
      exact ⟨i + n, (closesAt_iff_isClose hne hstart _).2
        (isClose_of_closing? hclose)⟩

variable (block) (lines)

/-- From the line of the anchor on, the counter of characters never stops
or stops inside some line. In the first case the block is truncated. In
the second it never closes before that line, and in it if and only if the
depth at the end of the line is down to zero. So a closed block has all
the lines that the counter has read from: up to the brace that matches
the first opening one or, where a closing brace stands before that one,
up to the first opening brace itself. It ends with the line in which the
counter stops unless the rest of that line opens more than it closes. -/
theorem extract_closes_from_stop (hne : block.anchor ≠ [])
    (hstart : IsStart block.anchor lines i) :
    (NeverStops lines i ∨ ∃ j read part left, StopsIn lines i j read part left)
      ∧ (NeverStops lines i →
          ∃ excerpt, (block.extract lines).value = .ok excerpt
            ∧ excerpt.ending = .truncated)
      ∧ (∀ j read part left, StopsIn lines i j read part left →
          (∀ k, block.ClosesAt lines i k → j ≤ k)
            ∧ (block.ClosesAt lines i j ↔ depthOver lines i j ≤ 0))
      ∧ ∀ excerpt, (block.extract lines).value = .ok excerpt →
          excerpt.ending = .closed →
          ∃ k j read part left, block.ClosesAt lines i k
            ∧ StopsIn lines i j read part left
            ∧ span lines i j <+: span lines i k
            ∧ Reaches read
            ∧ (k = j ∨ 0 < (BraceTally.ofText left).net) := by
  have hcases : NeverStops lines i
      ∨ ∃ j read part left, StopsIn lines i j read part left := by
    cases hstop : BraceCounter.fresh.stop? (lines.drop i).flatten with
    | none => exact .inl hstop
    | some cut =>
        obtain ⟨j, part, left, hstops⟩ := exists_stopsIn hstop
        exact .inr ⟨j, cut.1, part, left, hstops⟩
  refine ⟨hcases, ?_, ?_, ?_⟩
  · intro hnever
    have hidx := (isStart_iff _ _ _).1 hstart
    cases hclose : closing? (lines.drop i) with
    | none =>
        exact ⟨_, value_extract_truncated block hne lines hidx hclose, rfl⟩
    | some n =>
        exact absurd (isClose_of_closing? hclose).closes (hnever.not_closes _)
  · intro j read part left hstops
    have hle : ∀ k, block.ClosesAt lines i k → j ≤ k := fun k hk =>
      hstops.le_of_closes ((closesAt_iff_isClose hne hstart k).1 hk).closes
    refine ⟨hle, ?_⟩
    rw [closesAt_iff_isClose hne hstart, ← hstops.closes_iff]
    exact ⟨IsClose.closes, fun h => ⟨h, fun k => hstops.le_of_closes⟩⟩
  · intro excerpt hvalue hclosed
    obtain ⟨k, hk⟩ := closesAt_of_closed hne hstart hvalue hclosed
    have hclose := (closesAt_iff_isClose hne hstart k).1 hk
    obtain ⟨j, read, part, left, hstops⟩ :=
      hcases.resolve_left fun hnever => hnever.not_closes k hclose.closes
    have hle := hstops.le_of_closes hclose.closes
    obtain ⟨rest, hstop⟩ := hstops.stops
    refine ⟨k, j, read, part, left, hk, hstops,
      List.take_prefix_take_left (by omega),
      BraceCounter.reaches_of_stop? hstop, ?_⟩
    by_cases hkj : k = j
    · exact .inl hkj
    · refine .inr (hstops.net_left_pos fun hj => hkj ?_)
      exact hclose.unique ⟨hj, fun m => hstops.le_of_closes⟩

/-- A line in which the depth comes down to zero and goes up again. -/
def reopened : List Line :=
  ["fn f \x7b\x7d \x7b\n".toList, "\x7d\n".toList]

/-- The counter stops in the first line, which does not close the block. -/
theorem closesAt_reopened :
    "fn f".toList ≠ [] ∧ IsStart "fn f".toList reopened 0
      ∧ StopsIn reopened 0 0 "fn f \x7b\x7d".toList
          "fn f \x7b\x7d".toList " \x7b\n".toList
      ∧ ¬ (standard "fn f".toList).ClosesAt reopened 0 0
      ∧ ∃ k j read part left, (standard "fn f".toList).ClosesAt reopened 0 k
        ∧ StopsIn reopened 0 j read part left
        ∧ span reopened 0 j <+: span reopened 0 k
        ∧ Reaches read
        ∧ (k = j ∨ 0 < (BraceTally.ofText left).net) := by
  have hne : "fn f".toList ≠ [] := by decide
  have hstart : IsStart "fn f".toList reopened 0 := (isStart_iff _ _ _).2 rfl
  have hstops : StopsIn reopened 0 0 "fn f \x7b\x7d".toList
      "fn f \x7b\x7d".toList " \x7b\n".toList :=
    ⟨Nat.le_refl 0, ⟨_, rfl⟩, rfl, by decide, rfl⟩
  obtain ⟨-, -, hline, hclosed⟩ :=
    extract_closes_from_stop reopened (standard "fn f".toList) hne hstart
  refine ⟨hne, hstart, hstops, ?_, hclosed _ rfl rfl⟩
  rw [(hline _ _ _ _ hstops).2]
  decide

/-- A closing brace stands before the first opening one, and two braces
are opened in one line. -/
def strayBefore : List Line :=
  ["fn f \x7d\n".toList, "\x7b \x7b\n".toList, "\x7d\n".toList,
    "\x7d\n".toList]

/-- The block closes with the third line, while the brace that matches
its first opening one is in the fourth. -/
theorem match_outside_strayBefore :
    IsStart "fn f".toList strayBefore 0
      ∧ (standard "fn f".toList).ClosesAt strayBefore 0 2
      ∧ ∃ front inner rest, strayBefore.flatten
          = front ++ opener :: (inner ++ closer :: rest)
        ∧ opener ∉ front ∧ Nested inner
        ∧ ¬ front ++ opener :: (inner ++ [closer])
            <+: (span strayBefore 0 2).flatten := by
  have hstart : IsStart "fn f".toList strayBefore 0 :=
    (isStart_iff _ _ _).2 rfl
  have hnested : Nested " \x7b\n\x7d\n".toList :=
    .plain (by decide) (by decide)
      (@Nested.pair "\n".toList _ (.plain (by decide) (by decide) .nil)
        (.plain (by decide) (by decide) .nil))
  refine ⟨hstart, ?_, "fn f \x7d\n".toList, " \x7b\n\x7d\n".toList,
    "\n".toList, rfl, by decide, hnested, by decide⟩
  exact (closesAt_iff_isClose (by decide) hstart 2).2
    (isClose_of_closing? (n := 2) rfl)

end Block

end BraceLift
