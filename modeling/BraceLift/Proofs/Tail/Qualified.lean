/-
Calling a macro by its bare name, and where its path is left over.

The path of a macro is some text in front of its bare name, and the name
ends with a character that the path has nowhere else. A text is therefore
looked through piece by piece, each piece ending with that character: a
piece that ends with the path comes to end with the bare name, and any
other one stays (`replaceFrom_piece_found`, `replaceFrom_piece_missed`).
What has been put in is the end of a path again if the text in front of
the name stood there once more, and in no other way: no overlap of the path
with itself comes in (`infix_replaceFrom_iff`).

`restate_standard_iff` says so of the standard tail. Where no path is left,
making the substitution again changes nothing; where one is, it does
(`replaceFrom_eq_self_iff`).
-/
import BraceLift.Proofs.Tail.Kept
import BraceLift.Proofs.Text.Occurrence
import BraceLift.Proofs.Text.Pieces

namespace BraceLift

namespace Text

variable {old new : Text}

-- ============================================ what a replacement changes

/-- Where the old text does not occur, nothing changes. -/
theorem replaceFrom_eq_self {t : Text} (h : ¬ old <:+: t) :
    replaceFrom old new 0 t = t := by
  induction t with
  | nil => rfl
  | cons d rest ih =>
      rw [List.infix_cons_iff, not_or] at h
      rw [replaceFrom_passed h.1, ih h.2]

/-- What is covered by an occurrence is passed over. -/
theorem replaceFrom_skip (s t : Text) :
    replaceFrom old new s.length (s ++ t) = replaceFrom old new 0 t := by
  induction s with
  | nil => rfl
  | cons d rest ih => exact ih

/-- The old text in front is replaced, and the search goes on behind it. -/
theorem replaceFrom_append (hne : old ≠ []) (new t : Text) :
    replaceFrom old new 0 (old ++ t) = new ++ replaceFrom old new 0 t := by
  cases old with
  | nil => exact absurd rfl hne
  | cons d rest =>
      have hpre : d :: rest <+: d :: (rest ++ t) :=
        List.prefix_append (d :: rest) t
      rw [List.cons_append, replaceFrom_found hpre, List.length_cons,
        Nat.add_sub_cancel, replaceFrom_skip]

/-- A replacement by a text that is no longer makes no text longer. -/
theorem length_replaceFrom_le (hlen : new.length ≤ old.length) (t : Text) :
    ∀ skip, skip ≤ t.length →
      (replaceFrom old new skip t).length + skip ≤ t.length := by
  induction t with
  | nil =>
      intro skip hskip
      simpa [replaceFrom] using hskip
  | cons d rest ih =>
      intro skip hskip
      rw [List.length_cons] at hskip ⊢
      cases skip with
      | succ skip =>
          have := ih skip (by omega)
          rw [replaceFrom]
          omega
      | zero =>
          by_cases hpre : old <+: d :: rest
          · have hle := hpre.length_le
            rw [List.length_cons] at hle
            have := ih (old.length - 1) (by omega)
            rw [replaceFrom_found hpre, List.length_append]
            omega
          · have := ih 0 (Nat.zero_le _)
            rw [replaceFrom_passed hpre, List.length_cons]
            omega

/-- A replacement by a shorter text makes a text shorter if it changes
anything. -/
theorem length_replaceFrom_lt (hlen : new.length < old.length) {t : Text}
    (h : old <:+: t) : (replaceFrom old new 0 t).length < t.length := by
  induction t with
  | nil =>
      rw [List.infix_nil.1 h] at hlen
      exact absurd hlen (Nat.not_lt_zero _)
  | cons d rest ih =>
      by_cases hpre : old <+: d :: rest
      · have hle := hpre.length_le
        rw [List.length_cons] at hle
        have := length_replaceFrom_le (Nat.le_of_lt hlen) rest
          (old.length - 1) (by omega)
        rw [replaceFrom_found hpre, List.length_append, List.length_cons]
        omega
      · have := ih ((List.infix_cons_iff.1 h).resolve_left hpre)
        rw [replaceFrom_passed hpre, List.length_cons, List.length_cons]
        omega

/-- A replacement by a shorter text leaves alone just the texts in which
the old one does not occur. -/
theorem replaceFrom_eq_self_iff (hlen : new.length < old.length) (t : Text) :
    replaceFrom old new 0 t = t ↔ ¬ old <:+: t := by
  refine ⟨fun heq h => ?_, replaceFrom_eq_self⟩
  have hlt := length_replaceFrom_lt hlen h
  rw [heq] at hlt
  exact Nat.lt_irrefl _ hlt

-- ========================================================= piece by piece

/-- A text is told piece by piece: a piece goes up to the character and
has no other, and the last one is without it. -/
theorem piece_induction (c : Char) {motive : Text → Prop}
    (last : ∀ s, c ∉ s → motive s)
    (piece : ∀ s t, c ∉ s → motive t → motive (s ++ c :: t)) (t : Text) :
    motive t := by
  -- with the part of the piece that has been passed already in front
  have hall : ∀ s, c ∉ s → motive (s ++ t) := by
    induction t with
    | nil =>
        intro s hs
        rw [List.append_nil]
        exact last s hs
    | cons d rest ih =>
        intro s hs
        by_cases hd : d = c
        · subst hd
          exact piece s rest hs (ih [] List.not_mem_nil)
        · rw [List.append_cons]
          exact ih (s ++ [d]) (by simp [hs, Ne.symm hd])
  exact hall [] List.not_mem_nil

variable {c : Char} {q s : Text} (hs : c ∉ s)

include hs

/-- A text that ends with the only `c` it has is in front of a piece if it
is the piece. -/
theorem prefix_piece_iff (hq : c ∉ q) (t : Text) :
    q ++ [c] <+: s ++ c :: t ↔ q = s := by
  constructor
  · rintro ⟨rest, h⟩
    rw [List.append_assoc, List.singleton_append] at h
    have hcut := congrArg (cutAt c) h
    rw [cutAt_append_sep hq, cutAt_append_sep hs] at hcut
    exact congrArg Prod.fst hcut
  · rintro rfl
    exact ⟨t, by simp⟩

/-- It occurs in a piece if the piece ends with it. -/
theorem infix_piece_iff : q ++ [c] <:+: s ++ [c] ↔ q <:+ s := by
  constructor
  · rintro ⟨before, after, h⟩
    rw [← List.append_assoc, List.append_assoc _ [c]] at h
    have hparts := (List.append_cons_inj_of_notMem hs List.not_mem_nil).1 h.symm
    exact ⟨before, hparts.1.symm⟩
  · rintro ⟨front, rfl⟩
    exact ⟨front, [], by simp⟩

/-- It occurs in what begins with a piece if the piece ends with it or it
occurs behind. -/
theorem infix_append_piece_iff (hq : c ∉ q) (t : Text) :
    q ++ [c] <:+: s ++ c :: t ↔ q <:+ s ∨ q ++ [c] <:+: t := by
  rw [infix_append_cons_iff (by simp) (by simpa using hq),
    infix_piece_iff hs]

omit hs in
/-- A piece that ends with the old text ends with the new one instead. -/
theorem replaceFrom_piece_found {front : Text} (hs : c ∉ front ++ q)
    (hq : c ∉ q) (t : Text) :
    replaceFrom (q ++ [c]) new 0 (front ++ q ++ c :: t)
      = front ++ new ++ replaceFrom (q ++ [c]) new 0 t := by
  induction front with
  | nil =>
      have hne : q ++ [c] ≠ [] := by simp
      have h := replaceFrom_append hne new t
      rwa [List.append_assoc, List.singleton_append] at h
  | cons d rest ih =>
      have hnot : ¬ q ++ [c] <+: d :: rest ++ q ++ c :: t := by
        rw [prefix_piece_iff hs hq]
        intro h
        have := congrArg List.length h
        simp at this
        omega
      have hrest := (List.ne_and_not_mem_of_not_mem_cons hs).2
      exact (replaceFrom_passed hnot).trans (congrArg (d :: ·) (ih hrest))

/-- A piece that does not end with the old text stays. -/
theorem replaceFrom_piece_missed (hq : c ∉ q) (h : ¬ q <:+ s) (t : Text) :
    replaceFrom (q ++ [c]) new 0 (s ++ c :: t)
      = s ++ c :: replaceFrom (q ++ [c]) new 0 t := by
  induction s with
  | nil =>
      have hnot : ¬ q ++ [c] <+: c :: t := by
        rw [← List.nil_append (c :: t), prefix_piece_iff hs hq]
        rintro rfl
        exact h List.suffix_rfl
      exact replaceFrom_passed hnot
  | cons d rest ih =>
      have hnot : ¬ q ++ [c] <+: d :: rest ++ c :: t := by
        rw [prefix_piece_iff hs hq]
        rintro rfl
        exact h List.suffix_rfl
      have hrest := (List.ne_and_not_mem_of_not_mem_cons hs).2
      have hsuffix : ¬ q <:+ rest := fun hin =>
        h (hin.trans (List.suffix_cons d rest))
      exact (replaceFrom_passed hnot).trans
        (congrArg (d :: ·) (ih hrest hsuffix))

omit hs

-- ====================================================== paths that are left

/-- Where a path is replaced by its bare name, the path is left if and only
if what stands in front of the name stood there twice. -/
theorem infix_replaceFrom_iff (path name : Text) {c : Char}
    (hpath : c ∉ path) (hname : c ∉ name) (t : Text) :
    path ++ name ++ [c]
        <:+: replaceFrom (path ++ name ++ [c]) (name ++ [c]) 0 t
      ↔ path ++ path ++ name ++ [c] <:+: t := by
  have hq : c ∉ path ++ name := by simp [hpath, hname]
  have hqq : c ∉ path ++ path ++ name := by simp [hpath, hname]
  induction t using piece_induction c with
  | last s hs =>
      have hnone : ∀ q : Text, ¬ q ++ [c] <:+: s := fun q h =>
        hs (h.subset (by simp))
      rw [replaceFrom_eq_self (hnone _)]
      exact iff_of_false (hnone _) (hnone _)
  | piece s t hs ih =>
      rw [infix_append_piece_iff hs hqq]
      by_cases hend : path ++ name <:+ s
      · obtain ⟨front, rfl⟩ := hend
        have hfront : c ∉ front ++ name := by
          simp only [List.mem_append, not_or] at hs ⊢
          exact ⟨hs.1, hname⟩
        have hfound : replaceFrom (path ++ name ++ [c]) (name ++ [c]) 0
              (front ++ (path ++ name) ++ c :: t)
            = (front ++ name)
              ++ c :: replaceFrom (path ++ name ++ [c]) (name ++ [c]) 0 t := by
          rw [replaceFrom_piece_found hs hq]
          simp
        rw [hfound, infix_append_piece_iff hfront hq]
        refine or_congr ?_ ih
        -- what stood in front of the path stands in front of the name now
        rw [List.suffix_append_self_iff, ← List.append_assoc front,
          List.suffix_append_self_iff, List.suffix_append_self_iff]
      · have hmore : ¬ path ++ path ++ name <:+ s := fun h => by
          rw [List.append_assoc] at h
          exact hend ((List.suffix_append _ _).trans h)
        rw [replaceFrom_piece_missed hs hq hend,
          infix_append_piece_iff hs hq]
        exact or_congr (iff_of_false hend hmore) ih

end Text

-- ======================================================= the standard tail

namespace Tail

/-- The path of the macro with what stands in front of its name doubled. -/
def doubledMacro : Text := "bitflags::bitflags::bitflags!".toList

/-- The standard tail makes one substitution. -/
theorem restate_standard (anchor : Text) (line : Line) :
    (standard anchor).restate line
      = Text.replaceFrom qualifiedMacro bareMacro 0 line := rfl

/-- In a line of the standard tail the path of the macro is left if and
only if the raw line has what stands in front of its name twice. Making the
substitution again changes nothing if and only if it has not. -/
theorem restate_standard_iff (anchor : Text) (line : Line) :
    (qualifiedMacro <:+: (standard anchor).restate line
        ↔ doubledMacro <:+: line)
      ∧ ((standard anchor).restate ((standard anchor).restate line)
          = (standard anchor).restate line
        ↔ ¬ doubledMacro <:+: line) := by
  have hpath : '!' ∉ "bitflags::".toList := by decide
  have hname : '!' ∉ "bitflags".toList := by decide
  have hleft : qualifiedMacro <:+: (standard anchor).restate line
      ↔ doubledMacro <:+: line :=
    Text.infix_replaceFrom_iff "bitflags::".toList "bitflags".toList
      hpath hname line
  refine ⟨hleft, ?_⟩
  rw [restate_standard anchor ((standard anchor).restate line),
    Text.replaceFrom_eq_self_iff (by decide), hleft]

/-- The doubled path becomes the path. -/
example : (standard []).restate doubledMacro = qualifiedMacro := by decide

end Tail

end BraceLift
