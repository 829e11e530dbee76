/-
The pieces of a text between separators.

Cutting and joining are inverse on pieces that have no separator in them
(`splitOn_joinWith`), and the pieces of a cut have none
(`notMem_of_mem_splitOn`). Everything follows from what one character in
front does: a separator is a new empty piece, any other character belongs
to the first piece (`splitOn_cons_sep`, `splitOn_cons_ne`). A cut at the
first separator only takes off what stands before it (`cutAt_append_sep`).
-/
import BraceLift.Text.Basic

namespace BraceLift.Text

variable (sep : Char)

@[simp] theorem splitOn_nil : splitOn sep [] = [[]] := rfl

@[simp] theorem splitOn_cons_sep (t : Text) :
    splitOn sep (sep :: t) = [] :: splitOn sep t := by
  unfold splitOn
  rw [List.foldr_cons, if_pos rfl]

/-- There is always a first piece. -/
theorem splitOn_ne_nil (t : Text) : splitOn sep t ≠ [] := by
  cases t with
  | nil => simp
  | cons c rest =>
      unfold splitOn
      rw [List.foldr_cons]
      split
      · exact List.cons_ne_nil _ _
      · split <;> exact List.cons_ne_nil _ _

variable {sep}

theorem joinWith_cons (piece : Text) {more : List Text} (hne : more ≠ []) :
    joinWith sep (piece :: more) = piece ++ sep :: joinWith sep more := by
  cases more with
  | nil => exact absurd rfl hne
  | cons next more => rfl

theorem splitOn_cons_ne {c : Char} (hc : c ≠ sep) {t piece : Text}
    {more : List Text} (h : splitOn sep t = piece :: more) :
    splitOn sep (c :: t) = (c :: piece) :: more := by
  unfold splitOn at h ⊢
  rw [List.foldr_cons, if_neg hc, h]

/-- A text without a separator is one piece; before a separator, it is
the first of several. -/
theorem splitOn_append_sep {s : Text} (hs : sep ∉ s) (t : Text) :
    splitOn sep s = [s]
      ∧ splitOn sep (s ++ sep :: t) = s :: splitOn sep t := by
  induction s with
  | nil => exact ⟨rfl, splitOn_cons_sep sep t⟩
  | cons c rest ih =>
      obtain ⟨hc, hrest⟩ := not_or.1 (fun h => hs (List.mem_cons.2 h))
      obtain ⟨hone, hmore⟩ := ih hrest
      exact ⟨splitOn_cons_ne (Ne.symm hc) hone,
        splitOn_cons_ne (Ne.symm hc) hmore⟩

/-- Pieces without separators are found again. -/
theorem splitOn_joinWith {pieces : List Text} (hne : pieces ≠ [])
    (hfree : ∀ piece ∈ pieces, sep ∉ piece) :
    splitOn sep (joinWith sep pieces) = pieces := by
  induction pieces with
  | nil => exact absurd rfl hne
  | cons piece more ih =>
      have hpiece := hfree piece (List.mem_cons_self ..)
      cases more with
      | nil => exact (splitOn_append_sep hpiece []).1
      | cons next more =>
          rw [joinWith_cons piece (List.cons_ne_nil next more),
            (splitOn_append_sep hpiece _).2,
            ih (List.cons_ne_nil _ _) fun q hq =>
              hfree q (List.mem_cons_of_mem _ hq)]

/-- The pieces of a cut, joined, are the text. -/
theorem joinWith_splitOn (t : Text) : joinWith sep (splitOn sep t) = t := by
  induction t with
  | nil => rfl
  | cons c rest ih =>
      obtain ⟨piece, more, hsplit⟩ :=
        List.exists_cons_of_ne_nil (splitOn_ne_nil sep rest)
      rw [hsplit] at ih
      by_cases hc : c = sep
      · subst hc
        rw [splitOn_cons_sep, hsplit, joinWith_cons [] (List.cons_ne_nil _ _),
          ih, List.nil_append]
      · rw [splitOn_cons_ne hc hsplit]
        cases more with
        | nil => exact congrArg (c :: ·) ih
        | cons next more =>
            rw [joinWith_cons _ (List.cons_ne_nil next more)] at ih ⊢
            rw [List.cons_append, ih]

/-- Two stretches of pieces are joined by one more separator. -/
theorem joinWith_append {xs ys : List Text} (hx : xs ≠ []) (hy : ys ≠ []) :
    joinWith sep (xs ++ ys) = joinWith sep xs ++ sep :: joinWith sep ys := by
  induction xs with
  | nil => exact absurd rfl hx
  | cons piece more ih =>
      cases more with
      | nil => exact joinWith_cons piece hy
      | cons next more =>
          rw [List.cons_append, joinWith_cons piece (by simp),
            joinWith_cons piece (List.cons_ne_nil next more),
            ih (List.cons_ne_nil _ _), List.append_assoc, List.cons_append]

theorem length_le_joinWith (sep : Char) {pieces : List Text} {piece : Text}
    (h : piece ∈ pieces) :
    piece.length ≤ (joinWith sep pieces).length := by
  induction pieces with
  | nil => cases h
  | cons first more ih =>
      cases more with
      | nil =>
          rw [List.mem_singleton] at h
          rw [h]
          exact Nat.le_refl _
      | cons next more =>
          rw [joinWith_cons first (List.cons_ne_nil next more),
            List.length_append, List.length_cons]
          rcases List.mem_cons.1 h with rfl | h
          · omega
          · have := ih h
            omega

/-- No piece of a cut has a separator in it. -/
theorem notMem_of_mem_splitOn {t piece : Text}
    (h : piece ∈ splitOn sep t) : sep ∉ piece := by
  induction t generalizing piece with
  | nil =>
      rw [splitOn_nil, List.mem_singleton] at h
      simp [h]
  | cons c rest ih =>
      obtain ⟨head, more, hsplit⟩ :=
        List.exists_cons_of_ne_nil (splitOn_ne_nil sep rest)
      by_cases hc : c = sep
      · subst hc
        rw [splitOn_cons_sep, List.mem_cons] at h
        rcases h with rfl | h
        · simp
        · exact ih h
      · rw [splitOn_cons_ne hc hsplit, List.mem_cons] at h
        rcases h with rfl | h
        · have hhead := ih (hsplit ▸ List.mem_cons_self ..)
          exact fun hin => (List.mem_cons.1 hin).elim (Ne.symm hc) hhead
        · exact ih (hsplit ▸ List.mem_cons_of_mem _ h)

-- ========================================================= the first cut

/-- What has no separator stays in front of the cut. -/
theorem cutAt_append {s : Text} (hs : sep ∉ s) (t : Text) :
    cutAt sep (s ++ t) = (s ++ (cutAt sep t).1, (cutAt sep t).2) := by
  have hne : ∀ c ∈ s, (c != sep) = true := fun c hc =>
    bne_iff_ne.2 fun heq => hs (heq ▸ hc)
  unfold cutAt
  rw [List.takeWhile_append_of_pos hne, List.dropWhile_append_of_pos hne]

theorem cutAt_of_notMem {s : Text} (hs : sep ∉ s) :
    cutAt sep s = (s, none) := by
  have h := cutAt_append hs []
  rwa [List.append_nil, show cutAt sep [] = ([], none) from rfl,
    List.append_nil] at h

theorem cutAt_append_sep {s : Text} (hs : sep ∉ s) (t : Text) :
    cutAt sep (s ++ sep :: t) = (s, some t) := by
  have hsep : cutAt sep (sep :: t) = ([], some t) := by simp [cutAt]
  rw [cutAt_append hs, hsep, List.append_nil]

/-- What is cut nowhere is the whole text. -/
theorem eq_of_cutAt {s t : Text} (h : cutAt sep t = (s, none)) : t = s := by
  unfold cutAt at h
  obtain ⟨rfl, hrest⟩ := Prod.mk.inj h
  cases hdrop : t.dropWhile (· != sep) with
  | nil =>
      have hall := @List.takeWhile_append_dropWhile _ (· != sep) t
      rw [hdrop, List.append_nil] at hall
      exact hall.symm
  | cons c rest =>
      rw [hdrop] at hrest
      cases hrest

end BraceLift.Text
