/-
Paths above a path.

The parent of a path is what remains of its text without the last step,
so its steps are the first steps of the path (`isPrefixOf_parent`), from
the same start. Going upwards repeats that, so every path of a lineage is
a prefix of the one the lineage starts from (`isPrefixOf_of_mem_lineage`).

Prefixes are taken step by step, not character by character: `a/b` has
the prefix `a` but not `a/` followed by half a name, and `a/./b` has the
same prefixes as `a/b`.
-/
import BraceLift.File.Path
import BraceLift.Proofs.Text.Pieces

namespace BraceLift.Path

/-- Whether a path has the first steps of another, from the same start. -/
def IsPrefixOf (q p : Path) : Prop :=
  q.isAbsolute = p.isAbsolute ∧ q.components <+: p.components

theorem IsPrefixOf.refl (p : Path) : p.IsPrefixOf p :=
  ⟨rfl, List.prefix_refl _⟩

theorem IsPrefixOf.trans {p q r : Path} (h : r.IsPrefixOf q)
    (h' : q.IsPrefixOf p) : r.IsPrefixOf p :=
  ⟨h.1.trans h'.1, h.2.trans h'.2⟩

/-- The path up to its last step; empty if it has no directory part. -/
def directory (p : Path) : Path :=
  p.parent?.getD ⟨[]⟩

theorem directory_of_parent? {p up : Path} (h : p.parent? = some up) :
    p.directory = up := by
  rw [directory, h]
  rfl

@[simp] theorem lineage_empty : lineage ⟨[]⟩ = [] := rfl

-- =============================================================== pieces

/-- The steps that a list of pieces stands for. -/
def stepsOf : List Text → List Text
  | [] => []
  | head :: body =>
      (if head = [] then [] else [head]) ++ body.filter (!isInert ·)

theorem components_eq_stepsOf (p : Path) : p.components = stepsOf p.pieces := by
  unfold components stepsOf
  cases p.pieces <;> rfl

theorem pieces_ne_nil (p : Path) : p.pieces ≠ [] :=
  Text.splitOn_ne_nil '/' p.text

/-- A path starts at the root if an empty piece is the first of several. -/
theorem isAbsolute_iff {p : Path} {head : Text} {body : List Text}
    (h : p.pieces = head :: body) :
    p.isAbsolute = true ↔ head = [] ∧ body ≠ [] := by
  unfold pieces at h
  unfold isAbsolute
  cases ht : p.text with
  | nil =>
      rw [ht, Text.splitOn_nil] at h
      cases h
      simp
  | cons c rest =>
      rw [ht] at h
      by_cases hc : c = '/'
      · subst hc
        rw [Text.splitOn_cons_sep] at h
        cases h
        simp [Text.splitOn_ne_nil]
      · obtain ⟨piece, more, hsplit⟩ :=
          List.exists_cons_of_ne_nil (Text.splitOn_ne_nil '/' rest)
        rw [Text.splitOn_cons_ne hc hsplit] at h
        cases h
        simp [hc]

/-- The pieces that a path is put together from are found in it again;
the root alone has an empty piece more. -/
theorem pieces_assemble {head : Text} {body : List Text}
    (hfree : ∀ piece ∈ head :: body, '/' ∉ piece) :
    (assemble head body).pieces
      = if head = [] ∧ body = [] then [[], []] else head :: body := by
  unfold assemble pieces
  split
  · rfl
  · exact Text.splitOn_joinWith (List.cons_ne_nil _ _) hfree

/-- A slash at the end is an empty last piece. -/
theorem endsInSlash_of_pieces {p : Path} {head : Text} {body : List Text}
    (h : p.pieces = head :: body) (hlast : body.getLast? = some []) :
    p.endsInSlash = true := by
  obtain ⟨kept, rfl⟩ := List.getLast?_eq_some_iff.1 hlast
  have htext : p.text = Text.joinWith '/' (head :: kept) ++ ['/'] := by
    have hjoin : Text.joinWith '/' p.pieces = p.text :=
      Text.joinWith_splitOn p.text
    rw [← hjoin, h, ← List.cons_append,
      Text.joinWith_append (List.cons_ne_nil _ _) (by simp)]
    rfl
  unfold endsInSlash
  rw [htext, List.getLast?_concat]
  rfl

-- =============================================================== parents

/-- Whether the last of some pieces, if there are any, is a step. -/
def EndInStep (body : List Text) : Prop :=
  ∀ last, body.getLast? = some last → isInert last = false

/-- How a parent is taken: behind the first piece, the last step goes
with the inert pieces around it, and the pieces before them stay. -/
structure ParentCut (body kept skipped : List Text) (last : Text)
    (dropped : List Text) : Prop where
  body_eq : body = kept ++ skipped ++ last :: dropped
  skipped_inert : ∀ piece ∈ skipped, isInert piece = true
  last_step : isInert last = false
  dropped_inert : ∀ piece ∈ dropped, isInert piece = true
  kept_step : EndInStep kept

/-- A list is what a cut from its end leaves, and what it takes. -/
private theorem eq_of_dropWhile_reverse (cut : Text → Bool)
    (body left : List Text) (h : body.reverse.dropWhile cut = left.reverse) :
    ∃ taken, body = left ++ taken ∧ (∀ piece ∈ taken, cut piece = true)
      ∧ ∀ last, left.getLast? = some last → cut last = false := by
  have hbody : body.reverse.takeWhile cut ++ left.reverse = body.reverse := by
    rw [← h, List.takeWhile_append_dropWhile]
  refine ⟨(body.reverse.takeWhile cut).reverse, ?_, ?_, ?_⟩
  · have hrev := congrArg List.reverse hbody
    rw [List.reverse_append, List.reverse_reverse, List.reverse_reverse] at hrev
    exact hrev.symm
  · intro piece hpiece
    exact List.all_eq_true.1 List.all_takeWhile piece
      (List.mem_reverse.1 hpiece)
  · intro last hlast
    have hhead := List.head?_dropWhile_not cut body.reverse
    rw [h, List.head?_reverse, hlast] at hhead
    simpa using hhead

/-- The parent keeps the first piece and those that a cut keeps, unless
there is one step only, whose parent is the empty path. -/
theorem parent?_eq_some {p up : Path} (h : p.parent? = some up) :
    ∃ head body, p.pieces = head :: body
      ∧ ((∃ kept skipped last dropped,
            ParentCut body kept skipped last dropped
              ∧ up = assemble head kept)
        ∨ head ≠ [] ∧ (∀ piece ∈ body, isInert piece = true)
          ∧ up = ⟨[]⟩) := by
  unfold parent? at h
  cases hp : p.pieces with
  | nil => exact absurd hp p.pieces_ne_nil
  | cons head body =>
      rw [hp] at h
      dsimp only at h
      cases hdrop : body.reverse.dropWhile isInert with
      | nil =>
          rw [hdrop] at h
          dsimp only at h
          split at h
          · cases h
          · next hhead =>
            cases h
            obtain ⟨taken, hbody, hinert, -⟩ :=
              eq_of_dropWhile_reverse isInert body [] hdrop
            rw [List.nil_append] at hbody
            exact ⟨head, body, rfl, .inr ⟨hhead, hbody ▸ hinert, rfl⟩⟩
      | cons last above =>
          rw [hdrop] at h
          cases h
          obtain ⟨dropped, hbody, hdropped, hlast⟩ :=
            eq_of_dropWhile_reverse isInert body (above.reverse ++ [last])
              (by rw [hdrop, List.reverse_append]; simp)
          obtain ⟨skipped, habove, hskipped, hkept⟩ :=
            eq_of_dropWhile_reverse isInert above.reverse
              (above.dropWhile isInert).reverse
              (by rw [List.reverse_reverse, List.reverse_reverse])
          refine ⟨head, body, rfl,
            .inl ⟨_, skipped, last, dropped, ⟨?_, hskipped, ?_, hdropped,
              hkept⟩, rfl⟩⟩
          · rw [hbody, habove]
            simp
          · exact hlast last (by simp)

/-- The pieces of a parent are those it is put together from. -/
theorem ParentCut.pieces_parent {p : Path} {head last : Text}
    {body kept skipped dropped : List Text}
    (hcut : ParentCut body kept skipped last dropped)
    (hp : p.pieces = head :: body) :
    (assemble head kept).pieces
      = if head = [] ∧ kept = [] then [[], []] else head :: kept := by
  refine pieces_assemble fun piece hpiece => ?_
  refine Text.notMem_of_mem_splitOn (t := p.text) ?_
  show piece ∈ p.pieces
  rw [hp, hcut.body_eq, List.append_assoc]
  rcases List.mem_cons.1 hpiece with rfl | hk
  · exact List.mem_cons_self ..
  · exact List.mem_cons_of_mem _ (List.mem_append_left _ hk)

/-- The parent has the first steps of the path. -/
theorem isPrefixOf_parent {p up : Path} (h : p.parent? = some up) :
    up.IsPrefixOf p := by
  obtain ⟨head, body, hp, ⟨kept, skipped, last, dropped, hcut, rfl⟩
    | ⟨hhead, -, rfl⟩⟩ := parent?_eq_some h
  · have hpieces := hcut.pieces_parent hp
    have hbody : body ≠ [] := by
      rw [hcut.body_eq]
      simp
    constructor
    · rw [Bool.eq_iff_iff, isAbsolute_iff hp]
      split at hpieces
      · next hroot =>
        rw [isAbsolute_iff hpieces]
        exact iff_of_true ⟨rfl, List.cons_ne_nil _ _⟩ ⟨hroot.1, hbody⟩
      · next hroot =>
        rw [isAbsolute_iff hpieces]
        constructor
        · exact fun habs => ⟨habs.1, hbody⟩
        · exact fun habs => ⟨habs.1, fun hnil => hroot ⟨habs.1, hnil⟩⟩
    · rw [components_eq_stepsOf, components_eq_stepsOf, hp]
      split at hpieces
      · rw [hpieces]
        exact List.nil_prefix
      · rw [hpieces, stepsOf, stepsOf, hcut.body_eq, List.append_assoc,
          List.filter_append, ← List.append_assoc]
        exact List.prefix_append _ _
  · constructor
    · cases habs : p.isAbsolute with
      | false => rfl
      | true => exact absurd ((isAbsolute_iff hp).1 habs).1 hhead
    · exact List.nil_prefix

/-- The text of the parent is a shorter first part of the path's text. -/
theorem text_parent {p up : Path} (hne : p.text ≠ [])
    (h : p.parent? = some up) :
    up.text <+: p.text ∧ up.text.length < p.text.length := by
  obtain ⟨head, body, hp, ⟨kept, skipped, last, dropped, hcut, rfl⟩
    | ⟨-, -, rfl⟩⟩ := parent?_eq_some h
  · have htext : p.text = Text.joinWith '/' (head :: kept)
        ++ '/' :: Text.joinWith '/' (skipped ++ last :: dropped) := by
      rw [← Text.joinWith_append (List.cons_ne_nil _ _) (by simp),
        List.cons_append, ← List.append_assoc, ← hcut.body_eq, ← hp]
      exact (Text.joinWith_splitOn p.text).symm
    unfold assemble
    split
    · next hroot =>
      -- the last step makes the text longer than the slash of the root
      have hlast : last ≠ [] := by
        intro hnil
        have hstep := hcut.last_step
        rw [hnil] at hstep
        cases hstep
      have hpos := List.length_pos_iff.2 hlast
      have hin : last ∈ skipped ++ last :: dropped := by simp
      have hlong := Text.length_le_joinWith '/' hin
      rw [htext, hroot.1, hroot.2]
      refine ⟨List.prefix_append _ _, ?_⟩
      show 1 < (Text.joinWith '/' (skipped ++ last :: dropped)).length + 1
      omega
    · rw [htext]
      refine ⟨List.prefix_append _ _, ?_⟩
      simp
  · exact ⟨List.nil_prefix, List.length_pos_iff.2 hne⟩

/-- Only the root and the empty path have no parent. -/
theorem parent?_eq_none {p : Path} (h : p.parent? = none) :
    ∃ body, p.pieces = [] :: body
      ∧ ∀ piece ∈ body, isInert piece = true := by
  unfold parent? at h
  cases hp : p.pieces with
  | nil => exact absurd hp p.pieces_ne_nil
  | cons head body =>
      rw [hp] at h
      dsimp only at h
      cases hdrop : body.reverse.dropWhile isInert with
      | cons last above =>
          rw [hdrop] at h
          cases h
      | nil =>
          rw [hdrop] at h
          dsimp only at h
          split at h
          · next hhead =>
            obtain ⟨taken, hbody, hinert, -⟩ :=
              eq_of_dropWhile_reverse isInert body [] hdrop
            rw [List.nil_append] at hbody
            exact ⟨body, by rw [hhead], hbody ▸ hinert⟩
          · cases h

/-- Pieces that end in a step and have none are no pieces at all. -/
private theorem eq_nil_of_endInStep {body : List Text}
    (hstep : EndInStep body) (hinert : ∀ piece ∈ body, isInert piece = true) :
    body = [] := by
  cases hlast : body.getLast? with
  | none => exact List.getLast?_eq_none_iff.1 hlast
  | some last =>
      have hin := hinert last (List.mem_of_getLast? hlast)
      rw [hstep last hlast] at hin
      cases hin

/-- Whether a path, if it has names, ends in a step: not in a slash and
not in a single dot behind one. -/
def EndsInStep (p : Path) : Prop :=
  p.names ≠ [] → ∀ head body, p.pieces = head :: body → EndInStep body

/-- The names behind the first piece, each step and dot. -/
theorem names_eq {p : Path} {head : Text} {body : List Text}
    (h : p.pieces = head :: body) :
    p.names = (if head = [] then [] else [head]) ++ body.filter (· ≠ []) := by
  unfold names
  rw [h, List.filter_cons]
  by_cases hhead : head = []
  · simp [hhead]
  · simp [hhead]

/-- A parent ends in a step. -/
theorem endsInStep_parent {p up : Path} (h : p.parent? = some up) :
    up.EndsInStep := by
  intro hnames head' body' hup
  obtain ⟨head, body, hp, ⟨kept, skipped, last, dropped, hcut, rfl⟩
    | ⟨-, -, rfl⟩⟩ := parent?_eq_some h
  · have hpieces := hcut.pieces_parent hp
    split at hpieces
    · rw [names_eq hpieces] at hnames
      exact absurd rfl hnames
    · rw [hpieces] at hup
      cases hup
      exact hcut.kept_step
  · exact absurd rfl hnames

/-- A path that ends in a step is one name, or the names of its parent,
some dots, and one name. -/
theorem names_of_parent {p : Path} (hne : p.names ≠ [])
    (hstep : p.EndsInStep) :
    (∃ last, p.names = [last] ∧ p.directory = ⟨[]⟩)
      ∨ ∃ up dots last, p.parent? = some up ∧ up.text ≠ []
        ∧ p.names = up.names ++ dots ++ [last] ∧ ∀ d ∈ dots, d = ['.'] := by
  cases hup : p.parent? with
  | none =>
      obtain ⟨body, hp, hinert⟩ := parent?_eq_none hup
      have hbody := eq_nil_of_endInStep (hstep hne _ _ hp) hinert
      rw [names_eq hp, hbody] at hne
      exact absurd rfl hne
  | some up =>
      obtain ⟨head, body, hp, ⟨kept, skipped, last, dropped, hcut, rfl⟩
        | ⟨hhead, hinert, rfl⟩⟩ := parent?_eq_some hup
      · have hend := hstep hne _ _ hp
        have hpieces := hcut.pieces_parent hp
        -- nothing is dropped behind the last step
        have hdropped : dropped = [] := by
          refine eq_nil_of_endInStep (fun x hx => hend x ?_) hcut.dropped_inert
          rw [hcut.body_eq, List.getLast?_append, List.getLast?_cons, hx]
          rfl
        have hlast : last ≠ [] := by
          intro hnil
          have h := hcut.last_step
          rw [hnil] at h
          cases h
        refine .inr ⟨_, skipped.filter (· ≠ []), last, rfl, ?_, ?_, ?_⟩
        · intro hempty
          unfold pieces at hpieces
          rw [hempty, Text.splitOn_nil] at hpieces
          split at hpieces
          · cases hpieces
          · next hroot =>
            cases hpieces
            exact hroot ⟨rfl, rfl⟩
        · rw [names_eq hp, hcut.body_eq, hdropped, List.filter_append,
            List.filter_append, List.filter_cons, List.filter_nil]
          split at hpieces
          · next hroot =>
            rw [names_eq hpieces, hroot.1, hroot.2]
            simp [hlast]
          · rw [names_eq hpieces]
            simp [hlast]
        · intro d hd
          obtain ⟨hin, hd'⟩ := List.mem_filter.1 hd
          have hinert := hcut.skipped_inert d hin
          unfold isInert at hinert
          simp only [Bool.or_eq_true, beq_iff_eq] at hinert
          rcases hinert with hnil | hdot
          · simp [hnil] at hd'
          · exact hdot
      · have hbody := eq_nil_of_endInStep (hstep hne _ _ hp) hinert
        refine .inl ⟨head, ?_, ?_⟩
        · rw [names_eq hp, hbody, if_neg hhead]
          rfl
        · exact directory_of_parent? hup

/-- The directory part of a path that has one is its parent. -/
theorem parent?_of_directory {p : Path} (h : p.directory.text ≠ []) :
    p.parent? = some p.directory := by
  unfold directory at h ⊢
  cases hup : p.parent? with
  | none =>
      rw [hup] at h
      exact absurd rfl h
  | some up => rfl

/-- Every path upwards has the first steps of the one at the bottom. -/
theorem isPrefixOf_of_mem_upwards {steps : Nat} {p q : Path}
    (h : q ∈ upwards steps p) : q.IsPrefixOf p := by
  induction steps generalizing p with
  | zero => cases h
  | succ steps ih =>
      rw [upwards] at h
      split at h
      · cases h
      · rcases List.mem_cons.1 h with rfl | h
        · exact .refl q
        · split at h
          · cases h
          · next up hup => exact (ih h).trans (isPrefixOf_parent hup)

/-- Every path of a lineage has the first steps of the one at its end. -/
theorem isPrefixOf_of_mem_lineage {p q : Path} (h : q ∈ p.lineage) :
    q.IsPrefixOf p :=
  isPrefixOf_of_mem_upwards h

/-- The directories that a path may need have the first steps of its
parent. -/
theorem isPrefixOf_of_mem_directory {p q : Path}
    (h : q ∈ p.directory.lineage) :
    ∃ parent, p.parent? = some parent ∧ q.IsPrefixOf parent := by
  unfold directory at h
  cases hup : p.parent? with
  | none =>
      rw [hup, Option.getD_none, lineage_empty] at h
      cases h
  | some parent =>
      rw [hup, Option.getD_some] at h
      exact ⟨parent, rfl, isPrefixOf_of_mem_lineage h⟩

end BraceLift.Path
