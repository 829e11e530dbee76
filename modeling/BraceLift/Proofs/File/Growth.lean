/-
Trees that only grow, and paths that keep leading to the same place.

A tree grows to another if every directory is still a directory and
every file still a file (`GrowsTo`); contents may differ and entries may
be new. Every action of the tool is such a growth (Effect.lean).

Following a path looks at nothing that a growth changes: whether a place
is there, and whether it is a directory. So a path that leads somewhere
leads to the same place in every tree that the first one grows to
(`GrowsTo.resolve`), and more is true: wherever a walk ends well, it ends
at the place that its names spell (`walk_eq_spelled`), the same in any
two trees with one home.
-/
import BraceLift.File.Change

namespace BraceLift

namespace FileTree

-- =============================================================== growth

/-- Whether a tree has all that another has, each directory still a
directory and each file still a file. -/
structure GrowsTo (old new : FileTree) : Prop where
  home : new.home = old.home
  directory : ∀ loc, old.at? loc = some .directory →
    new.at? loc = some .directory
  file : ∀ loc b, old.at? loc = some (.file b) →
    ∃ b', new.at? loc = some (.file b')

namespace GrowsTo

theorem refl (tree : FileTree) : tree.GrowsTo tree :=
  ⟨rfl, fun _ h => h, fun _ b h => ⟨b, h⟩⟩

theorem trans {old mid new : FileTree} (h : old.GrowsTo mid)
    (h' : mid.GrowsTo new) : old.GrowsTo new := by
  refine ⟨h'.home.trans h.home, fun loc hd => ?_, fun loc b hf => ?_⟩
  · exact h'.directory loc (h.directory loc hd)
  · obtain ⟨b', hb'⟩ := h.file loc b hf
    exact h'.file loc b' hb'

variable {old new : FileTree}

/-- What is there stays there. -/
theorem isSome (h : old.GrowsTo new) {loc : Loc} {e : Entry}
    (he : old.at? loc = some e) : ∃ e', new.at? loc = some e' := by
  cases e with
  | directory => exact ⟨_, h.directory loc he⟩
  | file b =>
      obtain ⟨b', hb'⟩ := h.file loc b he
      exact ⟨_, hb'⟩

theorem isDirectoryAt (h : old.GrowsTo new) {loc : Loc}
    (hd : old.isDirectoryAt loc = true) : new.isDirectoryAt loc = true := by
  unfold FileTree.isDirectoryAt at hd ⊢
  rw [beq_iff_eq] at hd ⊢
  exact h.directory loc hd

/-- What is no directory, but there, is still none. -/
theorem isDirectoryAt_of_new (h : old.GrowsTo new) {loc : Loc} {e : Entry}
    (he : old.at? loc = some e) (hd : new.isDirectoryAt loc = true) :
    old.isDirectoryAt loc = true := by
  unfold FileTree.isDirectoryAt at hd ⊢
  rw [beq_iff_eq] at hd ⊢
  cases e with
  | directory => exact he
  | file b =>
      obtain ⟨b', hb'⟩ := h.file loc b he
      rw [hd] at hb'
      cases hb'

end GrowsTo

-- ================================================================ walks

/-- The place that a name spells from another, whatever is there. -/
def advance (here : Loc) (name : Text) : Loc :=
  if name = dot then here
  else if name = dotDot then here.tail
  else name :: here

/-- The place that some names spell from another. -/
def spelled (here : Loc) (names : List Text) : Loc :=
  names.foldl advance here

/-- What a step that is taken asks for, and where it leads. -/
theorem step_eq_ok_iff (tree : FileTree) (here : Loc) (name : Text)
    (next : Loc) :
    tree.step here name = .ok next
      ↔ next = advance here name ∧ tree.isDirectoryAt here = true
        ∧ (name = dot ∨ name = dotDot
          ∨ name.byteCount ≤ nameLimit
            ∧ ∃ e, tree.at? (name :: here) = some e) := by
  unfold step advance
  cases hd : tree.isDirectoryAt here with
  | false => simp
  | true =>
      by_cases h1 : name = dot
      · simp [h1, eq_comm]
      · by_cases h2 : name = dotDot
        · have h3 : dotDot ≠ dot := by decide
          simp [h2, h3, eq_comm]
        · by_cases h4 : nameLimit < name.byteCount
          · have h5 : ¬ name.byteCount ≤ nameLimit := by omega
            simp [h1, h2, h4, h5]
          · have h5 : name.byteCount ≤ nameLimit := by omega
            cases hat : tree.at? (name :: here) with
            | none => simp [h1, h2, h4]
            | some e => simp [h1, h2, h4, h5, eq_comm]

/-- A walk takes its first step and goes on from there. -/
theorem walk_cons_eq_ok_iff (tree : FileTree) (here loc : Loc) (name : Text)
    (rest : List Text) :
    tree.walk here (name :: rest) = .ok loc
      ↔ ∃ next, tree.step here name = .ok next
        ∧ tree.walk next rest = .ok loc := by
  rw [walk]
  cases tree.step here name with
  | error fault => simp
  | ok next => simp

/-- A walk along two stretches of names is one after the other. -/
theorem walk_append_eq_ok_iff (tree : FileTree) (here loc : Loc)
    (xs ys : List Text) :
    tree.walk here (xs ++ ys) = .ok loc
      ↔ ∃ mid, tree.walk here xs = .ok mid
        ∧ tree.walk mid ys = .ok loc := by
  induction xs generalizing here with
  | nil => simp [walk]
  | cons name rest ih =>
      rw [List.cons_append, walk_cons_eq_ok_iff]
      simp only [ih, walk_cons_eq_ok_iff]
      constructor
      · intro hall
        obtain ⟨next, hs, mid, hmid, hw⟩ := hall
        exact ⟨mid, ⟨next, hs, hmid⟩, hw⟩
      · intro hall
        obtain ⟨mid, ⟨next, hs, hmid⟩, hw⟩ := hall
        exact ⟨next, hs, mid, hmid, hw⟩

/-- A walk takes its last step from where the others lead. -/
theorem walk_concat_eq_ok_iff (tree : FileTree) (here loc : Loc)
    (names : List Text) (name : Text) :
    tree.walk here (names ++ [name]) = .ok loc
      ↔ ∃ dir, tree.walk here names = .ok dir
        ∧ tree.step dir name = .ok loc := by
  rw [walk_append_eq_ok_iff]
  have hone : ∀ dir, tree.walk dir [name] = tree.step dir name := by
    intro dir
    rw [walk]
    cases tree.step dir name with
    | error fault => rfl
    | ok next => rfl
  simp only [hone]

/-- A walk that ends well ends where its names spell. -/
theorem walk_eq_spelled {tree : FileTree} {here loc : Loc}
    {names : List Text} (h : tree.walk here names = .ok loc) :
    loc = spelled here names := by
  induction names generalizing here with
  | nil =>
      cases h
      rfl
  | cons name rest ih =>
      obtain ⟨next, hs, hw⟩ := (walk_cons_eq_ok_iff _ _ _ _ _).1 h
      obtain ⟨hnext, -⟩ := (step_eq_ok_iff tree here name next).1 hs
      rw [spelled, List.foldl_cons, ← hnext]
      exact ih hw

namespace GrowsTo

variable {old new : FileTree}

theorem step (h : old.GrowsTo new) {here next : Loc} {name : Text}
    (hs : old.step here name = .ok next) :
    new.step here name = .ok next := by
  rw [step_eq_ok_iff] at hs ⊢
  obtain ⟨hnext, hd, hname⟩ := hs
  refine ⟨hnext, h.isDirectoryAt hd, ?_⟩
  rcases hname with hdot | hdots | ⟨hshort, e, he⟩
  · exact .inl hdot
  · exact .inr (.inl hdots)
  · exact .inr (.inr ⟨hshort, h.isSome he⟩)

theorem walk (h : old.GrowsTo new) {here loc : Loc} {names : List Text}
    (hw : old.walk here names = .ok loc) :
    new.walk here names = .ok loc := by
  induction names generalizing here with
  | nil => exact hw
  | cons name rest ih =>
      rw [walk_cons_eq_ok_iff] at hw ⊢
      obtain ⟨next, hs, hrest⟩ := hw
      exact ⟨next, h.step hs, ih hrest⟩

theorem startOf (h : old.GrowsTo new) (p : Path) :
    new.startOf p = old.startOf p := by
  unfold FileTree.startOf
  rw [h.home]

end GrowsTo

-- ========================================================= resolved paths

/-- What a path that leads somewhere asks for. -/
theorem resolve_eq_ok_iff (tree : FileTree) (p : Path) (loc : Loc) :
    tree.resolve p = .ok loc
      ↔ p.fault? = none ∧ tree.walk (tree.startOf p) p.names = .ok loc
        ∧ (p.endsInSlash = true → tree.isDirectoryAt loc = true) := by
  unfold resolve
  cases hf : p.fault? with
  | some fault => simp
  | none =>
      cases hw : tree.walk (tree.startOf p) p.names with
      | error fault => simp
      | ok there =>
          dsimp only
          by_cases hs : p.endsInSlash = true ∧ ¬ tree.isDirectoryAt there
          · rw [if_pos hs]
            constructor
            · intro h
              cases h
            · intro hall
              obtain ⟨-, heq, hdir⟩ := hall
              cases heq
              exact absurd (hdir hs.1) hs.2
          · rw [if_neg hs]
            constructor
            · intro h
              cases h
              refine ⟨rfl, rfl, fun hslash => ?_⟩
              exact Classical.byContradiction fun hno => hs ⟨hslash, hno⟩
            · exact fun h => h.2.1

/-- From a place where something is, a step leads to such a place. -/
theorem at?_of_step {tree : FileTree} {here next : Loc} {name : Text}
    {e : Entry} (hhere : tree.at? here = some e)
    (h : tree.step here name = .ok next) : ∃ e', tree.at? next = some e' := by
  obtain ⟨hnext, -, hname⟩ := (step_eq_ok_iff _ _ _ _).1 h
  unfold advance at hnext
  split at hnext
  · exact ⟨e, hnext ▸ hhere⟩
  · split at hnext
    · exact ⟨.directory, hnext ▸ at?_tail hhere⟩
    · next hdot hdots =>
      rcases hname with hd | hd | ⟨-, e', he'⟩
      · exact absurd hd hdot
      · exact absurd hd hdots
      · exact ⟨e', hnext ▸ he'⟩

/-- From a place where something is, a walk ends at such a place. -/
theorem at?_of_walk {tree : FileTree} {here loc : Loc} {names : List Text}
    {e : Entry} (hhere : tree.at? here = some e)
    (h : tree.walk here names = .ok loc) : ∃ e', tree.at? loc = some e' := by
  induction names generalizing here e with
  | nil =>
      cases h
      exact ⟨e, hhere⟩
  | cons name rest ih =>
      obtain ⟨next, hs, hw⟩ := (walk_cons_eq_ok_iff _ _ _ _ _).1 h
      obtain ⟨e', he'⟩ := at?_of_step hhere hs
      exact ih he' hw

/-- A relative path that is not empty has a name to follow. -/
theorem names_ne_nil {p : Path} (hne : p.text ≠ [])
    (hrel : p.isAbsolute = false) : p.names ≠ [] := by
  unfold Path.isAbsolute at hrel
  unfold Path.names Path.pieces
  cases ht : p.text with
  | nil => exact absurd ht hne
  | cons c rest =>
      rw [ht] at hrel
      have hc : c ≠ '/' := by simpa using hrel
      unfold Text.splitOn
      rw [List.foldr_cons, if_neg hc]
      split <;> simp

theorem text_ne_nil_of_fault? {p : Path} (h : p.fault? = none) : p.text ≠ [] := by
  intro hnil
  unfold Path.fault? at h
  simp [hnil, pathLimit] at h

/-- Something is there where a path leads. -/
theorem at?_of_resolve {tree : FileTree} {p : Path} {loc : Loc}
    (h : tree.resolve p = .ok loc) : ∃ e, tree.at? loc = some e := by
  obtain ⟨hfault, hwalk, -⟩ := (resolve_eq_ok_iff tree p loc).1 h
  unfold startOf at hwalk
  cases habs : p.isAbsolute with
  | true =>
      rw [habs, if_pos rfl] at hwalk
      exact at?_of_walk tree.at?_nil hwalk
  | false =>
      rw [habs, if_neg (by decide)] at hwalk
      obtain ⟨name, rest, hnames⟩ :=
        List.exists_cons_of_ne_nil (names_ne_nil (text_ne_nil_of_fault? hfault) habs)
      -- the first step is taken from the home, so the home is there
      rw [hnames] at hwalk
      obtain ⟨next, hs, -⟩ := (walk_cons_eq_ok_iff _ _ _ _ _).1 hwalk
      obtain ⟨-, hhome, -⟩ := (step_eq_ok_iff _ _ _ _).1 hs
      exact at?_of_walk (beq_iff_eq.1 hhome) hwalk

/-- Whether a path leads to this. -/
def Finds (tree : FileTree) (p : Path) (e : Entry) : Prop :=
  ∃ loc, tree.resolve p = .ok loc ∧ tree.at? loc = some e

/-- A path leads nowhere, or there is something where it leads. -/
theorem absent_or_finds (tree : FileTree) (p : Path) :
    (∀ loc, tree.resolve p ≠ .ok loc) ∨ ∃ e, tree.Finds p e := by
  cases hr : tree.resolve p with
  | error fault => exact .inl fun loc h => by cases h
  | ok loc =>
      obtain ⟨e, he⟩ := at?_of_resolve hr
      exact .inr ⟨e, loc, hr, he⟩

namespace GrowsTo

variable {old new : FileTree}

/-- A path keeps leading where it led. -/
theorem resolve (h : old.GrowsTo new) {p : Path} {loc : Loc}
    (hr : old.resolve p = .ok loc) : new.resolve p = .ok loc := by
  rw [resolve_eq_ok_iff] at hr ⊢
  obtain ⟨hfault, hwalk, hslash⟩ := hr
  rw [h.startOf]
  exact ⟨hfault, h.walk hwalk, fun hs => h.isDirectoryAt (hslash hs)⟩

end GrowsTo

end FileTree

end BraceLift
