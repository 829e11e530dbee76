/-
When directories can be made and a file can be written.

The refusals of a file system come from many places along a path: a name
too long, a file where a directory should be, a name that is not there.
What decides in the end is said without any of them: there is room for a
directory at a path if some tree that the tree grows to has one there
(`AdmitsDirectory`), and room for a file likewise (`AdmitsFile`). Making
directories succeeds if and only if there is room for the last one
(`makeDirectories_ok_iff`), writing if and only if there is room for the
file (`write_ok_iff`). Without room the refusal is certain: of the
directories (`makeDirectories_refused_iff`), and of every content, also
where only some directories could be made (`store_refused_iff`).

That there is room when the change succeeds is plain: the tree after it
shows so. For the other direction the wanted tree is a guide, `goal`: the
tree grows to it, and so does the tree after each directory that is made,
since it was made where `goal` has one (`Sprouts.growsTo_goal`). Along a
path that `goal` follows, nothing can then be in the way but a name that
is not there yet (`walk_toward_goal`), which is the one refusal that
sends the making of directories upwards.
-/
import BraceLift.Proofs.File.Effect

namespace BraceLift

-- ============================================================== spelling

/-- What may be spelled may be cut, unless nothing is left. -/
theorem Path.fault?_of_prefix {p up : Path} (hfault : p.fault? = none)
    (hne : up.text ≠ []) (hpre : up.text <+: p.text) : up.fault? = none := by
  obtain ⟨rest, hrest⟩ := hpre
  unfold fault? at hfault ⊢
  rw [← hrest, Text.byteCount_append] at hfault
  split at hfault
  · cases hfault
  · next hnul =>
    split at hfault
    · cases hfault
    · next hlong =>
      rw [if_neg fun h => hnul (List.mem_append_left _ h), if_neg (by omega),
        if_neg hne]

namespace FileTree

variable {tree goal : FileTree}

-- ================================================================ places

/-- The directories that a path leads to are what it finds. -/
theorem isDirectory_iff_finds (tree : FileTree) (p : Path) :
    tree.isDirectory p = true ↔ tree.Finds p .directory := by
  unfold isDirectory Finds
  cases hr : tree.resolve p with
  | error fault => simp
  | ok loc => simp [isDirectoryAt]

/-- In trees with one home, a path leads to one place only. -/
theorem resolve_unique (hhome : goal.home = tree.home) {p : Path}
    {loc loc' : Loc} (h : tree.resolve p = .ok loc)
    (h' : goal.resolve p = .ok loc') : loc = loc' := by
  obtain ⟨-, hwalk, -⟩ := (resolve_eq_ok_iff _ _ _).1 h
  obtain ⟨-, hwalk', -⟩ := (resolve_eq_ok_iff _ _ _).1 h'
  have hstart : goal.startOf p = tree.startOf p := by
    unfold startOf
    rw [hhome]
  rw [walk_eq_spelled hwalk, walk_eq_spelled hwalk', hstart]

/-- Only from a directory does a walk get to one. -/
theorem isDirectoryAt_of_walk {here loc : Loc} {names : List Text}
    (h : tree.walk here names = .ok loc)
    (hd : tree.isDirectoryAt loc = true) :
    tree.isDirectoryAt here = true := by
  cases names with
  | nil =>
      cases h
      exact hd
  | cons name rest =>
      obtain ⟨next, hs, -⟩ := (walk_cons_eq_ok_iff _ _ _ _ _).1 h
      exact ((step_eq_ok_iff _ _ _ _).1 hs).2.1

/-- Dots stay in a directory. -/
theorem walk_dots {here : Loc} {dots : List Text}
    (hd : tree.isDirectoryAt here = true) (hdots : ∀ d ∈ dots, d = dot) :
    tree.walk here dots = .ok here := by
  induction dots with
  | nil => rfl
  | cons d rest ih =>
      have hstep : tree.step here d = .ok here := by
        rw [step_eq_ok_iff]
        have hdot := hdots d (List.mem_cons_self ..)
        refine ⟨?_, hd, .inl hdot⟩
        rw [advance, if_pos hdot]
      rw [walk_cons_eq_ok_iff]
      exact ⟨here, hstep, ih fun x hx => hdots x (List.mem_cons_of_mem _ hx)⟩

-- ====================================================== toward a wanted tree

/-- What was added where the goal has a directory is on the way to it. -/
theorem Sprouts.growsTo_goal {new : FileTree} {P : Loc → Prop}
    (h : tree.Sprouts new P) (hgoal : tree.GrowsTo goal)
    (hP : ∀ loc, P loc → goal.at? loc = some .directory) :
    new.GrowsTo goal := by
  refine ⟨hgoal.home.trans h.home.symm, fun loc hd => ?_, fun loc b hf => ?_⟩
  · rcases h.at?_eq loc with hsame | ⟨-, -, hloc⟩
    · exact hgoal.directory loc (hsame ▸ hd)
    · exact hP loc hloc
  · exact hgoal.file loc b ((h.file_iff loc b).1 hf)

/-- A step that the goal takes is taken, or its name is not there yet. -/
theorem step_toward_goal (hgoal : tree.GrowsTo goal) {here next : Loc}
    {name : Text} {e : Entry} (hhere : tree.at? here = some e)
    (h : goal.step here name = .ok next) :
    tree.step here name = .ok next
      ∨ tree.step here name = .error .notFound := by
  obtain ⟨hnext, hd, hname⟩ := (step_eq_ok_iff _ _ _ _).1 h
  have hdir := hgoal.isDirectoryAt_of_new hhere hd
  by_cases hdots : name = dot ∨ name = dotDot
  · refine .inl ((step_eq_ok_iff _ _ _ _).2 ⟨hnext, hdir, ?_⟩)
    rcases hdots with hdot | hdd
    · exact .inl hdot
    · exact .inr (.inl hdd)
  · obtain ⟨hdot, hdd⟩ := not_or.1 hdots
    obtain ⟨hshort, -⟩ := (hname.resolve_left hdot).resolve_left hdd
    cases hat : tree.at? (name :: here) with
    | some e' =>
        exact .inl ((step_eq_ok_iff _ _ _ _).2
          ⟨hnext, hdir, .inr (.inr ⟨hshort, e', hat⟩)⟩)
    | none =>
        have hlong : ¬ nameLimit < name.byteCount := by omega
        refine .inr ?_
        unfold step
        rw [if_neg (by rw [hdir]; decide), if_neg hdot, if_neg hdd,
          if_neg hlong, hat]

/-- Where the goal walks, only a missing name is in the way. -/
theorem walk_toward_goal (hgoal : tree.GrowsTo goal) {here loc : Loc}
    {names : List Text} {e : Entry} (hhere : tree.at? here = some e)
    (h : goal.walk here names = .ok loc) :
    tree.walk here names = .ok loc
      ∨ tree.walk here names = .error .notFound := by
  induction names generalizing here e with
  | nil => exact .inl h
  | cons name rest ih =>
      obtain ⟨next, hs, hw⟩ := (walk_cons_eq_ok_iff _ _ _ _ _).1 h
      rcases step_toward_goal hgoal hhere hs with hstep | hstep
      · obtain ⟨e', he'⟩ := at?_of_step hhere hstep
        rw [walk, hstep]
        exact ih he' hw
      · rw [walk, hstep]
        exact .inr rfl

-- =============================================== the last name of a path

/-- What a path finds is one step away from where its other names lead. -/
theorem last_step_of_finds {p : Path} {e : Entry} {name : Text}
    (h : goal.Finds p e) (hlast : p.names.getLast? = some name) :
    ∃ dir next, goal.walk (goal.startOf p) p.names.dropLast = .ok dir
      ∧ goal.step dir name = .ok next ∧ goal.at? next = some e := by
  obtain ⟨loc, hr, hat⟩ := h
  obtain ⟨-, hwalk, -⟩ := (resolve_eq_ok_iff _ _ _).1 hr
  obtain ⟨above, hnames⟩ := List.getLast?_eq_some_iff.1 hlast
  rw [hnames, walk_concat_eq_ok_iff] at hwalk
  obtain ⟨dir, hdirs, hstep⟩ := hwalk
  rw [hnames, List.dropLast_concat]
  exact ⟨dir, loc, hdirs, hstep, hat⟩

/-- What a path asks for whose other names lead to a directory. -/
theorem target_of_walk {p : Path} {dir : Loc} {name : Text}
    (hfault : p.fault? = none) (hlast : p.names.getLast? = some name)
    (hwalk : tree.walk (tree.startOf p) p.names.dropLast = .ok dir)
    (hdir : tree.isDirectoryAt dir = true) :
    tree.target p
      = .ok (if name = dot ∨ name = dotDot then .dots
          else .named dir name) := by
  unfold target
  rw [hfault, hlast]
  dsimp only
  rw [hwalk]
  dsimp only
  rw [if_neg (by rw [hdir]; decide)]
  split <;> rfl

/-- Dots stay in a directory or go up to one, and so does a path that ends
in them. -/
theorem finds_of_dots {p : Path} {dir : Loc} {name : Text}
    (hfault : p.fault? = none) (hlast : p.names.getLast? = some name)
    (hwalk : tree.walk (tree.startOf p) p.names.dropLast = .ok dir)
    (hdir : tree.isDirectoryAt dir = true)
    (hdots : name = dot ∨ name = dotDot) :
    tree.at? (advance dir name) = some .directory
      ∧ tree.isDirectory p = true := by
  have hup : tree.at? (advance dir name) = some .directory := by
    unfold advance
    split
    · exact beq_iff_eq.1 hdir
    · rw [if_pos (hdots.resolve_left ‹_›)]
      exact at?_tail (beq_iff_eq.1 hdir)
  have hstep : tree.step dir name = .ok (advance dir name) := by
    rw [step_eq_ok_iff]
    refine ⟨rfl, hdir, ?_⟩
    rcases hdots with hdot | hdd
    · exact .inl hdot
    · exact .inr (.inl hdd)
  obtain ⟨above, hnames⟩ := List.getLast?_eq_some_iff.1 hlast
  rw [hnames, List.dropLast_concat] at hwalk
  refine ⟨hup, ?_⟩
  rw [isDirectory_iff_finds]
  refine ⟨_, ?_, hup⟩
  rw [resolve_eq_ok_iff, hnames, walk_concat_eq_ok_iff]
  exact ⟨hfault, ⟨dir, hwalk, hstep⟩, fun _ => beq_iff_eq.2 hup⟩

/-- The way to what the goal has at a path: a name above it is not there
yet, the path ends in dots and leads to a directory already, or its last
name may be looked up. -/
theorem target_toward_goal (hgoal : tree.GrowsTo goal) {p : Path} {e : Entry}
    {name : Text} (hstart : tree.isDirectoryAt (tree.startOf p) = true)
    (hfinds : goal.Finds p e) (hlast : p.names.getLast? = some name) :
    (tree.target p = .error .notFound
        ∧ tree.walk (tree.startOf p) p.names.dropLast = .error .notFound)
      ∨ (tree.target p = .ok .dots ∧ e = .directory
        ∧ tree.isDirectory p = true)
      ∨ ∃ dir, tree.target p = .ok (.named dir name)
        ∧ ¬ nameLimit < name.byteCount
        ∧ goal.at? (name :: dir) = some e := by
  obtain ⟨dir, next, hdirs, hstep, hnext⟩ := last_step_of_finds hfinds hlast
  obtain ⟨loc, hr, -⟩ := hfinds
  obtain ⟨hfault, -, -⟩ := (resolve_eq_ok_iff _ _ _).1 hr
  obtain ⟨hadvance, hdir, hname⟩ := (step_eq_ok_iff _ _ _ _).1 hstep
  rw [hgoal.startOf] at hdirs
  rcases walk_toward_goal hgoal (beq_iff_eq.1 hstart) hdirs with hw | hw
  · obtain ⟨e', he'⟩ := at?_of_walk (beq_iff_eq.1 hstart) hw
    have hhere := hgoal.isDirectoryAt_of_new he' hdir
    have htarget := target_of_walk hfault hlast hw hhere
    by_cases hdots : name = dot ∨ name = dotDot
    · rw [if_pos hdots] at htarget
      obtain ⟨hup, hthere⟩ := finds_of_dots hfault hlast hw hhere hdots
      have hkind := hgoal.directory _ hup
      rw [← hadvance, hnext] at hkind
      cases hkind
      exact .inr (.inl ⟨htarget, rfl, hthere⟩)
    · rw [if_neg hdots] at htarget
      obtain ⟨hdot, hdd⟩ := not_or.1 hdots
      rw [advance, if_neg hdot, if_neg hdd] at hadvance
      rcases hname with h | h | ⟨hshort, -⟩
      · exact absurd h hdot
      · exact absurd h hdd
      · exact .inr (.inr ⟨dir, htarget, by omega, hadvance ▸ hnext⟩)
  · refine .inl ⟨?_, hw⟩
    unfold target
    rw [hfault, hlast]
    dsimp only
    rw [hw]

/-- A path without a name, if it finds anything, finds its start. -/
theorem finds_of_names_nil {p : Path} (hfault : p.fault? = none)
    (hnames : p.names = [])
    (hstart : tree.isDirectoryAt (tree.startOf p) = true) :
    tree.Finds p .directory := by
  refine ⟨tree.startOf p, ?_, beq_iff_eq.1 hstart⟩
  rw [resolve_eq_ok_iff, hnames]
  exact ⟨hfault, rfl, fun _ => hstart⟩

/-- A directory that the goal has is made, is there, or has to wait for
those above it. -/
theorem makeDirectory_toward_goal (hgoal : tree.GrowsTo goal) {p : Path}
    (hstart : tree.isDirectoryAt (tree.startOf p) = true)
    (hfinds : goal.Finds p .directory) :
    (∃ made, tree.makeDirectory p = .ok made)
      ∨ (tree.makeDirectory p = .error .exists
        ∧ tree.isDirectory p = true)
      ∨ (tree.makeDirectory p = .error .notFound ∧ p.names ≠ []
        ∧ tree.walk (tree.startOf p) p.names.dropLast
          = .error .notFound) := by
  unfold makeDirectory
  cases hlast : p.names.getLast? with
  | none =>
      have hnames := List.getLast?_eq_none_iff.1 hlast
      obtain ⟨loc, hr, -⟩ := hfinds
      obtain ⟨hfault, -, -⟩ := (resolve_eq_ok_iff _ _ _).1 hr
      have htarget : tree.target p = .ok .dots := by
        unfold target
        rw [hfault, hlast]
      refine .inr (.inl ⟨by rw [htarget], ?_⟩)
      rw [isDirectory_iff_finds]
      exact finds_of_names_nil hfault hnames hstart
  | some name =>
      have hnames : p.names ≠ [] := by
        intro hnil
        rw [hnil] at hlast
        cases hlast
      rcases target_toward_goal hgoal hstart hfinds hlast with
        ⟨htarget, hwalk⟩ | ⟨htarget, -, hdir⟩ | ⟨dir, htarget, hshort, hat⟩
      · exact .inr (.inr ⟨by rw [htarget], hnames, hwalk⟩)
      · exact .inr (.inl ⟨by rw [htarget], hdir⟩)
      · rw [htarget]
        dsimp only
        rw [if_neg hshort]
        cases hold : tree.at? (name :: dir) with
        | none => exact .inl ⟨_, rfl⟩
        | some e =>
            have hdir :=
              hgoal.isDirectoryAt_of_new hold (beq_iff_eq.2 hat)
            rw [isDirectoryAt, hold, beq_iff_eq] at hdir
            cases hdir
            refine .inr (.inl ⟨rfl, ?_⟩)
            rw [isDirectory_iff_finds]
            exact ⟨_, resolve_of_target (.refl tree) htarget hshort hold
              fun _ => rfl, hold⟩

/-- A path to a file has a name. -/
theorem names_ne_nil_of_finds_file {p : Path} {b : ByteArray}
    (h : goal.Finds p (.file b)) : p.names ≠ [] := by
  intro hnil
  obtain ⟨loc, hr, hat⟩ := h
  obtain ⟨hfault, hwalk, -⟩ := (resolve_eq_ok_iff _ _ _).1 hr
  cases habs : p.isAbsolute with
  | true =>
      rw [hnil, startOf, habs, if_pos rfl] at hwalk
      cases hwalk
      cases hat
  | false => exact names_ne_nil (text_ne_nil_of_fault? hfault) habs hnil

/-- A path to a file does not insist on a directory. -/
theorem endsInSlash_of_finds_file {p : Path} {b : ByteArray}
    (h : goal.Finds p (.file b)) : p.endsInSlash = false := by
  obtain ⟨loc, hr, hat⟩ := h
  obtain ⟨-, -, hslash⟩ := (resolve_eq_ok_iff _ _ _).1 hr
  cases hs : p.endsInSlash with
  | false => rfl
  | true =>
      have hdir := hslash hs
      rw [isDirectoryAt, hat] at hdir
      cases hdir

/-- A file that the goal has can be stored once the names above it lead
somewhere. -/
theorem store_toward_goal (hgoal : tree.GrowsTo goal) {p : Path}
    {b : ByteArray} (hstart : tree.isDirectoryAt (tree.startOf p) = true)
    (hfinds : goal.Finds p (.file b)) {dir : Loc}
    (hwalk : tree.walk (tree.startOf p) p.names.dropLast = .ok dir)
    (content : ByteArray) : ∃ stored, tree.store p content = .ok stored := by
  have hslash := endsInSlash_of_finds_file hfinds
  cases hlast : p.names.getLast? with
  | none =>
      have hnames := List.getLast?_eq_none_iff.1 hlast
      exact absurd hnames (names_ne_nil_of_finds_file hfinds)
  | some name =>
      rcases target_toward_goal hgoal hstart hfinds hlast with
        ⟨-, herror⟩ | ⟨-, hkind, -⟩ | ⟨dir, htarget, hshort, hat⟩
      · rw [hwalk] at herror
        cases herror
      · cases hkind
      · unfold store
        rw [htarget]
        dsimp only
        rw [if_neg (by rw [hslash]; decide), if_neg hshort]
        cases hold : tree.at? (name :: dir) with
        | none => exact ⟨_, rfl⟩
        | some e =>
            cases e with
            | file b' => exact ⟨_, rfl⟩
            | directory =>
                rw [hgoal.directory _ hold] at hat
                cases hat

-- ========================================================= going upwards

theorem startOf_parent {p up : Path} (hup : p.parent? = some up) :
    tree.startOf up = tree.startOf p := by
  unfold startOf
  rw [(Path.isPrefixOf_parent hup).1]

/-- Above whatever a path finds there is a directory. -/
theorem finds_parent {p up : Path} {dots : List Text} {last : Text}
    {e : Entry} (hfinds : goal.Finds p e) (hup : p.parent? = some up)
    (hne : up.text ≠ []) (hnames : p.names = up.names ++ dots ++ [last]) :
    goal.Finds up .directory := by
  obtain ⟨loc, hr, -⟩ := hfinds
  obtain ⟨hfault, hwalk, -⟩ := (resolve_eq_ok_iff _ _ _).1 hr
  have hupfault := Path.fault?_of_prefix hfault hne
    (Path.text_parent (text_ne_nil_of_fault? hfault) hup).1
  rw [hnames, List.append_assoc, walk_append_eq_ok_iff] at hwalk
  obtain ⟨mid, hmid, hmore⟩ := hwalk
  -- one more step at least is taken from there
  obtain ⟨name, rest, hcons⟩ :=
    List.exists_cons_of_ne_nil (show dots ++ [last] ≠ [] by simp)
  rw [hcons] at hmore
  obtain ⟨next, hs, -⟩ := (walk_cons_eq_ok_iff _ _ _ _ _).1 hmore
  obtain ⟨-, hd, -⟩ := (step_eq_ok_iff _ _ _ _).1 hs
  refine ⟨mid, ?_, beq_iff_eq.1 hd⟩
  rw [resolve_eq_ok_iff, startOf_parent hup]
  exact ⟨hupfault, hmid, fun _ => hd⟩

/-- Once the parent is a directory, the names above the last one lead
somewhere. -/
theorem walk_dropLast_of_parent {p up : Path} {dots : List Text}
    {last : Text} (hdir : tree.isDirectory up = true)
    (hup : p.parent? = some up)
    (hnames : p.names = up.names ++ dots ++ [last])
    (hdots : ∀ d ∈ dots, d = dot) :
    ∃ dir, tree.walk (tree.startOf p) p.names.dropLast = .ok dir := by
  obtain ⟨loc, hr, hat⟩ := (isDirectory_iff_finds tree up).1 hdir
  obtain ⟨-, hwalk, -⟩ := (resolve_eq_ok_iff _ _ _).1 hr
  refine ⟨loc, ?_⟩
  rw [hnames, List.dropLast_concat, walk_append_eq_ok_iff,
    ← startOf_parent hup]
  exact ⟨loc, hwalk, walk_dots (beq_iff_eq.2 hat) hdots⟩

/-- A directory that was made where the goal has one is on the way to it. -/
theorem growsTo_goal_of_makeDirectory (hgoal : tree.GrowsTo goal) {p : Path}
    {made : FileTree} (h : tree.makeDirectory p = .ok made)
    (hfinds : goal.Finds p .directory) : made.GrowsTo goal := by
  obtain ⟨hsprouts, -⟩ := makeDirectory_ok h
  obtain ⟨place, hr, hat⟩ := hfinds
  refine hsprouts.growsTo_goal hgoal fun loc hloc => ?_
  have hhome : goal.home = made.home := hgoal.home.trans hsprouts.home.symm
  rw [resolve_unique hhome hloc hr]
  exact hat

/-- A directory that the goal has is made together with those above it,
and the tree after that is still on the way. -/
theorem makeLineage_toward_goal (hgoal : tree.GrowsTo goal) {steps : Nat}
    {p : Path} (hlen : p.text.length < steps) (hstep : p.EndsInStep)
    (hstart : tree.isDirectoryAt (tree.startOf p) = true)
    (hfinds : goal.Finds p .directory) :
    (tree.makeLineage (Path.upwards steps p)).result = .ok ()
      ∧ (tree.makeLineage (Path.upwards steps p)).tree.isDirectory p = true
      ∧ (tree.makeLineage (Path.upwards steps p)).tree.GrowsTo goal := by
  induction steps generalizing p with
  | zero => omega
  | succ steps ih =>
      obtain ⟨loc, hr, -⟩ := id hfinds
      obtain ⟨hfault, -, -⟩ := (resolve_eq_ok_iff _ _ _).1 hr
      have htext := text_ne_nil_of_fault? hfault
      rw [Path.upwards, if_neg htext, makeLineage]
      rcases makeDirectory_toward_goal hgoal hstart hfinds with
        ⟨made, hmade⟩ | ⟨hmade, hdir⟩ | ⟨hmade, hnames, hwalk⟩
      · rw [hmade]
        exact ⟨rfl, (makeDirectory_ok hmade).2,
          growsTo_goal_of_makeDirectory hgoal hmade hfinds⟩
      · rw [hmade]
        dsimp only
        rw [if_pos hdir]
        exact ⟨rfl, hdir, hgoal⟩
      · rw [hmade]
        dsimp only
        rcases Path.names_of_parent hnames hstep with ⟨last, hone, -⟩
          | ⟨up, dots, last, hup, hne, hsplit, hdots⟩
        · rw [hone] at hwalk
          cases hwalk
        · rw [hup]
          dsimp only
          have hshorter := (Path.text_parent htext hup).2
          obtain ⟨hok, hdirUp, hgrow⟩ := ih (by omega)
            (Path.endsInStep_parent hup) (startOf_parent hup ▸ hstart)
            (finds_parent hfinds hup hne hsplit)
          rw [hok]
          dsimp only
          have hlow := sprouts_makeLineage tree (Path.upwards steps up)
          have hstart' := hlow.growsTo.isDirectoryAt hstart
          rw [← hlow.growsTo.startOf p] at hstart'
          obtain ⟨dir, hthere⟩ :=
            walk_dropLast_of_parent hdirUp hup hsplit hdots
          -- nothing is missing above it now, so it is made or is there
          rcases makeDirectory_toward_goal hgrow hstart' hfinds with
            ⟨made, hagain⟩ | ⟨hagain, hdir⟩ | ⟨-, -, hmissing⟩
          · rw [hagain]
            exact ⟨rfl, (makeDirectory_ok hagain).2,
              growsTo_goal_of_makeDirectory hgrow hagain hfinds⟩
          · rw [hagain]
            dsimp only
            rw [if_pos hdir]
            exact ⟨rfl, hdir, hgrow⟩
          · rw [hthere] at hmissing
            cases hmissing

-- ======================================================== where paths start

/-- A walk that misses a name has started in a directory. -/
theorem isDirectoryAt_of_walk_notFound {here : Loc} {names : List Text}
    (h : tree.walk here names = .error .notFound) :
    tree.isDirectoryAt here = true := by
  cases names with
  | nil => cases h
  | cons name rest =>
      cases hd : tree.isDirectoryAt here with
      | true => rfl
      | false =>
          unfold walk step at h
          rw [hd, if_pos (by decide)] at h
          cases h

/-- A path whose last name is looked up starts in a directory, and so does
one above whose last name something is missing. -/
theorem isDirectoryAt_startOf_of_target {p : Path}
    (h : (∃ dir name, tree.target p = .ok (.named dir name))
      ∨ p.text ≠ [] ∧ tree.target p = .error .notFound) :
    tree.isDirectoryAt (tree.startOf p) = true := by
  rcases h with ⟨dir, name, htarget⟩ | ⟨htext, htarget⟩
  · obtain ⟨-, -, hwalk, hdir, -⟩ :=
      (target_eq_named_iff tree p dir name).1 htarget
    exact isDirectoryAt_of_walk hwalk hdir
  · have hfault : p.fault? ≠ some .notFound := by
      unfold Path.fault?
      split
      · simp
      · split
        · simp
        · simp
    unfold target at htarget
    cases hf : p.fault? with
    | some fault =>
        rw [hf] at htarget
        cases htarget
        exact absurd hf hfault
    | none =>
        cases hlast : p.names.getLast? with
        | none =>
            rw [hf, hlast] at htarget
            cases htarget
        | some name =>
            rw [hf, hlast] at htarget
            dsimp only at htarget
            cases hw : tree.walk (tree.startOf p) p.names.dropLast with
            | error fault =>
                rw [hw] at htarget
                cases htarget
                exact isDirectoryAt_of_walk_notFound hw
            | ok dir =>
                rw [hw] at htarget
                dsimp only at htarget
                split at htarget
                · cases htarget
                · split at htarget <;> cases htarget

/-- A directory that could be made, with those above it, is on a path that
starts in one. -/
theorem isDirectoryAt_startOf_of_makeLineage {p : Path} {above : List Path}
    (htext : p.text ≠ [])
    (h : (tree.makeLineage (p :: above)).result = .ok ()) :
    tree.isDirectoryAt (tree.startOf p) = true := by
  by_cases hdir : tree.isDirectory p = true
  · obtain ⟨loc, hr, hat⟩ := (isDirectory_iff_finds tree p).1 hdir
    obtain ⟨-, hwalk, -⟩ := (resolve_eq_ok_iff _ _ _).1 hr
    exact isDirectoryAt_of_walk hwalk (beq_iff_eq.2 hat)
  · refine isDirectoryAt_startOf_of_target ?_
    unfold makeLineage makeDirectory at h
    cases htarget : tree.target p with
    | ok target =>
        cases target with
        | named dir name => exact .inl ⟨dir, name, rfl⟩
        | dots =>
            rw [htarget] at h
            dsimp only at h
            rw [if_neg hdir] at h
            cases h
    | error fault =>
        rw [htarget] at h
        cases fault with
        | notFound => exact .inr ⟨htext, rfl⟩
        | _ =>
            dsimp only at h
            rw [if_neg hdir] at h
            cases h

/-- Where no path starts in a directory, none is made. -/
theorem makeLineage_of_no_start {ps : List Path}
    (h : ∀ p ∈ ps, tree.isDirectoryAt (tree.startOf p) = false) :
    (tree.makeLineage ps).tree = tree := by
  induction ps with
  | nil => rfl
  | cons p above ih =>
      obtain ⟨hp, habove⟩ := List.forall_mem_cons.1 h
      have hnone : ∀ made, tree.makeDirectory p ≠ .ok made := by
        intro made hmade
        have hstart := isDirectoryAt_startOf_of_target
          (.inl (target_of_makeDirectory hmade))
        rw [hp] at hstart
        cases hstart
      rw [makeLineage]
      split
      · next made hmade => exact absurd hmade (hnone made)
      · dsimp only
        rw [ih habove]
        split
        · rfl
        · split
          · next made hmade => exact absurd hmade (hnone made)
          · split <;> rfl
      · split <;> rfl

theorem startOf_of_mem_directory {output q : Path}
    (h : q ∈ output.directory.lineage) :
    tree.startOf q = tree.startOf output := by
  obtain ⟨parent, hup, habs, -⟩ := Path.isPrefixOf_of_mem_directory h
  rw [← startOf_parent hup, startOf, habs, startOf]

/-- Preparing an output does not make the place where its path starts. -/
theorem isDirectoryAt_startOf_of_prepared {output : Path}
    (h : (tree.prepared output).tree.isDirectoryAt (tree.startOf output)
      = true) :
    tree.isDirectoryAt (tree.startOf output) = true := by
  cases hstart : tree.isDirectoryAt (tree.startOf output) with
  | true => rfl
  | false =>
      have hsame : (tree.prepared output).tree = tree :=
        makeLineage_of_no_start fun q hq => by
          rw [startOf_of_mem_directory hq, hstart]
      rw [hsame, hstart] at h
      cases h

-- ================================================================== room

/-- Whether there is room for a directory at a path: the path starts in a
directory, and the tree could grow so that the path leads to one. -/
def AdmitsDirectory (tree : FileTree) (p : Path) : Prop :=
  tree.isDirectoryAt (tree.startOf p) = true
    ∧ ∃ goal, tree.GrowsTo goal ∧ goal.Finds p .directory

/-- Whether there is room for a file at a path: the path starts in a
directory, and the tree could grow so that the path leads to a file. -/
def AdmitsFile (tree : FileTree) (p : Path) : Prop :=
  tree.isDirectoryAt (tree.startOf p) = true
    ∧ ∃ goal b, tree.GrowsTo goal ∧ goal.Finds p (.file b)

/-- A directory can be made, with those above it, if and only if there is
room for it. -/
theorem makeDirectories_ok_iff (tree : FileTree) {p : Path}
    (htext : p.text ≠ []) (hstep : p.EndsInStep) :
    (tree.makeDirectories p).result = .ok () ↔ tree.AdmitsDirectory p := by
  constructor
  · intro h
    have hgrow := (sprouts_makeLineage tree p.lineage).growsTo
    unfold makeDirectories Path.lineage at h
    unfold Path.lineage at hgrow
    rw [Path.upwards, if_neg htext] at h hgrow
    refine ⟨isDirectoryAt_startOf_of_makeLineage htext h, _, hgrow, ?_⟩
    rw [← isDirectory_iff_finds]
    exact isDirectory_makeLineage h
  · intro hroom
    obtain ⟨hstart, goal, hgoal, hfinds⟩ := hroom
    exact (makeLineage_toward_goal hgoal (Nat.lt_succ_self _) hstep hstart
      hfinds).1

/-- The making of directories is refused if and only if there is no room
for the last one. -/
theorem makeDirectories_refused_iff (tree : FileTree) {p : Path}
    (htext : p.text ≠ []) (hstep : p.EndsInStep) :
    (∃ fault, (tree.makeDirectories p).result = .error fault)
      ↔ ¬ tree.AdmitsDirectory p := by
  rw [← makeDirectories_ok_iff tree htext hstep]
  cases (tree.makeDirectories p).result with
  | ok _ => exact iff_of_false nofun fun hno => hno rfl
  | error fault => exact iff_of_true ⟨fault, rfl⟩ nofun

/-- Without a directory part nothing has to be made. -/
theorem prepared_of_text_nil {output : Path}
    (h : output.directory.text = []) :
    tree.prepared output = ⟨tree, .ok ()⟩ := by
  have hdir : output.directory = ⟨[]⟩ := by
    cases hd : output.directory
    rw [hd] at h
    cases h
    rfl
  unfold prepared makeDirectories
  rw [hdir, Path.lineage_empty]
  rfl

theorem prepared_ok_iff (tree : FileTree) (output : Path) :
    (tree.prepared output).result = .ok ()
      ↔ output.directory.text = []
        ∨ tree.AdmitsDirectory output.directory := by
  by_cases htext : output.directory.text = []
  · rw [prepared_of_text_nil htext]
    exact iff_of_true rfl (.inl htext)
  · unfold prepared
    rw [makeDirectories_ok_iff tree htext]
    · exact (or_iff_right htext).symm
    · exact Path.endsInStep_parent (Path.parent?_of_directory htext)

-- ================================================================= files

/-- A path to a file ends in the name of it. -/
theorem endsInStep_of_finds_file {p : Path} {b : ByteArray}
    (h : goal.Finds p (.file b)) : p.EndsInStep := by
  intro _ head body hp last hlast
  cases hinert : Path.isInert last with
  | false => rfl
  | true =>
      exfalso
      unfold Path.isInert at hinert
      rw [Bool.or_eq_true, beq_iff_eq, beq_iff_eq] at hinert
      rcases hinert with rfl | rfl
      · have hslash := Path.endsInSlash_of_pieces hp hlast
        rw [endsInSlash_of_finds_file h] at hslash
        cases hslash
      · have hname : p.names.getLast? = some dot := by
          obtain ⟨kept, rfl⟩ := List.getLast?_eq_some_iff.1 hlast
          rw [Path.names_eq hp, List.filter_append, ← List.append_assoc]
          exact List.getLast?_concat
        obtain ⟨dir, next, -, hstep, hat⟩ := last_step_of_finds h hname
        obtain ⟨hnext, hd, -⟩ := (step_eq_ok_iff _ _ _ _).1 hstep
        rw [advance, if_pos rfl] at hnext
        rw [isDirectoryAt, ← hnext, hat] at hd
        cases hd

/-- The directories of a file that the goal has can be made, and then the
names above the last one lead somewhere. -/
theorem prepared_toward_goal (hgoal : tree.GrowsTo goal) {output : Path}
    {b : ByteArray}
    (hstart : tree.isDirectoryAt (tree.startOf output) = true)
    (hfinds : goal.Finds output (.file b)) :
    (tree.prepared output).result = .ok ()
      ∧ (tree.prepared output).tree.GrowsTo goal
      ∧ ∃ dir, (tree.prepared output).tree.walk
          ((tree.prepared output).tree.startOf output) output.names.dropLast
        = .ok dir := by
  rcases Path.names_of_parent (names_ne_nil_of_finds_file hfinds)
    (endsInStep_of_finds_file hfinds) with ⟨last, hone, hdir⟩
    | ⟨up, dots, last, hup, hne, hsplit, hdots⟩
  · rw [prepared_of_text_nil (by rw [hdir]), hone]
    exact ⟨rfl, hgoal, _, rfl⟩
  · obtain ⟨hok, hthere, hgrow⟩ := makeLineage_toward_goal hgoal
      (Nat.lt_succ_self _) (Path.endsInStep_parent hup)
      (startOf_parent hup ▸ hstart) (finds_parent hfinds hup hne hsplit)
    unfold prepared makeDirectories Path.lineage
    rw [Path.directory_of_parent? hup]
    exact ⟨hok, hgrow, walk_dropLast_of_parent hthere hup hsplit hdots⟩

/-- Where a content can be stored after preparing, there is room for a
file, whatever came of preparing. -/
theorem admitsFile_of_store {output : Path} {content : ByteArray}
    {stored : FileTree}
    (h : (tree.prepared output).tree.store output content = .ok stored) :
    tree.AdmitsFile output := by
  obtain ⟨place, hr, hfills⟩ := store_ok h
  have hgrow := (sprouts_prepared tree output).growsTo
  refine ⟨?_, stored, content, hgrow.trans hfills.growsTo, place, hr, ?_⟩
  · have hstart := isDirectoryAt_startOf_of_target (.inl (target_of_store h))
    rw [hgrow.startOf] at hstart
    exact isDirectoryAt_startOf_of_prepared hstart
  · rw [hfills.at?_eq, if_pos rfl]

/-- Where there is room for a file, its directories can be made and any
content can then be stored. -/
theorem store_of_admitsFile {output : Path} (h : tree.AdmitsFile output)
    (content : ByteArray) :
    (tree.prepared output).result = .ok ()
      ∧ ∃ stored,
        (tree.prepared output).tree.store output content = .ok stored := by
  obtain ⟨hstart, goal, b, hgoal, hfinds⟩ := h
  obtain ⟨hok, hgrow, dir, hwalk⟩ := prepared_toward_goal hgoal hstart hfinds
  have hprep := (sprouts_prepared tree output).growsTo
  have hstart' := hprep.isDirectoryAt hstart
  rw [← hprep.startOf output] at hstart'
  exact ⟨hok, store_toward_goal hgrow hstart' hfinds hwalk content⟩

/-- No content can be stored, for one and the same reason, if and only if
there is no room for a file. -/
theorem store_refused_iff (tree : FileTree) (output : Path) :
    (∃ fault, ∀ content,
        (tree.prepared output).tree.store output content = .error fault)
      ↔ ¬ tree.AdmitsFile output := by
  constructor
  · intro hrefused hroom
    obtain ⟨fault, hfault⟩ := hrefused
    obtain ⟨-, stored, hstore⟩ := store_of_admitsFile hroom ByteArray.empty
    rw [hfault] at hstore
    cases hstore
  · intro hroom
    cases hstore :
        (tree.prepared output).tree.store output ByteArray.empty with
    | ok stored => exact absurd (admitsFile_of_store hstore) hroom
    | error fault => exact ⟨fault, store_error hstore⟩

/-- A file can be written if and only if there is room for it. -/
theorem write_ok_iff (tree : FileTree) (output : Path)
    (content : ByteArray) :
    (tree.write output content).result = .ok ()
      ↔ tree.AdmitsFile output := by
  rw [write_eq]
  constructor
  · intro h
    split at h
    · cases h
    · unfold writeInto at h
      cases hstore : (tree.prepared output).tree.store output content with
      | ok stored => exact admitsFile_of_store hstore
      | error fault =>
          rw [hstore] at h
          cases h
  · intro hroom
    obtain ⟨hok, stored, hstore⟩ := store_of_admitsFile hroom content
    rw [hok]
    dsimp only
    unfold writeInto
    rw [hstore]

end FileTree

end BraceLift
