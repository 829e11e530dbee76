/-
What making directories and writing a file do to a tree.

Two relations say it all. `Sprouts` holds of trees that differ by new
directories only, each at a place with a given property; `Fills` holds of
trees that differ in one file. Making directories is of the first kind
whether it succeeds or not (`sprouts_makeDirectories`), and the places
are those that the path and the paths above it lead to afterwards.
Writing is directories first and one file after them (`write_ok`); a
write that fails has made directories at most (`write_error`).

Both relations are growths, so a path that led somewhere along the way
still leads there at the end: this is what lets the places of the new
directories be named in the final tree.
-/
import BraceLift.Job.Run
import BraceLift.Proofs.File.Growth
import BraceLift.Proofs.File.Lineage

namespace BraceLift

namespace FileTree

-- ============================================================= relations

/-- Whether trees differ by new directories only, each at a place of
which `P` holds. -/
structure Sprouts (old new : FileTree) (P : Loc → Prop) : Prop where
  home : new.home = old.home
  at?_eq : ∀ loc, new.at? loc = old.at? loc
    ∨ old.at? loc = none ∧ new.at? loc = some .directory ∧ P loc

/-- Whether trees differ in one place only, which holds a file with this
content in the new one and no directory in the old. -/
structure Fills (old new : FileTree) (place : Loc) (content : ByteArray) :
    Prop where
  home : new.home = old.home
  at?_eq : ∀ loc, new.at? loc
    = if loc = place then some (.file content) else old.at? loc
  no_directory : old.at? place ≠ some .directory

namespace Sprouts

variable {old mid new : FileTree} {P Q : Loc → Prop}

theorem refl (tree : FileTree) (P : Loc → Prop) : tree.Sprouts tree P :=
  ⟨rfl, fun _ => .inl rfl⟩

theorem mono (h : old.Sprouts new P) (hPQ : ∀ loc, P loc → Q loc) :
    old.Sprouts new Q := by
  refine ⟨h.home, fun loc => ?_⟩
  rcases h.at?_eq loc with hsame | ⟨hfree, hdir, hP⟩
  · exact .inl hsame
  · exact .inr ⟨hfree, hdir, hPQ loc hP⟩

theorem trans (h : old.Sprouts mid P) (h' : mid.Sprouts new P) :
    old.Sprouts new P := by
  refine ⟨h'.home.trans h.home, fun loc => ?_⟩
  rcases h'.at?_eq loc with hsame | ⟨hfree, hdir, hP⟩
  · rw [hsame]
    exact h.at?_eq loc
  · rcases h.at?_eq loc with hsame | ⟨-, hdir', -⟩
    · exact .inr ⟨hsame ▸ hfree, hdir, hP⟩
    · rw [hdir'] at hfree
      cases hfree

theorem growsTo (h : old.Sprouts new P) : old.GrowsTo new := by
  refine ⟨h.home, fun loc hd => ?_, fun loc b hf => ?_⟩
  · rcases h.at?_eq loc with hsame | ⟨-, hdir, -⟩
    · rw [hsame, hd]
    · exact hdir
  · rcases h.at?_eq loc with hsame | ⟨hfree, -, -⟩
    · exact ⟨b, hsame ▸ hf⟩
    · rw [hf] at hfree
      cases hfree

/-- The files are the same ones, with the same contents. -/
theorem file_iff (h : old.Sprouts new P) (loc : Loc) (b : ByteArray) :
    new.at? loc = some (.file b) ↔ old.at? loc = some (.file b) := by
  rcases h.at?_eq loc with hsame | ⟨hfree, hdir, -⟩
  · rw [hsame]
  · simp [hfree, hdir]

end Sprouts

theorem Fills.growsTo {old new : FileTree} {place : Loc} {b : ByteArray}
    (h : old.Fills new place b) : old.GrowsTo new := by
  refine ⟨h.home, fun loc hd => ?_, fun loc b' hf => ?_⟩
  · rw [h.at?_eq, if_neg]
    · exact hd
    · intro heq
      subst heq
      exact h.no_directory hd
  · rw [h.at?_eq]
    split
    · exact ⟨b, rfl⟩
    · exact ⟨b', hf⟩

-- ====================================================== one name in a place

/-- What a path asks for whose last name may still be free. -/
theorem target_eq_named_iff (tree : FileTree) (p : Path) (dir : Loc)
    (name : Text) :
    tree.target p = .ok (.named dir name)
      ↔ p.fault? = none ∧ p.names.getLast? = some name
        ∧ tree.walk (tree.startOf p) p.names.dropLast = .ok dir
        ∧ tree.isDirectoryAt dir = true ∧ name ≠ dot ∧ name ≠ dotDot := by
  unfold target
  cases hf : p.fault? with
  | some fault => simp
  | none =>
      cases hn : p.names.getLast? with
      | none => simp
      | some last =>
          cases hw : tree.walk (tree.startOf p) p.names.dropLast with
          | error fault => simp
          | ok there =>
              dsimp only
              cases hd : tree.isDirectoryAt there with
              | false =>
                  rw [if_pos (by decide)]
                  constructor
                  · intro h
                    cases h
                  · intro hall
                    obtain ⟨-, -, hthere, hdir, -⟩ := hall
                    cases hthere
                    rw [hd] at hdir
                    cases hdir
              | true =>
                  rw [if_neg (by decide)]
                  by_cases hdots : last = dot ∨ last = dotDot
                  · rw [if_pos hdots]
                    constructor
                    · intro h
                      cases h
                    · intro hall
                      obtain ⟨-, hlast, -, -, h1, h2⟩ := hall
                      cases hlast
                      exact absurd hdots (not_or.2 ⟨h1, h2⟩)
                  · rw [if_neg hdots]
                    constructor
                    · intro h
                      cases h
                      exact ⟨rfl, rfl, rfl, hd, not_or.1 hdots⟩
                    · intro hall
                      obtain ⟨-, hlast, hthere, -⟩ := hall
                      cases hlast
                      cases hthere
                      rfl

/-- Once something is there under its last name, a path leads to it. -/
theorem resolve_of_target {tree new : FileTree} {p : Path} {dir : Loc}
    {name : Text} {e : Entry} (hgrow : tree.GrowsTo new)
    (htarget : tree.target p = .ok (.named dir name))
    (hshort : ¬ nameLimit < name.byteCount)
    (hat : new.at? (name :: dir) = some e)
    (hslash : p.endsInSlash = true → e = .directory) :
    new.resolve p = .ok (name :: dir) := by
  obtain ⟨hfault, hlast, hwalk, hdir, hdot, hdots⟩ :=
    (target_eq_named_iff tree p dir name).1 htarget
  have hnames : p.names = p.names.dropLast ++ [name] := by
    obtain ⟨above, happ⟩ := List.getLast?_eq_some_iff.1 hlast
    rw [happ, List.dropLast_concat]
  have hstep : new.step dir name = .ok (name :: dir) := by
    rw [step_eq_ok_iff]
    refine ⟨?_, hgrow.isDirectoryAt hdir, .inr (.inr ⟨by omega, e, hat⟩)⟩
    rw [advance, if_neg hdot, if_neg hdots]
  rw [resolve_eq_ok_iff]
  refine ⟨hfault, ?_, fun hs => ?_⟩
  · rw [hnames, walk_concat_eq_ok_iff, hgrow.startOf]
    exact ⟨dir, hgrow.walk hwalk, hstep⟩
  · rw [isDirectoryAt, hat, hslash hs]
    rfl

-- =========================================================== single steps

/-- A directory is made, and a content stored, only under a name in a
directory. -/
theorem target_of_makeDirectory {tree made : FileTree} {p : Path}
    (h : tree.makeDirectory p = .ok made) :
    ∃ dir name, tree.target p = .ok (.named dir name) := by
  unfold makeDirectory at h
  cases htarget : tree.target p with
  | error fault =>
      rw [htarget] at h
      cases h
  | ok target =>
      cases target with
      | dots =>
          rw [htarget] at h
          cases h
      | named dir name => exact ⟨dir, name, rfl⟩

theorem target_of_store {tree stored : FileTree} {p : Path}
    {content : ByteArray} (h : tree.store p content = .ok stored) :
    ∃ dir name, tree.target p = .ok (.named dir name) := by
  unfold store at h
  cases htarget : tree.target p with
  | error fault =>
      rw [htarget] at h
      cases h
  | ok target =>
      cases target with
      | dots =>
          rw [htarget] at h
          cases h
      | named dir name => exact ⟨dir, name, rfl⟩

/-- Making a directory, where it succeeds, adds it and nothing else, and
the path leads to it. -/
theorem makeDirectory_ok {tree new : FileTree} {p : Path}
    (h : tree.makeDirectory p = .ok new) :
    tree.Sprouts new (fun loc => new.resolve p = .ok loc)
      ∧ new.isDirectory p = true := by
  obtain ⟨dir, name, ht⟩ := target_of_makeDirectory h
  unfold makeDirectory at h
  rw [ht] at h
  dsimp only at h
  split at h
  · cases h
  · next hshort =>
    cases hfree : tree.at? (name :: dir) with
    | some e =>
        rw [hfree] at h
        cases h
    | none =>
        rw [hfree] at h
        cases h
        obtain ⟨-, -, -, hdir, -⟩ :=
          (target_eq_named_iff tree p dir name).1 ht
        have hat := at?_add .directory (beq_iff_eq.1 hdir) hfree
        have hnew : (tree.add dir name .directory).at? (name :: dir)
            = some .directory := by
          rw [hat, if_pos rfl]
        have hsprout : tree.Sprouts (tree.add dir name .directory)
            (fun loc => loc = name :: dir) := by
          refine ⟨home_add .., fun loc => ?_⟩
          by_cases hloc : loc = name :: dir
          · subst hloc
            exact .inr ⟨hfree, hnew, rfl⟩
          · exact .inl (by rw [hat, if_neg hloc])
        have hres := resolve_of_target hsprout.growsTo ht hshort hnew
          fun _ => rfl
        refine ⟨hsprout.mono fun loc hloc => hloc ▸ hres, ?_⟩
        rw [isDirectory, hres]
        exact beq_iff_eq.2 hnew

/-- Storing a content, where it succeeds, fills one file, and the path
leads to it. -/
theorem store_ok {tree new : FileTree} {p : Path} {content : ByteArray}
    (h : tree.store p content = .ok new) :
    ∃ place, new.resolve p = .ok place ∧ tree.Fills new place content := by
  obtain ⟨dir, name, ht⟩ := target_of_store h
  unfold store at h
  rw [ht] at h
  dsimp only at h
  split at h
  · cases h
  · next hslash =>
    split at h
    · cases h
    · next hshort =>
      obtain ⟨-, -, -, hdir, -⟩ :=
        (target_eq_named_iff tree p dir name).1 ht
      have hfills : tree.Fills new (name :: dir) content := by
        cases hat : tree.at? (name :: dir) with
        | none =>
            rw [hat] at h
            cases h
            refine ⟨home_add .., fun loc => ?_, by simp [hat]⟩
            rw [at?_add _ (beq_iff_eq.1 hdir) hat]
        | some e =>
            rw [hat] at h
            cases e with
            | directory => cases h
            | file b =>
                cases h
                refine ⟨home_refill .., fun loc => ?_, by simp [hat]⟩
                rw [at?_refill]
                split
                · next hloc =>
                  rw [hloc, hat]
                  rfl
                · rfl
      refine ⟨name :: dir, ?_, hfills⟩
      refine resolve_of_target hfills.growsTo ht hshort
        (e := .file content) ?_ fun hs => absurd hs hslash
      rw [hfills.at?_eq, if_pos rfl]

/-- A refusal to store does not depend on the content. -/
theorem store_error {tree : FileTree} {p : Path} {content : ByteArray}
    {fault : Fault} (h : tree.store p content = .error fault)
    (other : ByteArray) : tree.store p other = .error fault := by
  unfold store at h ⊢
  cases htarget : tree.target p with
  | error fault' =>
      rw [htarget] at h
      exact h
  | ok target =>
      rw [htarget] at h
      cases target with
      | dots => exact h
      | named dir name =>
          dsimp only at h ⊢
          split at h
          · next hslash =>
            rw [if_pos hslash]
            exact h
          · next hslash =>
            rw [if_neg hslash]
            split at h
            · next hlong =>
              rw [if_pos hlong]
              exact h
            · next hlong =>
              rw [if_neg hlong]
              cases hat : tree.at? (name :: dir) with
              | none =>
                  rw [hat] at h
                  cases h
              | some e =>
                  rw [hat] at h
                  cases e with
                  | directory => exact h
                  | file b => cases h

-- ========================================================== directories

/-- Whether a place is where one of some paths leads. -/
def LedTo (tree : FileTree) (ps : List Path) (loc : Loc) : Prop :=
  ∃ q ∈ ps, tree.resolve q = .ok loc

theorem LedTo.grow {old new : FileTree} (h : old.GrowsTo new)
    {ps : List Path} {loc : Loc} (hled : old.LedTo ps loc) :
    new.LedTo ps loc := by
  obtain ⟨q, hq, hres⟩ := hled
  exact ⟨q, hq, h.resolve hres⟩

theorem LedTo.cons {tree : FileTree} {ps : List Path} {loc : Loc} (p : Path)
    (hled : tree.LedTo ps loc) : tree.LedTo (p :: ps) loc := by
  obtain ⟨q, hq, hres⟩ := hled
  exact ⟨q, List.mem_cons_of_mem _ hq, hres⟩

/-- Whatever comes of it, making a lineage adds directories only, each
where one of its paths leads afterwards. -/
theorem sprouts_makeLineage (tree : FileTree) (ps : List Path) :
    tree.Sprouts (tree.makeLineage ps).tree
      ((tree.makeLineage ps).tree.LedTo ps) := by
  induction ps with
  | nil => exact .refl tree _
  | cons p above ih =>
      have hlower : tree.Sprouts (tree.makeLineage above).tree
          ((tree.makeLineage above).tree.LedTo (p :: above)) :=
        ih.mono fun loc => LedTo.cons p
      rw [makeLineage]
      split
      · next made hmade =>
        exact (makeDirectory_ok hmade).1.mono fun loc hres =>
          ⟨p, List.mem_cons_self .., hres⟩
      · dsimp only
        split
        · exact hlower
        · split
          · next made hmade =>
            obtain ⟨hsprout, -⟩ := makeDirectory_ok hmade
            have hled : (tree.makeLineage above).tree.Sprouts made
                (made.LedTo (p :: above)) :=
              hsprout.mono fun loc hres => ⟨p, List.mem_cons_self .., hres⟩
            exact (hlower.mono fun loc => LedTo.grow hsprout.growsTo).trans
              hled
          · split
            · exact hlower
            · exact hlower
      · split
        · exact .refl tree _
        · exact .refl tree _

/-- A lineage that could be made ends in a directory. -/
theorem isDirectory_makeLineage {tree : FileTree} {p : Path}
    {above : List Path} (h : (tree.makeLineage (p :: above)).result = .ok ()) :
    (tree.makeLineage (p :: above)).tree.isDirectory p = true := by
  rw [makeLineage] at h ⊢
  split
  · next made hmade => exact (makeDirectory_ok hmade).2
  · next hmade =>
    rw [hmade] at h
    dsimp only at h ⊢
    split
    · next fault hlower =>
      rw [hlower] at h
      cases h
    · next hlower =>
      rw [hlower] at h
      dsimp only at h
      split
      · next made hmade' => exact (makeDirectory_ok hmade').2
      · next fault hmade' =>
        rw [hmade'] at h
        dsimp only at h
        split
        · next hdir => exact hdir
        · next hdir =>
          rw [if_neg hdir] at h
          cases h
  · next fault hother hmade =>
    split
    · next hdir => exact hdir
    · next hdir =>
      rw [hmade] at h
      cases fault with
      | notFound => exact absurd rfl hother
      | _ =>
          dsimp only at h
          rw [if_neg hdir] at h
          cases h

-- ============================================================== the write

/-- The tree with the directories that an output needs, as far as they
could be made. -/
def prepared (tree : FileTree) (output : Path) : Outcome Fault Unit :=
  tree.makeDirectories output.directory

/-- A write prepares the directories and then stores the content. -/
theorem write_eq (tree : FileTree) (output : Path) (content : ByteArray) :
    tree.write output content
      = match (tree.prepared output).result with
        | .error fault =>
            ⟨(tree.prepared output).tree,
              .error (.directoryRefused output.directory fault)⟩
        | .ok () => (tree.prepared output).tree.writeInto output content := by
  unfold write prepared Path.directory
  cases output.parent? with
  | none => rfl
  | some directory =>
      dsimp only [Option.getD_some]
      split
      · next hempty =>
        have hdir : directory = ⟨[]⟩ := by
          cases directory
          cases hempty
          rfl
        rw [hdir]
        rfl
      · rfl

/-- Preparing adds directories only, each where a path above the output
leads afterwards. -/
theorem sprouts_prepared (tree : FileTree) (output : Path) :
    tree.Sprouts (tree.prepared output).tree
      ((tree.prepared output).tree.LedTo output.directory.lineage) :=
  sprouts_makeLineage tree _

/-- A write that succeeds has prepared the directories and then filled
the one file that the output leads to. -/
theorem write_ok {tree : FileTree} {output : Path} {content : ByteArray}
    (h : (tree.write output content).result = .ok ()) :
    (tree.prepared output).result = .ok ()
      ∧ ∃ place,
        (tree.write output content).tree.resolve output = .ok place
          ∧ (tree.prepared output).tree.Fills
              (tree.write output content).tree place content := by
  rw [write_eq] at h ⊢
  cases hmade : (tree.prepared output).result with
  | error fault =>
      rw [hmade] at h
      cases h
  | ok _ =>
      rw [hmade] at h
      dsimp only at h ⊢
      unfold writeInto at h ⊢
      cases hstore : (tree.prepared output).tree.store output content with
      | error fault =>
          rw [hstore] at h
          cases h
      | ok written => exact ⟨rfl, store_ok hstore⟩

/-- A write that fails has prepared directories at most, and names what
was refused: the directory part or the output itself. -/
theorem write_error {tree : FileTree} {output : Path} {content : ByteArray}
    {failure : Failure}
    (h : (tree.write output content).result = .error failure) :
    (tree.write output content).tree = (tree.prepared output).tree
      ∧ ((∃ fault, (tree.prepared output).result = .error fault
          ∧ failure = .directoryRefused output.directory fault)
        ∨ (∃ fault, (tree.prepared output).result = .ok ()
          ∧ (tree.prepared output).tree.store output content = .error fault
          ∧ failure = .outputRefused output fault)) := by
  rw [write_eq] at h ⊢
  cases hmade : (tree.prepared output).result with
  | error fault =>
      rw [hmade] at h
      cases h
      exact ⟨rfl, .inl ⟨fault, rfl, rfl⟩⟩
  | ok _ =>
      rw [hmade] at h
      dsimp only at h ⊢
      unfold writeInto at h ⊢
      cases hstore : (tree.prepared output).tree.store output content with
      | error fault =>
          rw [hstore] at h
          cases h
          exact ⟨rfl, .inr ⟨fault, rfl, rfl, rfl⟩⟩
      | ok written =>
          rw [hstore] at h
          cases h

end FileTree

end BraceLift
