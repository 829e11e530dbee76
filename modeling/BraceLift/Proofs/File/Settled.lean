/-
Making and writing what is there already.

A directory that is there is not made again: the refusal is that it
exists, and this one counts as success (`makeDirectory_of_isDirectory`).
Nor does a file change when it is given the content that it has. So if a
path leads to a file with this content, writing it there leaves the tree
exactly as it is (`write_of_finds`), in all its entries and in their
order: what is above the file must be a directory, since the path leads
through it.

A write that went well has left such a file (`finds_of_write`), and every
other file with the content it had (`finds_file_of_write`).
-/
import Mathlib.Data.List.Nodup
import BraceLift.Proofs.File.Room

namespace BraceLift.FileTree

variable {tree : FileTree} {output p : Path} {content : ByteArray}

-- =============================================================== contents

/-- A file that is given the content it has stays as it is, and so does
the whole tree. -/
theorem refill_eq_self {loc : Loc} (h : tree.at? loc = some (.file content)) :
    tree.refill loc content = tree := by
  have hmem : (loc, Entry.file content) ∈ tree.entries := by
    cases loc with
    | nil => cases h
    | cons name above =>
        obtain ⟨before, after, hentries, -⟩ := List.lookup_eq_some_iff.1 h
        rw [hentries]
        exact List.mem_append_right _ (List.mem_cons_self ..)
  have hsame : ∀ e ∈ tree.entries,
      (if e.1 = loc then (e.1, e.2.refill content) else e) = e := by
    intro e he
    split
    · next hloc =>
      -- no place occurs twice, so this is the entry of the file
      obtain rfl := List.inj_on_of_nodup_map tree.nodup he hmem hloc
      rfl
    · rfl
  refine FileTree.ext rfl ?_
  show refillEntries tree.entries loc content = tree.entries
  unfold refillEntries
  rw [List.map_congr_left hsame, List.map_id']

/-- The last name of a path that finds something is a dot or two, or leads
to it. -/
theorem target_of_finds {e : Entry} {name : Text} (h : tree.Finds p e)
    (hlast : p.names.getLast? = some name) :
    tree.target p = .ok .dots ∧ e = .directory
      ∨ ∃ dir, tree.target p = .ok (.named dir name)
        ∧ ¬ nameLimit < name.byteCount
        ∧ tree.at? (name :: dir) = some e := by
  obtain ⟨dir, next, hwalk, hstep, -⟩ := last_step_of_finds h hlast
  obtain ⟨-, hdir, -⟩ := (step_eq_ok_iff _ _ _ _).1 hstep
  have hstart := isDirectoryAt_of_walk hwalk hdir
  -- the tree is on the way to itself, and no name is missing
  rcases target_toward_goal (.refl tree) hstart h hlast with
    ⟨-, hmissing⟩ | ⟨htarget, hkind, -⟩ | hnamed
  · rw [hwalk] at hmissing
    cases hmissing
  · exact .inl ⟨htarget, hkind⟩
  · exact .inr hnamed

/-- Storing in a file the content that it has changes nothing. -/
theorem store_of_finds (h : tree.Finds output (.file content)) :
    tree.store output content = .ok tree := by
  have hslash := endsInSlash_of_finds_file h
  have hlast := List.getLast?_eq_some_getLast (names_ne_nil_of_finds_file h)
  rcases target_of_finds h hlast with ⟨-, hkind⟩
    | ⟨dir, htarget, hshort, hat⟩
  · cases hkind
  · unfold store
    rw [htarget]
    dsimp only
    rw [if_neg (by rw [hslash]; decide), if_neg hshort, hat]
    dsimp only
    rw [refill_eq_self hat]

-- ============================================================ directories

/-- A directory that is there is refused for being there. -/
theorem makeDirectory_of_isDirectory (h : tree.isDirectory p = true) :
    tree.makeDirectory p = .error .exists := by
  have hfinds := (isDirectory_iff_finds tree p).1 h
  unfold makeDirectory
  cases hlast : p.names.getLast? with
  | none =>
      obtain ⟨loc, hr, -⟩ := hfinds
      obtain ⟨hfault, -, -⟩ := (resolve_eq_ok_iff _ _ _).1 hr
      have htarget : tree.target p = .ok .dots := by
        unfold target
        rw [hfault, hlast]
      rw [htarget]
  | some name =>
      rcases target_of_finds hfinds hlast with ⟨htarget, -⟩
        | ⟨dir, htarget, hshort, hat⟩
      · rw [htarget]
      · rw [htarget]
        dsimp only
        rw [if_neg hshort, hat]

/-- A lineage whose end is there is not made again. -/
theorem makeLineage_of_isDirectory (h : tree.isDirectory p = true)
    (above : List Path) :
    tree.makeLineage (p :: above) = ⟨tree, .ok ()⟩ := by
  rw [makeLineage, makeDirectory_of_isDirectory h]
  dsimp only
  rw [if_pos h]

/-- The directories of an output that leads to a file are there. -/
theorem prepared_of_finds (h : tree.Finds output (.file content)) :
    tree.prepared output = ⟨tree, .ok ()⟩ := by
  rcases Path.names_of_parent (names_ne_nil_of_finds_file h)
    (endsInStep_of_finds_file h) with ⟨last, -, hdir⟩
    | ⟨up, dots, last, hup, hne, hnames, -⟩
  · exact prepared_of_text_nil (by rw [hdir])
  · have hthere := (isDirectory_iff_finds tree up).2
      (finds_parent h hup hne hnames)
    unfold prepared makeDirectories Path.lineage
    rw [Path.directory_of_parent? hup, Path.upwards, if_neg hne,
      makeLineage_of_isDirectory hthere]

-- ================================================================= writing

/-- Writing to a file the content that it has changes nothing. -/
theorem write_of_finds (h : tree.Finds output (.file content)) :
    tree.write output content = ⟨tree, .ok ()⟩ := by
  rw [write_eq, prepared_of_finds h]
  dsimp only
  unfold writeInto
  rw [store_of_finds h]

/-- Once it is written, the output leads to a file with the content. -/
theorem finds_of_write (h : (tree.write output content).result = .ok ()) :
    (tree.write output content).tree.Finds output (.file content) := by
  obtain ⟨-, place, hr, hfills⟩ := write_ok h
  refine ⟨place, hr, ?_⟩
  rw [hfills.at?_eq, if_pos rfl]

/-- A file that a path leads to is still led to, with its content, once
another one is written. -/
theorem finds_file_of_write {source : Path} {b : ByteArray}
    (h : (tree.write output content).result = .ok ())
    (hfinds : tree.Finds source (.file b))
    (hapart : (tree.write output content).tree.resolve output
      ≠ (tree.write output content).tree.resolve source) :
    (tree.write output content).tree.Finds source (.file b) := by
  obtain ⟨-, place, hr, hfills⟩ := write_ok h
  obtain ⟨loc, hsource, hat⟩ := hfinds
  have hprep := sprouts_prepared tree output
  have hthere := (hprep.growsTo.trans hfills.growsTo).resolve hsource
  refine ⟨loc, hthere, ?_⟩
  rw [hfills.at?_eq, if_neg]
  · exact (hprep.file_iff loc b).2 hat
  · rintro rfl
    exact hapart (hr.trans hthere.symm)

end BraceLift.FileTree
