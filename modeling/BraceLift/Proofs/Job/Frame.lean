/-
A failure leaves the files alone.

What a failed extraction or job does to the tree depends on where it
failed. Up to the finished document nothing is written, so the tree is
the old one. After it the output's directories are prepared, and one that
is refused midway leaves those above it behind: `OnlyNewDirectories` says
exactly what may then be new. No file is, and what is new hangs together,
because a place that was free had nothing below it either.
-/
import BraceLift.Proofs.Job.Stages

namespace BraceLift

/-- Whether a failure is one of the output: its directory or the output
itself was refused. -/
def Failure.isOfOutput : Failure → Bool
  | .directoryRefused .. | .outputRefused .. => true
  | .job _ cause => cause.isOfOutput
  | _ => false

namespace FileTree

/-- Whether trees differ, if at all, by directories that are new: each
where a prefix of the output's parent leads, and with nothing in it but
new directories. -/
structure OnlyNewDirectories (old new : FileTree) (output : Path) :
    Prop where
  home : new.home = old.home
  kept : ∀ loc e, old.at? loc = some e → new.at? loc = some e
  file_iff : ∀ loc b,
    new.at? loc = some (.file b) ↔ old.at? loc = some (.file b)
  place : ∀ loc e, old.at? loc = none → new.at? loc = some e →
    e = .directory ∧ ∃ parent q, output.parent? = some parent
      ∧ q.IsPrefixOf parent ∧ new.resolve q = .ok loc
  inside : ∀ loc name e, old.at? loc = none →
    new.at? (name :: loc) = some e →
    e = .directory ∧ old.at? (name :: loc) = none

/-- Preparing an output adds such directories at most. -/
theorem onlyNewDirectories_prepared (tree : FileTree) (output : Path) :
    tree.OnlyNewDirectories (tree.prepared output).tree output := by
  have hsprouts := sprouts_prepared tree output
  refine ⟨hsprouts.home, ?_, hsprouts.file_iff, ?_, ?_⟩
  · intro loc e he
    rcases hsprouts.at?_eq loc with hsame | ⟨hfree, -, -⟩
    · rw [hsame, he]
    · rw [he] at hfree
      cases hfree
  · intro loc e hfree he
    rcases hsprouts.at?_eq loc with hsame | ⟨-, hdir, q, hq, hr⟩
    · rw [hsame, hfree] at he
      cases he
    · obtain ⟨parent, hparent, hprefix⟩ := Path.isPrefixOf_of_mem_directory hq
      rw [hdir] at he
      cases he
      exact ⟨rfl, parent, q, hparent, hprefix, hr⟩
  · intro loc name e hfree he
    have hbelow : tree.at? (name :: loc) = none := by
      cases hold : tree.at? (name :: loc) with
      | none => rfl
      | some e' =>
          have hdir := at?_tail hold
          rw [List.tail_cons, hfree] at hdir
          cases hdir
    rcases hsprouts.at?_eq (name :: loc) with hsame | ⟨-, hdir, -⟩
    · rw [hsame, hbelow] at he
      cases he
    · rw [hdir] at he
      cases he
      exact ⟨rfl, hbelow⟩

end FileTree

-- ================================================ failures and their frame

/-- The failures of reading are none of the output. -/
theorem FileTree.isOfOutput_of_readLines {tree : FileTree} {source : Path}
    {failure : Failure} (h : tree.readLines source = .error failure) :
    failure.isOfOutput = false := by
  rcases tree.absent_or_finds source with habsent | ⟨e, hfinds⟩
  · rw [readLines_of_absent habsent] at h
    cases h
    rfl
  · cases e with
    | directory =>
        rw [readLines_of_directory hfinds] at h
        cases h
        rfl
    | file b =>
        rw [readLines_of_file hfinds] at h
        split at h
        · cases h
          rfl
        · cases h

namespace Layout

variable {layout : Layout} {tree : FileTree} {source output : Path}

/-- A failure is one of the output if and only if the document was
finished; if it is none, the tree is the old one, and if it is one, only
directories are new. -/
theorem extractTo_frame {failure : Failure}
    (h : (layout.extractTo tree source output).value.result
      = .error failure) :
    (failure.isOfOutput = true
        ↔ ∃ lines document, tree.readLines source = .ok lines
          ∧ (layout.compose lines).value = .ok document)
      ∧ (failure.isOfOutput = false →
          (layout.extractTo tree source output).value.tree = tree)
      ∧ (failure.isOfOutput = true →
          tree.OnlyNewDirectories
            (layout.extractTo tree source output).value.tree output) := by
  rcases extractTo_error h with ⟨hread, htree⟩
    | ⟨lines, cause, hread, hcompose, rfl, htree⟩
    | ⟨lines, document, hread, hcompose, hwrite, htree⟩
  · have hkind := FileTree.isOfOutput_of_readLines hread
    rw [hkind, hread]
    exact ⟨by simp, fun _ => htree, fun h => (by cases h)⟩
  · refine ⟨?_, fun _ => htree, fun h => (by cases h)⟩
    rw [hread]
    constructor
    · intro h
      cases h
    · intro hall
      obtain ⟨lines', document, heq, hok⟩ := hall
      cases heq
      rw [hcompose] at hok
      cases hok
  · obtain ⟨hprep, hwhich⟩ := FileTree.write_error hwrite
    have hkind : failure.isOfOutput = true := by
      rcases hwhich with ⟨fault, -, rfl⟩ | ⟨fault, -, -, rfl⟩ <;> rfl
    rw [hkind]
    refine ⟨iff_of_true rfl ⟨lines, document, hread, hcompose⟩,
      fun h => (by cases h), fun _ => ?_⟩
    rw [htree]
    show tree.OnlyNewDirectories
      (tree.write output document.text.bytes).tree output
    rw [hprep]
    exact tree.onlyNewDirectories_prepared output

end Layout

-- ============================================================= the frame

/-- When an extraction or a job fails before its document is finished,
the tree is the old one; when its output is refused, no file is new, gone
or changed, and every new directory is where a prefix of the output's
parent leads. -/
theorem failure_leaves_files :
    (∀ (layout : Layout) tree source output failure,
      (layout.extractTo tree source output).value.result
          = .error failure →
      (failure.isOfOutput = true
          ↔ ∃ lines document, tree.readLines source = .ok lines
            ∧ (layout.compose lines).value = .ok document)
        ∧ (failure.isOfOutput = false →
            (layout.extractTo tree source output).value.tree = tree)
        ∧ (failure.isOfOutput = true →
            tree.OnlyNewDirectories
              (layout.extractTo tree source output).value.tree output))
      ∧ ∀ (job : Job) tree failure,
        (job.run tree).value.result = .error failure →
        (failure.isOfOutput = true
            ↔ ∃ lines document, tree.readLines job.source = .ok lines
              ∧ ((Layout.ofJob job).compose lines).value = .ok document)
          ∧ (failure.isOfOutput = false → (job.run tree).value.tree = tree)
          ∧ (failure.isOfOutput = true →
              tree.OnlyNewDirectories (job.run tree).value.tree
                job.output) := by
  refine ⟨fun layout tree source output failure h =>
    Layout.extractTo_frame h, ?_⟩
  intro job tree failure h
  rw [Job.value_run] at h ⊢
  cases hresult : ((Layout.ofJob job).extractTo tree job.source
      job.output).value.result with
  | ok document =>
      rw [hresult] at h
      cases h
  | error cause =>
      rw [hresult] at h
      cases h
      have hframe := Layout.extractTo_frame hresult
      exact hframe

/-- A tree that holds a source of one line. -/
def oneLiner : FileTree :=
  FileTree.empty.add [] "s".toList
    (.file (Text.bytes "fn f {}\n".toList))

/-- A job whose output ends in a slash, which is refused only after the
directory above it is made. -/
def Job.slashed : Job :=
  { Job.standard with
    source := .ofString "s"
    output := .ofString "d/e/"
    functionAnchor := "fn f".toList }

/-- The directory stays, and nothing but directories is new. -/
theorem failure_leaves_directory :
    (Job.slashed.run oneLiner).value.result
        = .error (.job Job.slashed.source
            (.outputRefused Job.slashed.output .isDirectory))
      ∧ (Job.slashed.run oneLiner).value.tree.at? ["d".toList]
        = some .directory
      ∧ oneLiner.OnlyNewDirectories (Job.slashed.run oneLiner).value.tree
          Job.slashed.output := by
  have hfails : (Job.slashed.run oneLiner).value.result
      = .error (.job Job.slashed.source
          (.outputRefused Job.slashed.output .isDirectory)) := rfl
  refine ⟨hfails, rfl, ?_⟩
  exact (failure_leaves_files.2 Job.slashed oneLiner _ hfails).2.2 rfl

end BraceLift
