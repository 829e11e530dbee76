/-
A job that is done again changes nothing.

The first run leaves the source as it was, unless the output leads to it;
so the second one reads the same lines and composes the same document. The
text of this document is what the output's file holds by now, and writing
what is there changes nothing (`FileTree.write_of_finds`), however the
output is spelled and whatever had to be made on the way to it. The second
run is therefore the first one over again, its records included
(`Layout.extractTo_again`), and the tree it starts from is the tree it
leaves.
-/
import BraceLift.Proofs.File.Settled
import BraceLift.Proofs.Job.Frame

namespace BraceLift

open FileTree

/-- A source is read as before once another file is written. -/
theorem FileTree.readLines_of_write {tree : FileTree} {source output : Path}
    {content : ByteArray} {lines : List Line}
    (hread : tree.readLines source = .ok lines)
    (h : (tree.write output content).result = .ok ())
    (hapart : (tree.write output content).tree.resolve output
      ≠ (tree.write output content).tree.resolve source) :
    (tree.write output content).tree.readLines source = .ok lines := by
  rcases tree.absent_or_finds source with habsent | ⟨e, hfinds⟩
  · rw [readLines_of_absent habsent] at hread
    cases hread
  · cases e with
    | directory =>
        rw [readLines_of_directory hfinds] at hread
        cases hread
    | file b =>
        rw [readLines_of_file hfinds] at hread
        rw [readLines_of_file (finds_file_of_write h hfinds hapart), hread]

/-- A write done again on the tree that it has left is the same one. -/
theorem FileTree.write_again {tree : FileTree} {output : Path}
    {content : ByteArray} (h : (tree.write output content).result = .ok ()) :
    (tree.write output content).tree.write output content
      = tree.write output content := by
  rw [write_of_finds (finds_of_write h), ← h]

/-- An extraction done again on the tree that it has left is the same
one, unless it writes to its source. -/
theorem Layout.extractTo_again {layout : Layout} {tree new : FileTree}
    {source output : Path} {document : Document}
    (h : (layout.extractTo tree source output).value
      = ⟨new, .ok document⟩)
    (hapart : new.resolve output ≠ new.resolve source) :
    layout.extractTo new source output
      = layout.extractTo tree source output := by
  obtain ⟨lines, hread, hcompose, hwrite, htree⟩ :=
    Layout.extractTo_ok (congrArg Outcome.result h)
  rw [h] at htree
  subst htree
  have hagain : (tree.writeText output document.text).tree.readLines source
      = .ok lines := readLines_of_write hread hwrite hapart
  have hsame : (tree.writeText output document.text).tree.writeText output
      document.text = tree.writeText output document.text :=
    write_again hwrite
  rw [extractTo_eq hagain hcompose, extractTo_eq hread hcompose, hsame]

/-- A job that goes well and does not write to its source goes well again
on the tree that it leaves. It gives the same document, leaves the same
tree and tells the same in the log. -/
theorem Job.run_again {job : Job} {tree : FileTree} {document : Document}
    (h : (job.run tree).value.result = .ok document)
    (hapart : (job.run tree).value.tree.resolve job.output
      ≠ (job.run tree).value.tree.resolve job.source) :
    (job.run (job.run tree).value.tree).value.result = .ok document
      ∧ (job.run (job.run tree).value.tree).value.tree
        = (job.run tree).value.tree
      ∧ (job.run (job.run tree).value.tree).records
        = (job.run tree).records := by
  have hresult := Job.run_eq_ok_iff.1 h
  have hsame : job.run (job.run tree).value.tree = job.run tree := by
    rw [Job.value_run] at hapart ⊢
    unfold run
    rw [Layout.extractTo_again (by rw [← hresult]) hapart]
  rw [hsame]
  exact ⟨h, rfl, rfl⟩

/-- A job whose output goes through a directory that its first run has to
make. -/
def Job.roundabout : Job :=
  { Job.standard with
    source := .ofString "s"
    output := .ofString "d/../o"
    functionAnchor := "fn f".toList }

/-- The directory is made once, and the second run finds all as it is. -/
theorem Job.run_roundabout :
    oneLiner.at? ["d".toList] = none
      ∧ (∃ document,
        (Job.roundabout.run oneLiner).value.result = .ok document
          ∧ (Job.roundabout.run
              (Job.roundabout.run oneLiner).value.tree).value.result
            = .ok document)
      ∧ (Job.roundabout.run oneLiner).value.tree.resolve
          Job.roundabout.output
        ≠ (Job.roundabout.run oneLiner).value.tree.resolve
          Job.roundabout.source
      ∧ (Job.roundabout.run
            (Job.roundabout.run oneLiner).value.tree).value.tree
        = (Job.roundabout.run oneLiner).value.tree := by
  have hruns : (Job.roundabout.run oneLiner).value.result
      = .ok ((Layout.ofJob Job.roundabout).document .closed
          ["pub fn f {}\n".toList] []) := rfl
  have houtput : (Job.roundabout.run oneLiner).value.tree.resolve
      Job.roundabout.output = .ok ["o".toList] := rfl
  have hsource : (Job.roundabout.run oneLiner).value.tree.resolve
      Job.roundabout.source = .ok ["s".toList] := rfl
  have hapart : (Job.roundabout.run oneLiner).value.tree.resolve
        Job.roundabout.output
      ≠ (Job.roundabout.run oneLiner).value.tree.resolve
        Job.roundabout.source := by
    rw [houtput, hsource]
    simp
  obtain ⟨hagain, htree, -⟩ := Job.run_again hruns hapart
  exact ⟨rfl, ⟨_, hruns, hagain⟩, hapart, htree⟩

end BraceLift
