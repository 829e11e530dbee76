/-
What an invocation comes to: its exit status, its output and its files.

There are four ways for it to end, decided by how the arguments are read
and how the job goes (`invoke_outcome`). Only one of them reports that a
document was written, and it is the one in which the document is there:
the text is found where the output leads (`Job.run_writes`). When a job
fails, no file is another than before (`Job.run_leaves_files`), and where
no job is carried out, nothing is touched at all.
-/
import BraceLift.Invocation
import BraceLift.Proofs.CommandLine.Reading
import BraceLift.Proofs.Job.Frame

namespace BraceLift

-- ========================================================= a job's effects

namespace Job

variable {job : Job} {tree : FileTree}

/-- After a job that goes well, its output leads to a file with the text
of the document. -/
theorem run_writes {document : Document}
    (h : (job.run tree).value.result = .ok document) :
    (job.run tree).value.tree.Finds job.output
      (.file document.text.bytes) := by
  obtain ⟨lines, -, -, hwrite, htree⟩ :=
    Layout.extractTo_ok (run_eq_ok_iff.1 h)
  obtain ⟨-, place, hplace, hfills⟩ := FileTree.write_ok hwrite
  rw [value_run, htree]
  refine ⟨place, hplace, ?_⟩
  rw [FileTree.writeText, hfills.at?_eq, if_pos rfl]

/-- After a job that fails, every file is as before. -/
theorem run_leaves_files {failure : Failure}
    (h : (job.run tree).value.result = .error failure) (loc : Loc)
    (b : ByteArray) :
    (job.run tree).value.tree.at? loc = some (.file b)
      ↔ tree.at? loc = some (.file b) := by
  obtain ⟨cause, hresult, -⟩ := run_eq_error_iff.1 h
  obtain ⟨-, hbefore, hafter⟩ := Layout.extractTo_frame hresult
  rw [value_run]
  cases hkind : cause.isOfOutput with
  | false => rw [hbefore hkind]
  | true => exact (hafter hkind).file_iff loc b

end Job

namespace Invocation

-- ========================================================= what is printed

/-- Lines as they are printed. -/
def printed (lines : List Text) : Text :=
  (lines.map (· ++ ['\n'])).flatten

/-- What is said of a job before it is carried out: a line for the block,
and one for the region after it if there is to be one. -/
def announced (job : Job) : List Text :=
  ["[*] Extracting ".toList ++ job.functionAnchor ++ "...".toList]
    ++ (job.tailAnchor.map fun anchor =>
      "[*] Extracting ".toList ++ anchor
        ++ " and everything after it...".toList).toList

/-- What is said of a document once it is written. -/
def confirmed (job : Job) (document : Document) : List Text :=
  ["[*] Captured ".toList ++ Text.ofNat document.blockLines
      ++ " block line(s) and ".toList ++ Text.ofNat document.tailLines
      ++ " trailing line(s)".toList,
    "[*] Extracted logic to '".toList ++ job.output.text ++ "'".toList]

theorem opening_eq (job : Job) : opening job = printed (announced job) := by
  unfold opening printed announced
  cases job.tailAnchor <;> simp

theorem closing_eq (job : Job) (document : Document) :
    closing job document = printed (confirmed job document) := by
  unfold closing printed confirmed
  simp

theorem printed_append (xs ys : List Text) :
    printed (xs ++ ys) = printed xs ++ printed ys := by
  unfold printed
  rw [List.map_append, List.flatten_append]

-- ============================================================ the endings

variable {job : Job} {tree : FileTree} (filter : Filter)

/-- A job that goes well is reported with what it wrote. -/
theorem perform_of_written {document : Document}
    (h : (job.run tree).value.result = .ok document) :
    perform job filter tree
      = ⟨0, printed (announced job ++ confirmed job document),
          shownLog filter (job.run tree).records,
          (job.run tree).value.tree⟩ := by
  unfold perform
  dsimp only
  rw [h, printed_append, ← opening_eq, ← closing_eq]

/-- A job that fails is reported with why it did. -/
theorem perform_of_failed {failure : Failure}
    (h : (job.run tree).value.result = .error failure) :
    perform job filter tree
      = ⟨1, printed (announced job),
          shownLog filter (job.run tree).records ++ failure.report,
          (job.run tree).value.tree⟩ := by
  unfold perform
  dsimp only
  rw [h, ← opening_eq]

/-- Arguments at fault are reported as such. -/
theorem decline_of_fault {refusal : CommandLine.Refusal}
    (h : ∀ query, refusal ≠ .asked query) :
    (decline refusal tree).status = 2
      ∧ (decline refusal tree).stdout = []
      ∧ (decline refusal tree).tree = tree := by
  cases refusal with
  | asked query => exact absurd rfl (h query)
  | _ => exact ⟨rfl, rfl, rfl⟩

end Invocation

/-- Arguments that are not accepted lead to no run. -/
theorem invoke_of_error {arguments : List Text}
    {refusal : CommandLine.Refusal}
    (h : CommandLine.parse arguments = .error refusal)
    (setting : Option Text) (tree : FileTree) :
    invoke arguments setting tree = Invocation.decline refusal tree := by
  unfold invoke
  rw [h]

/-- Arguments that are accepted lead to the run of their job. -/
theorem invoke_of_ok {arguments : List Text} {job : Job}
    (h : CommandLine.parse arguments = .ok job) (setting : Option Text)
    (tree : FileTree) :
    invoke arguments setting tree
      = Invocation.perform job (Filter.ofSetting setting job.verbose)
          tree := by
  unfold invoke
  rw [h]

open CommandLine Invocation in
/-- How an invocation ends. With arguments at fault it has status 2 and
prints nothing to standard output; with a query, which one of the
arguments asks, it has status 0 and prints the text asked for; neither
touches the files. With a job it first announces it; if the job goes
well, the status is 0, two more lines say so, and the text of the
document is where the output leads; if it fails, the status is 1, nothing
more is said, and every file is as before. A query behind arguments that
are accepted is always answered. -/
theorem invoke_outcome (arguments : List Text) (setting : Option Text)
    (tree : FileTree) :
    let report := invoke arguments setting tree
    (∀ refusal, parse arguments = .error refusal →
        (∀ query, refusal ≠ .asked query) →
        report.status = 2 ∧ report.stdout = [] ∧ report.tree = tree)
      ∧ (∀ query, parse arguments = .error (.asked query) →
        (∃ argument ∈ arguments, query.IsAskedBy argument)
          ∧ report.status = 0 ∧ report.stdout = query.answer
          ∧ report.tree = tree)
      ∧ (∀ before query argument after job,
        arguments = before ++ argument :: after →
        argument ∈ Query.spellings query → endOfOptions ∉ before →
        parse before = .ok job → parse arguments = .error (.asked query))
      ∧ ∀ job, parse arguments = .ok job →
        (∀ document, (job.run tree).value.result = .ok document →
          report.status = 0
            ∧ report.stdout = printed (announced job ++ confirmed job document)
            ∧ report.tree.Finds job.output (.file document.text.bytes))
          ∧ ∀ failure, (job.run tree).value.result = .error failure →
            report.status = 1
              ∧ report.stdout = printed (announced job)
              ∧ ∀ loc b, report.tree.at? loc = some (.file b)
                ↔ tree.at? loc = some (.file b) := by
  refine ⟨?_, ?_, ?_, ?_⟩
  · intro refusal hparse hfault
    rw [invoke_of_error hparse]
    exact decline_of_fault hfault
  · intro query hparse
    rw [invoke_of_error hparse]
    exact ⟨isAskedBy_of_parse hparse, rfl, rfl, rfl⟩
  · rintro before query argument after job rfl hasks hends hbefore
    exact parse_of_asked hbefore hends hasks
  · intro job hparse
    rw [invoke_of_ok hparse]
    constructor
    · intro document hrun
      rw [perform_of_written _ hrun]
      exact ⟨rfl, rfl, Job.run_writes hrun⟩
    · intro failure hrun
      rw [perform_of_failed _ hrun]
      exact ⟨rfl, rfl, Job.run_leaves_files hrun⟩

namespace Invocation

/-- Arguments for a source without the region after the block. -/
def tailless : List Text :=
  ["--output=o", "--function=fn f", "s"].map String.toList

/-- The job that they ask for. -/
def taillessJob : Job :=
  { Job.standard with
    source := .ofString "s"
    output := .ofString "o"
    functionAnchor := "fn f".toList }

/-- The four endings: the document is there, its place is refused, the
version is asked for behind a flag, an option is not known. -/
theorem invoke_outcome_tailless :
    CommandLine.parse tailless = .ok taillessJob
      ∧ (∃ document,
        (taillessJob.run oneLiner).value.result = .ok document
          ∧ (invoke tailless none oneLiner).status = 0
          ∧ (invoke tailless none oneLiner).tree.Finds (.ofString "o")
              (.file document.text.bytes))
      ∧ (invoke ("--output=d/e/".toList :: tailless.tail) none
          oneLiner).status = 1
      ∧ (invoke ["-vV".toList] none oneLiner).stdout
        = "extract_snippet 0.1.0\n".toList
      ∧ (invoke ["--loud".toList] none oneLiner).status = 2 := by
  have hparse : CommandLine.parse tailless = .ok taillessJob := by decide
  have hslashed : CommandLine.parse ("--output=d/e/".toList :: tailless.tail)
      = .ok Job.slashed := by decide
  obtain ⟨-, -, -, hjob⟩ := invoke_outcome tailless none oneLiner
  obtain ⟨-, -, -, hjob'⟩ :=
    invoke_outcome ("--output=d/e/".toList :: tailless.tail) none oneLiner
  obtain ⟨-, hquery, -⟩ := invoke_outcome ["-vV".toList] none oneLiner
  obtain ⟨hfault, -⟩ := invoke_outcome ["--loud".toList] none oneLiner
  obtain ⟨hstatus, -, hfinds⟩ := (hjob taillessJob hparse).1 _ rfl
  refine ⟨hparse, ⟨_, rfl, hstatus, hfinds⟩, ?_, ?_, ?_⟩
  · exact ((hjob' Job.slashed hslashed).2 _ rfl).1
  · exact (hquery .version (by decide)).2.2.1
  · exact (hfault (.unknown "--loud".toList) (by decide) nofun).1

end Invocation

end BraceLift
