/-
One invocation of the tool, from its arguments to its exit status.

The run itself does not depend on what the log shows: the filter
chooses among the records after the job has been carried out.
-/
import BraceLift.CommandLine.Parse
import BraceLift.Job.Run
import BraceLift.Log.Filter
import BraceLift.Log.Wording

namespace BraceLift

/-- What an invocation leaves behind. -/
structure Report where
  /-- The exit status. -/
  status : Nat
  /-- What is written to standard output. -/
  stdout : Text
  /-- What is written to standard error. -/
  stderr : Text
  /-- The files afterwards. -/
  tree : FileTree

namespace Invocation

/-- What is said before a job is carried out. -/
def opening (job : Job) : Text :=
  "[*] Extracting ".toList ++ job.functionAnchor ++ "...\n".toList
    ++ match job.tailAnchor with
      | none => []
      | some anchor =>
          "[*] Extracting ".toList ++ anchor
            ++ " and everything after it...\n".toList

/-- What is said once the document is written. -/
def closing (job : Job) (document : Document) : Text :=
  "[*] Captured ".toList ++ Text.ofNat document.blockLines
    ++ " block line(s) and ".toList ++ Text.ofNat document.tailLines
    ++ " trailing line(s)\n[*] Extracted logic to '".toList
    ++ job.output.text ++ "'\n".toList

/-- The records that a filter lets through, a line for each. -/
def shownLog (filter : Filter) (records : List Record) : Text :=
  ((records.filter filter.admits).map Record.logLine).flatten

/-- Carries out a job and reports on it. -/
def perform (job : Job) (filter : Filter) (tree : FileTree) : Report :=
  let run := job.run tree
  let log := shownLog filter run.records
  match run.value.result with
  | .ok document =>
      ⟨0, opening job ++ closing job document, log, run.value.tree⟩
  | .error failure =>
      ⟨1, opening job, log ++ failure.report, run.value.tree⟩

/-- What is reported when there is no run. -/
def decline (refusal : CommandLine.Refusal) (tree : FileTree) : Report :=
  match refusal with
  | .asked query => ⟨0, query.answer, [], tree⟩
  | refusal => ⟨2, [], refusal.headline ++ ['\n'], tree⟩

end Invocation

/-- Invokes the tool with its arguments and the setting of the log
filter, if there is one. -/
def invoke (arguments : List Text) (logSetting : Option Text)
    (tree : FileTree) : Report :=
  match CommandLine.parse arguments with
  | .error refusal => Invocation.decline refusal tree
  | .ok job =>
      Invocation.perform job (Filter.ofSetting logSetting job.verbose) tree

end BraceLift
