/-
The log does not matter to what an invocation does.

A run reads of its job everything but the verbosity, which it only tells
in its first record (`Job.run_withVerbosity`), and the filter chooses
among the records after the run. So two invocations for jobs that differ
in their verbosity differ in standard error at most, whatever their
filters (`perform_agrees`). Without a setting the filter of a quiet run
shows warnings and that of a verbose run shows everything, so the quiet
log is the verbose one without its records for debugging, and the failure
stands behind both (`invoke_verbose`).
-/
import BraceLift.Proofs.Invocation.Outcome

namespace BraceLift

-- =============================================================== the run

namespace Job

/-- The job with another verbosity. -/
def withVerbosity (job : Job) (verbose : Bool) : Job :=
  { job with verbose := verbose }

/-- The verbosity is seen in the first record of a run only. -/
theorem run_withVerbosity (job : Job) (verbose : Bool) (tree : FileTree) :
    ((job.withVerbosity verbose).run tree).value = (job.run tree).value
      ∧ ∃ rest, (job.run tree).records = .started job :: rest
        ∧ ((job.withVerbosity verbose).run tree).records
          = .started (job.withVerbosity verbose) :: rest :=
  ⟨rfl, _, rfl, rfl⟩

end Job

-- ============================================================ the filters

namespace Filter

/-- A filter with one threshold looks at nothing but the severity. -/
theorem admits_uniform (threshold : Threshold) (record : Record) :
    (uniform threshold).admits record
      = threshold.admits record.severity := rfl

end Filter

namespace Invocation

/-- Records as they are logged. -/
def logged (records : List Record) : Text :=
  (records.map Record.logLine).flatten

/-- What is said of a result if it is a failure. -/
def complaint : Except Failure Document → Text
  | .ok _ => []
  | .error failure => failure.report

/-- Everything is shown at the threshold of a verbose run. -/
theorem shownLog_debug (records : List Record) :
    shownLog (.uniform .debug) records = logged records := by
  have hall : ∀ r ∈ records, (Filter.uniform .debug).admits r = true :=
    fun r _ => Filter.admits_uniform .debug r
  unfold shownLog logged
  rw [List.filter_eq_self.2 hall]

/-- At that of a quiet one, everything but what is for debugging. -/
theorem shownLog_warn (records : List Record) :
    shownLog (.uniform .warn) records
      = logged (records.filter (·.severity != .debug)) := by
  have hsame : ∀ r ∈ records,
      (Filter.uniform .warn).admits r = (r.severity != .debug) := by
    intro r _
    rw [Filter.admits_uniform]
    cases r.severity <;> rfl
  unfold shownLog logged
  rw [List.filter_congr hsame]

theorem stderr_perform (job : Job) (filter : Filter) (tree : FileTree) :
    (perform job filter tree).stderr
      = shownLog filter (job.run tree).records
        ++ complaint (job.run tree).value.result := by
  cases hresult : (job.run tree).value.result with
  | ok document =>
      rw [perform_of_written filter hresult, complaint, List.append_nil]
  | error failure => rw [perform_of_failed filter hresult, complaint]

/-- Reports on one job under two filters, once with another verbosity,
differ in standard error at most. -/
theorem perform_agrees (job : Job) (verbose : Bool)
    (filter filter' : Filter) (tree : FileTree) :
    let first := perform job filter tree
    let second := perform (job.withVerbosity verbose) filter' tree
    second.status = first.status ∧ second.stdout = first.stdout
      ∧ second.tree = first.tree := by
  obtain ⟨hvalue, -⟩ := job.run_withVerbosity verbose tree
  cases hresult : (job.run tree).value.result with
  | ok document =>
      rw [perform_of_written filter hresult,
        perform_of_written filter' (hvalue ▸ hresult)]
      exact ⟨rfl, rfl, congrArg Outcome.tree hvalue⟩
  | error failure =>
      rw [perform_of_failed filter hresult,
        perform_of_failed filter' (hvalue ▸ hresult)]
      exact ⟨rfl, rfl, congrArg Outcome.tree hvalue⟩

/-- The records of a run that are not for debugging do not tell its
verbosity. -/
theorem filter_records_withVerbosity (job : Job) (verbose : Bool)
    (tree : FileTree) :
    ((job.withVerbosity verbose).run tree).records.filter
        (·.severity != .debug)
      = (job.run tree).records.filter (·.severity != .debug) := by
  obtain ⟨-, rest, hrecords, hrecords'⟩ := job.run_withVerbosity verbose tree
  rw [hrecords, hrecords']
  rfl

end Invocation

open CommandLine Invocation in
/-- Arguments that are accepted for a quiet job are accepted for the same
job, but verbose, with the flag in front. Whatever the settings of the
filter are, the two invocations have the same status, the same standard
output and the same files. Without a setting, standard error is in both
what is logged of the verbose run and its failure if it fails; only the
records for debugging are missing from the quiet one. -/
theorem invoke_verbose {arguments : List Text} {job : Job}
    (h : parse arguments = .ok job) (hquiet : job.verbose = false)
    (tree : FileTree) :
    let loud := "-v".toList :: arguments
    let run := (job.withVerbosity true).run tree
    parse loud = .ok (job.withVerbosity true)
      ∧ (∀ setting setting',
        (invoke loud setting' tree).status
            = (invoke arguments setting tree).status
          ∧ (invoke loud setting' tree).stdout
            = (invoke arguments setting tree).stdout
          ∧ (invoke loud setting' tree).tree
            = (invoke arguments setting tree).tree)
      ∧ (invoke loud none tree).stderr
        = logged run.records ++ complaint run.value.result
      ∧ (invoke arguments none tree).stderr
        = logged (run.records.filter (·.severity != .debug))
          ++ complaint run.value.result := by
  intro loud run
  have hloud : parse loud = .ok (job.withVerbosity true) :=
    parse_verbose h hquiet
  refine ⟨hloud, ?_, ?_, ?_⟩
  · intro setting setting'
    rw [invoke_of_ok h, invoke_of_ok hloud]
    exact perform_agrees job true _ _ tree
  · rw [invoke_of_ok hloud, stderr_perform]
    exact congrArg (· ++ _) (shownLog_debug run.records)
  · obtain ⟨hvalue, -⟩ := job.run_withVerbosity true tree
    rw [invoke_of_ok h, hquiet, stderr_perform, ← hvalue]
    unfold run
    rw [filter_records_withVerbosity]
    exact congrArg (· ++ _) (shownLog_warn (job.run tree).records)

namespace Invocation

/-- The quiet run warns of the missing region and tells nothing else,
while a verbose one prints the same even if nothing is logged. -/
theorem invoke_tailless :
    CommandLine.parse tailless = .ok taillessJob
      ∧ taillessJob.verbose = false
      ∧ (invoke ("-v".toList :: tailless) (some "off".toList)
          oneLiner).stdout
        = (invoke tailless none oneLiner).stdout
      ∧ (invoke tailless none oneLiner).stderr
        = logged [.tailMissing "fn build_sequence".toList] := by
  have hparse : CommandLine.parse tailless = .ok taillessJob := by decide
  have hquiet : taillessJob.verbose = false := rfl
  obtain ⟨-, hagrees, -, hstderr⟩ := invoke_verbose hparse hquiet oneLiner
  refine ⟨hparse, hquiet, (hagrees none (some "off".toList)).2.1, ?_⟩
  rw [hstderr]
  exact List.append_nil _

end Invocation

end BraceLift
