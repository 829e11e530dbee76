/-
Jobs spelled on a command line and read back.

A job is said by its options (`jobOptions`) and its source. Each option
in one argument (`Setting.spelled`) spells its setting (`spells_spelled`),
so a list of them without a repetition is taken as it stands
(`takeAll_spelled`). None is repeated and none excludes another among the
options of a job, so the job is the one they were taken from, in whatever
order they stand and whichever of the standard ones are left out
(`parse_spelled`).
-/
import BraceLift.Proofs.CommandLine.Taking
import BraceLift.Proofs.Text.Decimal

namespace BraceLift.CommandLine

namespace Setting

-- ============================================================== spelling

/-- The value of a setting, as it is written. -/
def value : Setting → Text
  | .source path | .output path => path.text
  | .functionAnchor text | .tailAnchor text | .publicMarker text => text
  | .dedentWidth width => Text.ofNat width
  | .flag _ => []

/-- A setting in one argument. -/
def spelled (s : Setting) : Text :=
  match s.item with
  | .source => s.value
  | .valued option => '-' :: '-' :: (option.name ++ '=' :: s.value)
  | .flag f => '-' :: '-' :: f.name

/-- Whether the value of a setting can be given: no path is empty and no
number too large. -/
def IsGivable : Setting → Prop
  | .source path | .output path => path.text ≠ []
  | .dedentWidth width => width < numberBound
  | _ => True

/-- The value of a setting is read as the setting. -/
theorem ofValue_value {s : Setting} {option : Valued}
    (hitem : s.item = .valued option) (h : s.IsGivable) :
    ofValue option s.value = .ok s := by
  cases s <;> cases hitem
  case output path =>
    rw [ofValue, value, readPath_eq_ok _ h]
    rfl
  case dedentWidth width =>
    rw [ofValue, value, Text.readNat_ofNat h]
  all_goals rfl

end Setting

/-- The argument that a setting is spelled in spells it. -/
theorem Setting.spells_spelled {s : Setting} (hsource : s.item ≠ .source)
    (hgivable : s.IsGivable) : Spells s.spelled s := by
  unfold spelled
  cases hitem : s.item with
  | source => exact absurd hitem hsource
  | valued option => exact .valued (ofValue_value hitem hgivable)
  | flag flag =>
      obtain rfl : s = .flag flag := by
        cases s <;> cases hitem
        rfl
      exact .flag flag

namespace Reading

variable {reading : Reading}

/-- Options of different items are taken as they stand. -/
theorem takeAll_spelled {given : List Setting}
    (hpending : reading.pending = .nothing)
    (hplain : reading.plain = false)
    (hgiven : ∀ s ∈ given, s.item ≠ .source ∧ s.IsGivable)
    (hnodup : ((reading.settings ++ given).map Setting.item).Nodup) :
    reading.takeAll (given.map Setting.spelled)
      = .ok { reading with settings := reading.settings ++ given } := by
  refine takeAll_of_spells ?_ hpending hplain hnodup
  rw [List.forall₂_map_left_iff, List.forall₂_same]
  exact fun s hs => Setting.spells_spelled (hgiven s hs).1 (hgiven s hs).2

end Reading

-- ================================================================== jobs

/-- The options that say all of a job but its source. -/
def jobOptions (job : Job) : List Setting :=
  [.output job.output, .functionAnchor job.functionAnchor,
      match job.tailAnchor with
      | none => .flag .noTail
      | some anchor => .tailAnchor anchor,
      .dedentWidth job.dedentWidth, .publicMarker job.publicMarker]
    ++ (if job.strict then [.flag .strict] else [])
    ++ (if job.verbose then [.flag .verbose] else [])

/-- Whether some settings are the options of a job, in any order and but
for some that only repeat what the standard job has. -/
def Describes (given : List Setting) (job : Job) : Prop :=
  ∃ omitted, (given ++ omitted).Perm (jobOptions job)
    ∧ ∀ s ∈ omitted, s.IsStandard

variable (job : Job)

/-- The job of its source and its options is the job. -/
theorem job_jobOptions :
    Setting.job (.source job.source :: jobOptions job) = job := by
  obtain ⟨source, output, function, tail, width, marker, strict, verbose⟩ :=
    job
  cases tail <;> cases strict <;> cases verbose <;> rfl

/-- No two of them set the same or exclude each other. -/
theorem items_jobOptions :
    ((Setting.source job.source :: jobOptions job).map Setting.item).Nodup
      ∧ conflict? ((Setting.source job.source :: jobOptions job).map
          Setting.item) = none := by
  obtain ⟨source, output, function, tail, width, marker, strict, verbose⟩ :=
    job
  cases tail <;> cases strict <;> cases verbose <;>
    exact ⟨by simp [jobOptions, Setting.item], rfl⟩

theorem givable_jobOptions {job : Job} (houtput : job.output.text ≠ [])
    (hwidth : job.dedentWidth < numberBound) :
    ∀ s ∈ jobOptions job, s.item ≠ .source ∧ s.IsGivable := by
  obtain ⟨source, output, function, tail, width, marker, strict, verbose⟩ :=
    job
  cases tail <;> cases strict <;> cases verbose <;>
    simp_all [jobOptions, Setting.item, Setting.IsGivable]

/-- The output among them is the one of the job. -/
theorem eq_of_output_mem {job : Job} {path : Path}
    (h : .output path ∈ jobOptions job) : path = job.output := by
  obtain ⟨hnodup, -⟩ := items_jobOptions job
  rw [List.map_cons, List.nodup_cons] at hnodup
  have hself : .output job.output ∈ jobOptions job := by simp [jobOptions]
  have hsame := List.inj_on_of_nodup_map hnodup.2 h hself rfl
  exact Setting.output.inj hsame

/-- Behind `--`, the source ends what has been taken. -/
theorem parse_source {arguments : List Text} {settings : List Setting}
    {source : Path} (hne : source.text ≠ [])
    (htake : Reading.start.takeAll arguments
      = .ok { Reading.start with settings := settings })
    (hnew : .source ∉ settings.map Setting.item)
    (hfree : conflict? ((settings ++ [Setting.source source]).map
      Setting.item) = none) :
    parse (arguments ++ [endOfOptions, source.text])
      = .ok (Setting.job (settings ++ [.source source])) := by
  have hnonempty : ∀ given ∈ some source, given.text ≠ [] := by
    simpa using hne
  have htaken := parse_of_taken htake hnew hnonempty
  exact htaken.trans (verdict_of_free hfree)

variable {job} {given omitted : List Setting}

theorem perm_source (hperm : (given ++ omitted).Perm (jobOptions job)) :
    (given ++ [Setting.source job.source] ++ omitted).Perm
      (.source job.source :: jobOptions job) := by
  rw [List.append_assoc]
  exact List.perm_middle.trans (hperm.cons _)

/-- Options of a job are taken as they stand, and its source behind them. -/
theorem parse_of_perm (hsource : job.source.text ≠ [])
    (houtput : job.output.text ≠ []) (hwidth : job.dedentWidth < numberBound)
    (hperm : (given ++ omitted).Perm (jobOptions job)) :
    parse (given.map Setting.spelled ++ [endOfOptions, job.source.text])
      = .ok (Setting.job (given ++ [.source job.source])) := by
  -- what is given is part of all, so it repeats and excludes nothing
  obtain ⟨hnodup, hfree⟩ := items_jobOptions job
  have hall := (perm_source hperm).map Setting.item
  have hsub := (List.sublist_append_left
    (given ++ [Setting.source job.source]) omitted).map Setting.item
  have hnodup' := (hall.nodup_iff.2 hnodup).sublist hsub
  have hgiven : ∀ s ∈ given, s.item ≠ .source ∧ s.IsGivable := fun s hs =>
    givable_jobOptions houtput hwidth s
      (hperm.subset (List.mem_append_left omitted hs))
  have htake := @Reading.takeAll_spelled .start given rfl rfl hgiven
    (hnodup'.sublist ((List.sublist_append_left _ _).map _))
  refine parse_source hsource htake ?_
    (conflict?_sublist hsub (conflict?_perm hall.symm hfree))
  intro hmem
  obtain ⟨s, hs, hitem⟩ := List.mem_map.1 hmem
  exact (hgiven s hs).1 hitem

/-- What is left out changes nothing in the standard job if the output is
given, or has there the same spelling. -/
theorem apply_of_omitted (hperm : (given ++ omitted).Perm (jobOptions job))
    (hstandard : ∀ s ∈ omitted, s.IsStandard)
    (hout : .output job.output ∈ given
      ∨ job.output = Job.standard.output) :
    ∀ s ∈ omitted, Setting.apply Job.standard s = Job.standard := by
  intro s hs
  have hmem := hperm.subset (List.mem_append_right given hs)
  obtain ⟨hnodup, -⟩ := items_jobOptions job
  rw [List.map_cons, List.nodup_cons] at hnodup
  refine (hstandard s hs).apply_eq ?_ fun path heq => ?_
  · exact fun hitem => hnodup.1 (List.mem_map.2 ⟨s, hmem, hitem⟩)
  · subst heq
    obtain rfl := eq_of_output_mem hmem
    refine hout.resolve_left fun hin => ?_
    -- the output would be both given and left out
    have hdisjoint := (hperm.map Setting.item).nodup_iff.2 hnodup.2
    rw [List.map_append, List.nodup_append] at hdisjoint
    exact hdisjoint.2.2 _ (List.mem_map_of_mem hin) _
      (List.mem_map_of_mem hs) rfl

/-- The options of a job and its source are read as the job, whatever
order the options stand in; one that the standard job has may be left
out, and if this is the output under another spelling, it is the spelling
alone in which the jobs differ. -/
theorem parse_spelled (hsource : job.source.text ≠ [])
    (houtput : job.output.text ≠ []) (hwidth : job.dedentWidth < numberBound)
    (h : Describes given job) :
    ∃ read, parse (given.map Setting.spelled
          ++ [endOfOptions, job.source.text]) = .ok read
      ∧ read.agrees job = true
      ∧ (.output job.output ∈ given ∨ job.output = Job.standard.output →
          read = job) := by
  obtain ⟨omitted, hperm, hstandard⟩ := h
  obtain ⟨hnodup, hfree⟩ := items_jobOptions job
  obtain ⟨hagrees, hsame⟩ := Setting.job_agrees_of_perm (perm_source hperm)
    hnodup hfree hstandard
  rw [job_jobOptions] at hagrees hsame
  exact ⟨_, parse_of_perm hsource houtput hwidth hperm, hagrees,
    fun hout => hsame (apply_of_omitted hperm hstandard hout)⟩

/-- A job whose texts look like arguments. -/
def lookalike : Job :=
  { Job.standard with
    source := .ofString "--"
    output := .ofString "-o=x"
    functionAnchor := "--function".toList
    tailAnchor := none
    verbose := true }

/-- Its options without two of the standard job, in an order of their
own. -/
theorem parse_lookalike :
    lookalike.source.text ≠ [] ∧ lookalike.output.text ≠ []
      ∧ lookalike.dedentWidth < numberBound
      ∧ Describes [.flag .verbose, .functionAnchor "--function".toList,
          .flag .noTail, .output (.ofString "-o=x")] lookalike
      ∧ parse (["--verbose", "--function=--function", "--no-trailing",
          "--output=-o=x", "--", "--"].map String.toList)
        = .ok lookalike := by
  have hsource : lookalike.source.text ≠ [] := by decide
  have houtput : lookalike.output.text ≠ [] := by decide
  have hwidth : lookalike.dedentWidth < numberBound := by decide
  have hgiven : Describes [.flag .verbose,
      .functionAnchor "--function".toList, .flag .noTail,
      .output (.ofString "-o=x")] lookalike :=
    ⟨[.dedentWidth 4, .publicMarker "pub".toList], by decide, by decide⟩
  obtain ⟨read, hparse, -, hsame⟩ :=
    parse_spelled hsource houtput hwidth hgiven
  obtain rfl := hsame (.inl (by decide))
  exact ⟨hsource, houtput, hwidth, hgiven, hparse⟩

end BraceLift.CommandLine
