/-
The first obstacle in the way of a job decides how it fails.

Eight things can be in the way (`Job.Obstacle`), in any combination, and
each says for itself when it is there and what is reported of it: two of
the source, three of the block, one of the tail, two of the output. None
is said in terms of the run. `run_fails_at_first_obstacle` is that a job
fails if and only if something is in its way, and that the obstacle with
the least number is the one reported.

The proof goes through the stages in their order. Where nothing is in the
way up to a stage (`Job.ClearBefore`), the stages before it went well and
have left what the next one needs: the lines of the source
(`hasLines_of_clear`), a block that is accepted (`block_of_clear`), a
document (`document_of_clear`), the directories of the output
(`prepared_of_clear`) and room for it (`admitsFile_of_clear`).

What is in the way of the output is lack of room and nothing else: its
directory is in the way just if there is no room for a directory
(`directory_refused_iff`), and the output just if there is no room for a
file (`output_refused_iff`). The fault that the two obstacles name only
says which refusal is reported.
-/
import Mathlib.Data.Nat.Find
import BraceLift.Proofs.Block.Extent
import BraceLift.Proofs.Document.Compose
import BraceLift.Proofs.File.Room
import BraceLift.Proofs.Job.Stages

namespace BraceLift

open FileTree

-- ============================================================ obstacles

/-- Whether a path leads to a file with these lines. -/
def FileTree.HasLines (tree : FileTree) (source : Path) (lines : List Line) :
    Prop :=
  ∃ b text, tree.Finds source (.file b) ∧ Text.ofBytes? b = some text
    ∧ lines = text.splitLines

namespace Job

/-- What is in the way of a job: the number of the obstacle, how the
extraction fails at it, and the messages that say so. -/
inductive Obstacle (job : Job) (tree : FileTree) :
    Nat → Failure → List Text → Prop where
  /-- The source path leads to nothing. -/
  | sourceAbsent :
      (∀ loc, tree.resolve job.source ≠ .ok loc) →
      Obstacle job tree 1 (.sourceMissing job.source)
        ["Source file '".toList ++ job.source.text ++ "' not found.".toList]
  /-- The source path leads to a directory. -/
  | sourceDirectory :
      tree.Finds job.source .directory →
      Obstacle job tree 2 (.sourceUnreadable job.source .isDirectory)
        ["Error reading source file ".toList ++ job.source.text,
          "Is a directory (os error 21)".toList]
  /-- The source is a file, but not of UTF-8. -/
  | sourceGarbled {b : ByteArray} :
      tree.Finds job.source (.file b) →
      Text.ofBytes? b = none →
      Obstacle job tree 2 (.sourceUnreadable job.source .notText)
        ["Error reading source file ".toList ++ job.source.text,
          "stream did not contain valid UTF-8".toList]
  /-- The anchor of the block is empty. -/
  | anchorEmpty :
      job.functionAnchor = [] →
      Obstacle job tree 3 (.excerpt .emptyAnchor)
        ["Anchor must not be empty".toList]
  /-- No line of the source contains the anchor of the block. -/
  | anchorMissing {lines : List Line} :
      tree.HasLines job.source lines →
      (∀ raw ∈ lines, ¬ job.functionAnchor <:+: raw) →
      Obstacle job tree 4 (.excerpt (.anchorNotFound job.functionAnchor))
        ["Could not find anchor '".toList ++ job.functionAnchor
          ++ "'".toList]
  /-- The block never closes, and that is an error; all lines from its
  first one on are counted. -/
  | blockOpen {lines : List Line} {i : Nat} :
      tree.HasLines job.source lines →
      job.strict = true →
      Block.IsStart job.functionAnchor lines i →
      (∀ k, ¬ Block.Closes lines i k) →
      Obstacle job tree 5
        (.excerpt (.unterminated job.functionAnchor (lines.length - i)))
        ["Block starting at '".toList ++ job.functionAnchor
          ++ "' never closes (".toList ++ Text.ofNat (lines.length - i)
          ++ " line(s) captured before end of input)".toList]
  /-- The anchor of the tail is there, but empty. -/
  | tailAnchorEmpty :
      job.tailAnchor = some [] →
      Obstacle job tree 6 (.excerpt .emptyAnchor)
        ["Anchor must not be empty".toList]
  /-- There is no room for the directory of the output. -/
  | directoryRefused {parent : Path} {fault : Fault} :
      job.output.parent? = some parent →
      parent.text ≠ [] →
      ¬ tree.AdmitsDirectory parent →
      (tree.makeDirectories parent).result = .error fault →
      Obstacle job tree 7 (.directoryRefused parent fault)
        ["Error creating directory ".toList ++ parent.text, fault.message]
  /-- There is no room for the output. -/
  | outputRefused {fault : Fault} :
      ¬ tree.AdmitsFile job.output →
      (∀ content, (tree.prepared job.output).tree.store job.output content
        = .error fault) →
      Obstacle job tree 8 (.outputRefused job.output fault)
        ["Error writing ".toList ++ job.output.text, fault.message]

/-- Whether nothing is in the way of a job up to an obstacle. -/
def ClearBefore (job : Job) (tree : FileTree) (n : Nat) : Prop :=
  ∀ m cause messages, job.Obstacle tree m cause messages → n ≤ m

/-- The block that a job asks for. -/
def block (job : Job) : Block :=
  ⟨job.functionAnchor, ⟨job.dedentWidth, job.publicMarker⟩⟩

variable {job : Job} {tree : FileTree}

theorem ClearBefore.mono {n m : Nat} (h : job.ClearBefore tree n)
    (hle : m ≤ n) : job.ClearBefore tree m := by
  intro k cause messages hob
  have hk := h k cause messages hob
  omega

/-- What is reported of an obstacle is what its failure says. -/
theorem Obstacle.chain_eq {n : Nat} {cause : Failure} {messages : List Text}
    (h : job.Obstacle tree n cause messages) : cause.chain = messages := by
  cases h <;> rfl

-- ====================================================== stage after stage

theorem readLines_of_hasLines {lines : List Line}
    (h : tree.HasLines job.source lines) :
    tree.readLines job.source = .ok lines := by
  obtain ⟨b, text, hfinds, htext, rfl⟩ := h
  rw [readLines_of_file hfinds, htext]

/-- Past the obstacles of the source, it has lines. -/
theorem hasLines_of_clear (h : job.ClearBefore tree 3) :
    ∃ lines, tree.HasLines job.source lines := by
  rcases tree.absent_or_finds job.source with habsent | ⟨e, hfinds⟩
  · have hle := h _ _ _ (.sourceAbsent habsent)
    omega
  · cases e with
    | directory =>
        have hle := h _ _ _ (.sourceDirectory hfinds)
        omega
    | file b =>
        cases htext : Text.ofBytes? b with
        | none =>
            have hle := h _ _ _ (.sourceGarbled hfinds htext)
            omega
        | some text => exact ⟨_, b, text, hfinds, htext, rfl⟩

theorem anchor_ne_nil_of_clear (h : job.ClearBefore tree 4) :
    job.functionAnchor ≠ [] := by
  intro hnil
  have hle := h _ _ _ (.anchorEmpty hnil)
  omega

/-- A block that never closes is given with all lines from its start on. -/
theorem value_block_of_open {lines : List Line} {i : Nat}
    (hne : job.functionAnchor ≠ [])
    (hstart : Block.IsStart job.functionAnchor lines i)
    (hopen : ∀ k, ¬ Block.Closes lines i k) :
    ∃ excerpt, (job.block.extract lines).value = .ok excerpt
      ∧ excerpt.ending = .truncated ∧ excerpt.anchor = job.functionAnchor
      ∧ excerpt.size = lines.length - i := by
  have hidx := (Block.isStart_iff _ _ _).1 hstart
  obtain ⟨hi, -, -⟩ := List.findIdx?_eq_some_iff_getElem.1 hidx
  cases hclose : Block.closing? (lines.drop i) with
  | some n => exact absurd (Block.isClose_of_closing? hclose).closes (hopen _)
  | none =>
      refine ⟨_, Block.value_extract_truncated job.block hne lines hidx hclose,
        rfl, rfl, ?_⟩
      show (BlockStyle.restyle _ _).length = _
      rw [BlockStyle.length_restyle, Block.span_last hi, List.length_drop]

/-- Past the obstacles of the block, it is found and accepted. -/
theorem block_of_clear (h : job.ClearBefore tree 6) {lines : List Line}
    (hlines : tree.HasLines job.source lines) :
    ∃ excerpt, (job.block.extract lines).value = .ok excerpt
      ∧ (job.strict = true → excerpt.ending = .closed) := by
  have hne := anchor_ne_nil_of_clear (h.mono (by omega))
  cases hidx : lines.findIdx? job.functionAnchor.occursIn with
  | none =>
      rw [Block.findIdx?_occursIn_eq_none_iff] at hidx
      have hle := h _ _ _ (.anchorMissing hlines hidx)
      omega
  | some i =>
      have hstart := (Block.isStart_iff _ _ _).2 hidx
      cases hclose : Block.closing? (lines.drop i) with
      | some n =>
          exact ⟨_, Block.value_extract_closed job.block hne lines hidx hclose,
            fun _ => rfl⟩
      | none =>
          have hopen := Block.not_closes_of_closing? hclose
          obtain ⟨excerpt, hexcerpt, -⟩ := value_block_of_open hne hstart hopen
          refine ⟨excerpt, hexcerpt, fun hstrict => ?_⟩
          have hle := h _ _ _ (.blockOpen hlines hstrict hstart hopen)
          omega

/-- Past the obstacle of the tail, there is a document. -/
theorem document_of_clear (h : job.ClearBefore tree 7) {lines : List Line}
    (hlines : tree.HasLines job.source lines) :
    ∃ document, ((Layout.ofJob job).compose lines).value = .ok document := by
  obtain ⟨excerpt, hexcerpt, haccept⟩ :=
    block_of_clear (h.mono (by omega)) hlines
  rw [Layout.value_compose_of_accepted hexcerpt haccept]
  rcases Layout.value_tailLines_ofJob job lines with ⟨hnil, -⟩
    | ⟨-, tail, htail⟩
  · have hle := h _ _ _ (.tailAnchorEmpty hnil)
    omega
  · rw [htail]
    exact ⟨_, rfl⟩

/-- The directory of the output is in the way if and only if it has a
path and there is no room for it. -/
theorem directory_refused_iff :
    (∃ cause messages, job.Obstacle tree 7 cause messages)
      ↔ job.output.directory.text ≠ []
        ∧ ¬ tree.AdmitsDirectory job.output.directory := by
  constructor
  · intro hsome
    obtain ⟨cause, messages, hob⟩ := hsome
    cases hob with
    | directoryRefused hup htext hroom _ =>
        rw [Path.directory_of_parent? hup]
        exact ⟨htext, hroom⟩
  · intro hboth
    obtain ⟨htext, hroom⟩ := hboth
    have hup := Path.parent?_of_directory htext
    obtain ⟨fault, hfault⟩ := (makeDirectories_refused_iff tree htext
      (Path.endsInStep_parent hup)).2 hroom
    exact ⟨_, _, .directoryRefused hup htext hroom hfault⟩

/-- The output is in the way if and only if there is no room for it,
whether or not its directory is in the way as well. -/
theorem output_refused_iff :
    (∃ cause messages, job.Obstacle tree 8 cause messages)
      ↔ ¬ tree.AdmitsFile job.output := by
  constructor
  · intro hsome
    obtain ⟨cause, messages, hob⟩ := hsome
    cases hob with
    | outputRefused hroom _ => exact hroom
  · intro hroom
    obtain ⟨fault, hfault⟩ := (store_refused_iff tree job.output).2 hroom
    exact ⟨_, _, .outputRefused hroom hfault⟩

/-- Past the obstacle of the directory, it can be made. -/
theorem prepared_of_clear (h : job.ClearBefore tree 8) :
    (tree.prepared job.output).result = .ok () := by
  rw [prepared_ok_iff]
  by_contra hno
  obtain ⟨cause, messages, hob⟩ := directory_refused_iff.2 (not_or.1 hno)
  have hle := h _ _ _ hob
  omega

/-- Past the obstacle of the output, there is room for it. -/
theorem admitsFile_of_clear (h : job.ClearBefore tree 9) :
    tree.AdmitsFile job.output := by
  by_contra hroom
  obtain ⟨cause, messages, hob⟩ := output_refused_iff.2 hroom
  have hle := h _ _ _ hob
  omega

-- ============================================================= the verdict

/-- With nothing in the way before it, an obstacle is what the extraction
fails at. -/
theorem extractTo_at_obstacle {n : Nat} {cause : Failure}
    {messages : List Text} (hob : job.Obstacle tree n cause messages)
    (hclear : job.ClearBefore tree n) :
    ((Layout.ofJob job).extractTo tree job.source job.output).value.result
      = .error cause := by
  cases hob with
  | sourceAbsent habsent =>
      exact Layout.extractTo_of_unread (readLines_of_absent habsent)
  | sourceDirectory hfinds =>
      exact Layout.extractTo_of_unread (readLines_of_directory hfinds)
  | sourceGarbled hfinds htext =>
      refine Layout.extractTo_of_unread ?_
      rw [readLines_of_file hfinds, htext]
  | anchorEmpty hnil =>
      obtain ⟨lines, hlines⟩ := hasLines_of_clear hclear
      refine Layout.extractTo_of_uncomposed (readLines_of_hasLines hlines) ?_
      rw [Layout.compose_of_error (Block.value_extract_nil hnil lines)]
  | @anchorMissing lines hlines hmissing =>
      have hne := anchor_ne_nil_of_clear hclear
      rw [← Block.findIdx?_occursIn_eq_none_iff] at hmissing
      refine Layout.extractTo_of_uncomposed (readLines_of_hasLines hlines) ?_
      rw [Layout.compose_of_error
        (Block.value_extract_missing job.block hne lines hmissing)]
      rfl
  | @blockOpen lines i hlines hstrict hstart hopen =>
      have hne := anchor_ne_nil_of_clear (hclear.mono (by omega))
      obtain ⟨excerpt, hexcerpt, hending, hanchor, hsize⟩ :=
        value_block_of_open hne hstart hopen
      refine Layout.extractTo_of_uncomposed (readLines_of_hasLines hlines) ?_
      rw [Layout.compose_of_refused hexcerpt hstrict hending, hanchor, hsize]
  | tailAnchorEmpty hnil =>
      obtain ⟨lines, hlines⟩ := hasLines_of_clear (hclear.mono (by omega))
      obtain ⟨excerpt, hexcerpt, haccept⟩ := block_of_clear hclear hlines
      refine Layout.extractTo_of_uncomposed (readLines_of_hasLines hlines) ?_
      rw [Layout.value_compose_of_accepted hexcerpt haccept]
      rcases Layout.value_tailLines_ofJob job lines with ⟨-, herror⟩
        | ⟨hsome, -⟩
      · rw [herror]
        rfl
      · exact absurd hnil hsome
  | @directoryRefused parent fault hup htext hroom hfault =>
      obtain ⟨lines, hlines⟩ := hasLines_of_clear (hclear.mono (by omega))
      obtain ⟨document, hdocument⟩ := document_of_clear hclear hlines
      rw [Layout.extractTo_of_composed (readLines_of_hasLines hlines)
        hdocument]
      have hdir := Path.directory_of_parent? hup
      have hprep : (tree.prepared job.output).result = .error fault := by
        unfold prepared
        rw [hdir, hfault]
      unfold writeText
      rw [write_eq, hprep, hdir]
      rfl
  | @outputRefused fault hroom hfault =>
      obtain ⟨lines, hlines⟩ := hasLines_of_clear (hclear.mono (by omega))
      obtain ⟨document, hdocument⟩ :=
        document_of_clear (hclear.mono (by omega)) hlines
      rw [Layout.extractTo_of_composed (readLines_of_hasLines hlines)
        hdocument]
      unfold writeText
      rw [write_eq, prepared_of_clear hclear]
      dsimp only
      unfold writeInto
      rw [hfault]
      rfl

/-- With nothing in the way at all, the extraction succeeds. -/
theorem extractTo_of_clear (h : job.ClearBefore tree 9) :
    ∃ document,
      ((Layout.ofJob job).extractTo tree job.source job.output).value.result
        = .ok document := by
  obtain ⟨lines, hlines⟩ := hasLines_of_clear (h.mono (by omega))
  obtain ⟨document, hdocument⟩ :=
    document_of_clear (h.mono (by omega)) hlines
  have hwrite : (tree.writeText job.output document.text).result = .ok () :=
    (write_ok_iff tree job.output _).2 (admitsFile_of_clear h)
  rw [Layout.extractTo_of_composed (readLines_of_hasLines hlines) hdocument,
    hwrite]
  exact ⟨document, rfl⟩

/-- For every job and tree: the job fails if and only if something is in
its way. What is reported then is the obstacle with the least number: the
source path in front, and after it what that obstacle says. -/
theorem run_fails_at_first_obstacle (job : Job) (tree : FileTree) :
    ((∃ failure, (job.run tree).value.result = .error failure)
        ↔ ∃ n cause messages, job.Obstacle tree n cause messages)
      ∧ ∀ n cause messages, job.Obstacle tree n cause messages →
          (∀ m cause' messages', job.Obstacle tree m cause' messages' →
            n ≤ m) →
          ∃ failure, (job.run tree).value.result = .error failure
            ∧ failure = .job job.source cause
            ∧ failure.chain
              = ("Failed to extract from ".toList ++ job.source.text)
                :: messages := by
  have hfirst : ∀ n cause messages, job.Obstacle tree n cause messages →
      job.ClearBefore tree n →
      (job.run tree).value.result = .error (.job job.source cause) := by
    intro n cause messages hob hclear
    rw [Job.value_run, extractTo_at_obstacle hob hclear]
    rfl
  refine ⟨⟨?_, ?_⟩, ?_⟩
  · intro hfails
    obtain ⟨failure, hfailure⟩ := hfails
    by_contra hnone
    have hclear : job.ClearBefore tree 9 := fun m cause messages hob =>
      absurd ⟨m, cause, messages, hob⟩ hnone
    obtain ⟨document, hdocument⟩ := extractTo_of_clear hclear
    rw [Job.value_run, hdocument] at hfailure
    cases hfailure
  · intro hsome
    -- among the obstacles there is one with the least number
    classical
    obtain ⟨cause, messages, hob⟩ := Nat.find_spec hsome
    refine ⟨_, hfirst _ cause messages hob ?_⟩
    intro m cause' messages' hob'
    exact Nat.find_min' hsome ⟨cause', messages', hob'⟩
  · intro n cause messages hob hclear
    refine ⟨_, hfirst n cause messages hob hclear, rfl, ?_⟩
    rw [Failure.chain, hob.chain_eq]

/-- A job without any anchor, for a source that the empty tree lacks. -/
def obstructed : Job :=
  { Job.standard with functionAnchor := [], tailAnchor := some [] }

/-- Its anchors are in the way, too, but the source is what it fails at. -/
theorem run_obstructed :
    obstructed.Obstacle .empty 3 (.excerpt .emptyAnchor)
        ["Anchor must not be empty".toList]
      ∧ ∃ failure,
        (obstructed.run .empty).value.result = .error failure
          ∧ failure = .job obstructed.source (.sourceMissing obstructed.source)
          ∧ failure.chain
            = ["Failed to extract from ".toList ++ obstructed.source.text,
              "Source file '".toList ++ obstructed.source.text
                ++ "' not found.".toList] := by
  have habsent : ∀ loc,
      FileTree.empty.resolve obstructed.source ≠ .ok loc := by
    intro loc
    have hmissing : FileTree.empty.resolve obstructed.source
        = .error .notFound := rfl
    rw [hmissing]
    exact fun h => by cases h
  refine ⟨.anchorEmpty rfl, ?_⟩
  refine (run_fails_at_first_obstacle obstructed .empty).2 1 _ _
    (.sourceAbsent habsent) ?_
  intro m cause messages hob
  cases hob <;> decide

end Job

end BraceLift
