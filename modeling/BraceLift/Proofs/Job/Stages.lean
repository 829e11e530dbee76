/-
The stages of a job, one after the other: the source is read, the
document composed, the output written.

Each stage has one lemma for the way it goes well and one for the way it
fails, and these are all that later files use. What reading comes to is
decided by what the source path leads to (`readLines_of_absent`,
`readLines_of_directory`, `readLines_of_file`); a text that was written
is read back as its lines, since bytes of a text spell that text
(`ofBytes?_bytes`). A whole job is an extraction whose failure carries
the source in front (`value_run`).
-/
import BraceLift.Proofs.File.Effect
import BraceLift.Proofs.Text.Encoding

namespace BraceLift

namespace FileTree

-- ============================================================== reading

variable {tree : FileTree} {source : Path}

theorem readLines_of_absent (h : ∀ loc, tree.resolve source ≠ .ok loc) :
    tree.readLines source = .error (.sourceMissing source) := by
  unfold readLines
  cases hr : tree.resolve source with
  | error fault => rfl
  | ok loc => exact absurd hr (h loc)

theorem readLines_of_directory (h : tree.Finds source .directory) :
    tree.readLines source
      = .error (.sourceUnreadable source .isDirectory) := by
  obtain ⟨loc, hr, hat⟩ := h
  unfold readLines content
  simp only [hr, hat]

/-- The lines of a file are those of the text its bytes spell. -/
theorem readLines_of_file {b : ByteArray} (h : tree.Finds source (.file b)) :
    tree.readLines source
      = match Text.ofBytes? b with
        | none => .error (.sourceUnreadable source .notText)
        | some text => .ok text.splitLines := by
  obtain ⟨loc, hr, hat⟩ := h
  unfold readLines content
  cases htext : Text.ofBytes? b with
  | none => simp only [hr, hat, htext]
  | some text => simp only [hr, hat, htext]

/-- A file that was just filled with a text has the lines of the text. -/
theorem readLines_of_fills {old : FileTree} {loc : Loc} {text : Text}
    (hr : tree.resolve source = .ok loc)
    (hfills : old.Fills tree loc text.bytes) :
    tree.readLines source = .ok text.splitLines := by
  have hat : tree.at? loc = some (.file text.bytes) := by
    rw [hfills.at?_eq, if_pos rfl]
  rw [readLines_of_file ⟨loc, hr, hat⟩, Text.ofBytes?_bytes]

/-- A text that was written is read back as its lines. -/
theorem readLines_of_writeText {output : Path} {text : Text}
    (h : (tree.writeText output text).result = .ok ()) :
    (tree.writeText output text).tree.readLines output
      = .ok text.splitLines := by
  obtain ⟨-, loc, hr, hfills⟩ := write_ok h
  exact readLines_of_fills hr hfills

end FileTree

-- =========================================================== extraction

namespace Layout

variable {layout : Layout} {tree : FileTree} {source output : Path}

/-- A source that cannot be read ends the extraction. -/
theorem extractTo_of_unread {failure : Failure}
    (h : tree.readLines source = .error failure) :
    (layout.extractTo tree source output).value.result
      = .error failure := by
  unfold extractTo
  rw [h]
  rfl

/-- Lines that give no document end it, too. -/
theorem extractTo_of_uncomposed {lines : List Line} {cause : ExcerptError}
    (hread : tree.readLines source = .ok lines)
    (h : (layout.compose lines).value = .error cause) :
    (layout.extractTo tree source output).value.result
      = .error (.excerpt cause) := by
  unfold extractTo
  rw [hread]
  simp only [Logged.value_andThen]
  rw [h]
  rfl

/-- A document that is composed is only left to be written, and writing
tells nothing. -/
theorem extractTo_eq {lines : List Line} {document : Document}
    (hread : tree.readLines source = .ok lines)
    (h : (layout.compose lines).value = .ok document) :
    layout.extractTo tree source output
      = ⟨⟨(tree.writeText output document.text).tree,
            (tree.writeText output document.text).result.map
              fun _ => document⟩,
          (layout.compose lines).records⟩ := by
  unfold extractTo Logged.andThen
  rw [hread]
  dsimp only
  rw [h]
  simp only [Logged.quiet, List.append_nil]

theorem extractTo_of_composed {lines : List Line} {document : Document}
    (hread : tree.readLines source = .ok lines)
    (h : (layout.compose lines).value = .ok document) :
    (layout.extractTo tree source output).value.result
      = (tree.writeText output document.text).result.map
          fun _ => document := by
  rw [extractTo_eq hread h]

/-- An extraction that succeeds has read the source as it was, composed
its document from that, and written the text of it. -/
theorem extractTo_ok {document : Document}
    (h : (layout.extractTo tree source output).value.result = .ok document) :
    ∃ lines, tree.readLines source = .ok lines
      ∧ (layout.compose lines).value = .ok document
      ∧ (tree.writeText output document.text).result = .ok ()
      ∧ (layout.extractTo tree source output).value.tree
        = (tree.writeText output document.text).tree := by
  cases hread : tree.readLines source with
  | error failure =>
      rw [extractTo_of_unread hread] at h
      cases h
  | ok lines =>
      cases hcompose : (layout.compose lines).value with
      | error cause =>
          rw [extractTo_of_uncomposed hread hcompose] at h
          cases h
      | ok composed =>
          rw [extractTo_of_composed hread hcompose] at h
          cases hwrite : (tree.writeText output composed.text).result with
          | error failure =>
              rw [hwrite] at h
              cases h
          | ok _ =>
              rw [hwrite] at h
              cases h
              refine ⟨lines, rfl, hcompose, hwrite, ?_⟩
              rw [extractTo_eq hread hcompose]

/-- An extraction that fails does so in one of its stages, and the tree
is what that stage left. -/
theorem extractTo_error {failure : Failure}
    (h : (layout.extractTo tree source output).value.result
      = .error failure) :
    (tree.readLines source = .error failure
        ∧ (layout.extractTo tree source output).value.tree = tree)
      ∨ (∃ lines cause, tree.readLines source = .ok lines
        ∧ (layout.compose lines).value = .error cause
        ∧ failure = .excerpt cause
        ∧ (layout.extractTo tree source output).value.tree = tree)
      ∨ (∃ lines document, tree.readLines source = .ok lines
        ∧ (layout.compose lines).value = .ok document
        ∧ (tree.writeText output document.text).result = .error failure
        ∧ (layout.extractTo tree source output).value.tree
          = (tree.writeText output document.text).tree) := by
  unfold extractTo at h ⊢
  cases hread : tree.readLines source with
  | error cause =>
      rw [hread] at h
      cases h
      exact .inl ⟨rfl, rfl⟩
  | ok lines =>
      rw [hread] at h
      simp only [Logged.value_andThen] at h ⊢
      cases hcompose : (layout.compose lines).value with
      | error cause =>
          rw [hcompose] at h
          cases h
          exact .inr (.inl ⟨lines, cause, rfl, hcompose, rfl, rfl⟩)
      | ok composed =>
          rw [hcompose] at h
          simp only [Logged.quiet] at h ⊢
          cases hwrite : (tree.writeText output composed.text).result with
          | error cause =>
              rw [hwrite] at h
              cases h
              exact .inr (.inr ⟨lines, composed, rfl, hcompose, hwrite, rfl⟩)
          | ok _ =>
              rw [hwrite] at h
              cases h

end Layout

/-- A job is an extraction whose failure carries the source in front. -/
theorem Job.value_run (job : Job) (tree : FileTree) :
    (job.run tree).value
      = ⟨((Layout.ofJob job).extractTo tree job.source job.output).value.tree,
          ((Layout.ofJob job).extractTo tree job.source
            job.output).value.result.mapError (.job job.source)⟩ := by
  unfold run
  simp only [Logged.value_andThen]
  cases hresult : ((Layout.ofJob job).extractTo tree job.source
      job.output).value.result with
  | error cause => rfl
  | ok document => rfl

/-- A job goes well if and only if its extraction does. -/
theorem Job.run_eq_ok_iff {job : Job} {tree : FileTree}
    {document : Document} :
    (job.run tree).value.result = .ok document
      ↔ ((Layout.ofJob job).extractTo tree job.source
          job.output).value.result = .ok document := by
  rw [value_run]
  cases ((Layout.ofJob job).extractTo tree job.source
      job.output).value.result with
  | error cause => exact ⟨nofun, nofun⟩
  | ok written => rfl

/-- A job fails if and only if its extraction does. -/
theorem Job.run_eq_error_iff {job : Job} {tree : FileTree}
    {failure : Failure} :
    (job.run tree).value.result = .error failure
      ↔ ∃ cause, ((Layout.ofJob job).extractTo tree job.source
          job.output).value.result = .error cause
        ∧ failure = .job job.source cause := by
  rw [value_run]
  cases ((Layout.ofJob job).extractTo tree job.source
      job.output).value.result with
  | error cause =>
      constructor
      · intro h
        cases h
        exact ⟨cause, rfl, rfl⟩
      · rintro ⟨_, h, rfl⟩
        cases h
        rfl
  | ok document =>
      constructor
      · intro h
        cases h
      · rintro ⟨_, h, -⟩
        cases h

end BraceLift
