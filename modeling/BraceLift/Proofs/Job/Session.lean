/-
Any number of file actions, one after the other: the last writer wins,
and nothing else changes.

A session runs actions over a tree and notes the writings of those that
succeed. One action either writes, and then it prepares directories and
fills the one file its output leads to, or it does not, and then it adds
directories at most (`perform_writing`, `perform_quiet`). Both are
growths, so an output leads in the final tree to the file it led to when
it was written, however it was spelled; that is why the final tree alone
decides whose writing is the last one for a file (`IsLastAt`).

`session_last_writer` is by induction over the actions. The invariant
that carries it is about the final tree: a file holds the last writing
that leads to it among those still to come or, if there is none, what it
holds now.
-/
import BraceLift.Proofs.Job.Frame

namespace BraceLift

-- ============================================================== actions

/-- What can be done with files. -/
inductive FileAction where
  | read (source : Path)
  | write (output : Path) (text : Text)
  | extract (layout : Layout) (source output : Path)
  | run (job : Job)

/-- What an action that succeeds gives. -/
inductive FileAnswer where
  | lines (lines : List Line)
  | written
  | document (document : Document)

/-- A text that was written, and the path it was written to. -/
structure Writing where
  output : Path
  text : Text

namespace FileAction

/-- Does the action on a tree. -/
def perform (tree : FileTree) : FileAction → Outcome Failure FileAnswer
  | .read source => ⟨tree, (tree.readLines source).map .lines⟩
  | .write output text =>
      let outcome := tree.writeText output text
      ⟨outcome.tree, outcome.result.map fun _ => .written⟩
  | .extract layout source output =>
      let outcome := (layout.extractTo tree source output).value
      ⟨outcome.tree, outcome.result.map .document⟩
  | .run job =>
      let outcome := (job.run tree).value
      ⟨outcome.tree, outcome.result.map .document⟩

/-- What the action has written if it gave this: the text it was given,
or the one of the document it composed. -/
def writing? : FileAction → Except Failure FileAnswer → Option Writing
  | .write output text, .ok _ => some ⟨output, text⟩
  | .extract _ _ output, .ok (.document document) =>
      some ⟨output, document.text⟩
  | .run job, .ok (.document document) => some ⟨job.output, document.text⟩
  | _, _ => none

end FileAction

/-- Where a session has got: the tree, and what was written by the
actions that succeeded, in their order. -/
structure Session where
  tree : FileTree
  writings : List Writing

/-- Does some actions, one after the other, also those after a failure. -/
def Session.after (tree : FileTree) : List FileAction → Session
  | [] => ⟨tree, []⟩
  | action :: rest =>
      let outcome := action.perform tree
      let later := after outcome.tree rest
      ⟨later.tree,
        (action.writing? outcome.result).toList ++ later.writings⟩

namespace Session

/-- Whether a writing is the last one whose output leads to a place. -/
def IsLastAt (s : Session) (loc : Loc) (w : Writing) : Prop :=
  ∃ before later, s.writings = before ++ w :: later
    ∧ s.tree.resolve w.output = .ok loc
    ∧ ∀ v ∈ later, s.tree.resolve v.output ≠ .ok loc

end Session

-- ================================================== what one action does

namespace FileAction

open FileTree

variable {tree : FileTree}

/-- An action has written, after preparing directories, the one file
that its output then leads to. -/
def HasWritten (tree new : FileTree) (w : Writing) : Prop :=
  ∃ loc, new.resolve w.output = .ok loc
    ∧ (tree.prepared w.output).tree.Fills new loc w.text.bytes

/-- An action has added directories at most. -/
def HasSprouted (tree new : FileTree) : Prop :=
  ∃ P, tree.Sprouts new P

private theorem sprouted_of_writeText {output : Path} {text : Text}
    {failure : Failure}
    (h : (tree.writeText output text).result = .error failure) :
    HasSprouted tree (tree.writeText output text).tree := by
  obtain ⟨htree, -⟩ := write_error h
  have hprep := sprouts_prepared tree output
  rw [← htree] at hprep
  exact ⟨_, hprep⟩

/-- An extraction writes the text of the document it gives. -/
private theorem written_of_extract {layout : Layout} {source output : Path}
    {w : Writing}
    (h : (extract layout source output).writing?
      ((extract layout source output).perform tree).result = some w) :
    HasWritten tree ((extract layout source output).perform tree).tree w := by
  simp only [perform] at h ⊢
  cases hresult : (layout.extractTo tree source output).value.result with
  | error failure =>
      rw [hresult] at h
      cases h
  | ok document =>
      rw [hresult] at h
      cases h
      obtain ⟨lines, -, -, hwrite, htree⟩ := Layout.extractTo_ok hresult
      rw [htree]
      exact (write_ok hwrite).2

private theorem sprouted_of_extract {layout : Layout} {source output : Path}
    (h : (extract layout source output).writing?
      ((extract layout source output).perform tree).result = none) :
    HasSprouted tree ((extract layout source output).perform tree).tree := by
  simp only [perform] at h ⊢
  cases hresult : (layout.extractTo tree source output).value.result with
  | error failure =>
      rcases Layout.extractTo_error hresult with ⟨-, htree⟩
        | ⟨-, -, -, -, -, htree⟩ | ⟨lines, document, -, -, hwrite, htree⟩
      · rw [htree]
        exact ⟨fun _ => False, .refl tree _⟩
      · rw [htree]
        exact ⟨fun _ => False, .refl tree _⟩
      · rw [htree]
        exact sprouted_of_writeText hwrite
  | ok document =>
      rw [hresult] at h
      cases h

/-- A job changes files as the extraction does that it asks for. -/
private theorem perform_run (tree : FileTree) (job : Job) :
    ((run job).perform tree).tree
        = ((extract (.ofJob job) job.source job.output).perform tree).tree
      ∧ (run job).writing? ((run job).perform tree).result
        = (extract (.ofJob job) job.source job.output).writing?
            ((extract (.ofJob job) job.source job.output).perform
              tree).result := by
  simp only [perform, Job.value_run, true_and]
  cases ((Layout.ofJob job).extractTo tree job.source
    job.output).value.result with
  | error failure => rfl
  | ok document => rfl

theorem perform_writing {action : FileAction} {w : Writing}
    (h : action.writing? (action.perform tree).result = some w) :
    HasWritten tree (action.perform tree).tree w := by
  cases action with
  | read source => cases h
  | write output text =>
      simp only [perform] at h ⊢
      cases hresult : (tree.writeText output text).result with
      | error failure =>
          rw [hresult] at h
          cases h
      | ok _ =>
          rw [hresult] at h
          cases h
          exact (write_ok hresult).2
  | extract layout source output => exact written_of_extract h
  | run job =>
      obtain ⟨htree, hwriting⟩ := perform_run tree job
      rw [hwriting] at h
      rw [htree]
      exact written_of_extract h

theorem perform_quiet {action : FileAction}
    (h : action.writing? (action.perform tree).result = none) :
    HasSprouted tree (action.perform tree).tree := by
  cases action with
  | read source => exact ⟨fun _ => False, .refl tree _⟩
  | write output text =>
      simp only [perform] at h ⊢
      cases hresult : (tree.writeText output text).result with
      | error failure => exact sprouted_of_writeText hresult
      | ok _ =>
          rw [hresult] at h
          cases h
  | extract layout source output => exact sprouted_of_extract h
  | run job =>
      obtain ⟨htree, hwriting⟩ := perform_run tree job
      rw [hwriting] at h
      rw [htree]
      exact sprouted_of_extract h

theorem HasWritten.growsTo {new : FileTree} {w : Writing}
    (h : HasWritten tree new w) : tree.GrowsTo new := by
  obtain ⟨loc, -, hfills⟩ := h
  exact (sprouts_prepared tree w.output).growsTo.trans hfills.growsTo

/-- Outside the file it fills, a writing leaves every file as it was. -/
theorem HasWritten.file_iff {new : FileTree} {w : Writing} {loc : Loc}
    (h : HasWritten tree new w) (hloc : new.resolve w.output ≠ .ok loc)
    (b : ByteArray) :
    new.at? loc = some (.file b) ↔ tree.at? loc = some (.file b) := by
  obtain ⟨place, hr, hfills⟩ := h
  have hne : loc ≠ place := fun heq => hloc (heq ▸ hr)
  rw [hfills.at?_eq, if_neg hne]
  exact (sprouts_prepared tree w.output).file_iff loc b

/-- The file it fills holds the text that was written. -/
theorem HasWritten.at?_eq {new : FileTree} {w : Writing} {loc : Loc}
    (h : HasWritten tree new w) (hloc : new.resolve w.output = .ok loc) :
    new.at? loc = some (.file w.text.bytes) := by
  obtain ⟨place, hr, hfills⟩ := h
  rw [hr] at hloc
  cases hloc
  rw [hfills.at?_eq, if_pos rfl]

/-- Whatever comes of it, an action is a growth. -/
theorem growsTo_perform (tree : FileTree) (action : FileAction) :
    tree.GrowsTo (action.perform tree).tree := by
  cases h : action.writing? (action.perform tree).result with
  | none =>
      obtain ⟨P, hsprouts⟩ := perform_quiet h
      exact hsprouts.growsTo
  | some w => exact (perform_writing h).growsTo

end FileAction

-- =============================================================== sessions

namespace Session

open FileTree

/-- A session is a growth. -/
theorem growsTo_after (tree : FileTree) (actions : List FileAction) :
    tree.GrowsTo (after tree actions).tree := by
  induction actions generalizing tree with
  | nil => exact .refl tree
  | cons action rest ih =>
      exact (FileAction.growsTo_perform tree action).trans (ih _)

/-- Doing some actions and then others is doing them all. -/
theorem tree_after_append (tree : FileTree) (xs ys : List FileAction) :
    (after tree (xs ++ ys)).tree = (after (after tree xs).tree ys).tree := by
  induction xs generalizing tree with
  | nil => rfl
  | cons action rest ih => exact ih _

/-- One earlier writing is the last at a place only if no later one leads
there. -/
private theorem isLastAt_cons {final : FileTree} {w : Writing}
    {ws : List Writing} {loc : Loc} {v : Writing} :
    (Session.mk final (w :: ws)).IsLastAt loc v
      ↔ (Session.mk final ws).IsLastAt loc v
        ∨ v = w ∧ final.resolve w.output = .ok loc
          ∧ ∀ u ∈ ws, final.resolve u.output ≠ .ok loc := by
  constructor
  · intro hall
    obtain ⟨before, later, heq, hr, hlater⟩ := hall
    cases before with
    | nil =>
        cases heq
        exact .inr ⟨rfl, hr, hlater⟩
    | cons u before =>
        cases heq
        exact .inl ⟨before, later, rfl, hr, hlater⟩
  · intro hcases
    rcases hcases with ⟨before, later, heq, hr, hlater⟩ | ⟨rfl, hr, hlater⟩
    · exact ⟨w :: before, later, congrArg (w :: ·) heq, hr, hlater⟩
    · exact ⟨[], ws, rfl, hr, hlater⟩

/-- Where the output of a writing leads after the action leads there at
the end as well, so it leads to a place at the end if and only if it did. -/
private theorem resolve_after_iff {tree mid : FileTree} {w : Writing}
    (h : FileAction.HasWritten tree mid w) (rest : List FileAction)
    (loc : Loc) :
    (after mid rest).tree.resolve w.output = .ok loc
      ↔ mid.resolve w.output = .ok loc := by
  obtain ⟨place, hr, -⟩ := h
  have hend := (growsTo_after mid rest).resolve hr
  rw [hr, hend]

/-- A file holds the last writing that leads to it or, if none does, what
it held at first. -/
theorem file_after_iff (tree : FileTree) (actions : List FileAction)
    (loc : Loc) (b : ByteArray) :
    (after tree actions).tree.at? loc = some (.file b)
      ↔ (∃ w, (after tree actions).IsLastAt loc w ∧ b = w.text.bytes)
        ∨ (∀ w ∈ (after tree actions).writings,
            (after tree actions).tree.resolve w.output ≠ .ok loc)
          ∧ tree.at? loc = some (.file b) := by
  induction actions generalizing tree with
  | nil =>
      constructor
      · exact fun h => .inr ⟨List.forall_mem_nil _, h⟩
      · intro hcases
        rcases hcases with ⟨w, ⟨before, later, heq, -⟩, -⟩ | ⟨-, h⟩
        · simp [after] at heq
        · exact h
  | cons action rest ih =>
      have ih := ih (action.perform tree).tree
      cases hw : action.writing? (action.perform tree).result with
      | none =>
          obtain ⟨P, hsprouts⟩ := FileAction.perform_quiet hw
          rw [hsprouts.file_iff] at ih
          simp only [after, hw, Option.toList_none, List.nil_append]
          exact ih
      | some w =>
          have hwritten := FileAction.perform_writing hw
          have hends := resolve_after_iff hwritten rest loc
          simp only [after, hw, Option.toList_some, List.singleton_append,
            isLastAt_cons, List.forall_mem_cons]
          rw [ih]
          -- what is held now counts only if no later writing leads here
          constructor
          · intro hcases
            rcases hcases with ⟨v, hlast, hb⟩ | ⟨hnone, hheld⟩
            · exact .inl ⟨v, .inl hlast, hb⟩
            · by_cases hr : (action.perform tree).tree.resolve w.output
                  = .ok loc
              · rw [hwritten.at?_eq hr] at hheld
                cases hheld
                exact .inl ⟨w, .inr ⟨rfl, hends.2 hr, hnone⟩, rfl⟩
              · rw [hwritten.file_iff hr] at hheld
                exact .inr ⟨⟨fun h => hr (hends.1 h), hnone⟩, hheld⟩
          · intro hcases
            rcases hcases with ⟨v, hlast | ⟨rfl, hr, hnone⟩, hb⟩
              | ⟨⟨hr, hnone⟩, hheld⟩
            · exact .inl ⟨v, hlast, hb⟩
            · exact .inr ⟨hnone, hb ▸ hwritten.at?_eq (hends.1 hr)⟩
            · exact .inr ⟨hnone,
                (hwritten.file_iff (fun h => hr (hends.2 h)) b).2 hheld⟩

/-- The output of every writing leads in the end to where it led when it
was written. -/
theorem resolve_writing {tree : FileTree} {before later : List FileAction}
    {action : FileAction} {w : Writing}
    (hw : action.writing? (action.perform (after tree before).tree).result
      = some w) :
    ∃ loc, (action.perform (after tree before).tree).tree.resolve w.output
        = .ok loc
      ∧ (after tree (before ++ action :: later)).tree.resolve w.output
        = .ok loc := by
  obtain ⟨loc, hr, -⟩ := FileAction.perform_writing hw
  refine ⟨loc, hr, ?_⟩
  rw [tree_after_append]
  exact (growsTo_after _ later).resolve hr

-- ========================================================== the last writer

/-- After any actions, of which some may fail: a file holds the text of
the last writing that leads to it or, if none does, what it held at
first; so every file was there or was written. What is there stays there
and of its kind, and an output leads to the same place for good. A text
just written is read back as its lines; and so is the text of a document
just extracted, which was composed of the source as it was before. -/
theorem session_last_writer (tree : FileTree) (actions : List FileAction) :
    (∀ loc b, (after tree actions).tree.at? loc = some (.file b)
        ↔ (∃ w, (after tree actions).IsLastAt loc w ∧ b = w.text.bytes)
          ∨ (∀ w ∈ (after tree actions).writings,
              (after tree actions).tree.resolve w.output ≠ .ok loc)
            ∧ tree.at? loc = some (.file b))
      ∧ (∀ loc b, (after tree actions).tree.at? loc = some (.file b) →
          (∃ b₀, tree.at? loc = some (.file b₀))
            ∨ ∃ w ∈ (after tree actions).writings,
                (after tree actions).tree.resolve w.output = .ok loc)
      ∧ tree.GrowsTo (after tree actions).tree
      ∧ (∀ before action later w, actions = before ++ action :: later →
          action.writing? (action.perform (after tree before).tree).result
            = some w →
          ∃ loc,
            (action.perform (after tree before).tree).tree.resolve w.output
                = .ok loc
              ∧ (after tree actions).tree.resolve w.output = .ok loc)
      ∧ (∀ output text,
          ((after tree actions).tree.writeText output text).result
              = .ok () →
          ((after tree actions).tree.writeText output text).tree.readLines
              output
            = .ok text.splitLines)
      ∧ (∀ (layout : Layout) source output document,
          (layout.extractTo (after tree actions).tree source
              output).value.result = .ok document →
          (layout.extractTo (after tree actions).tree source
              output).value.tree.readLines output
              = .ok document.text.splitLines
            ∧ ∃ lines, (after tree actions).tree.readLines source = .ok lines
              ∧ (layout.compose lines).value = .ok document) := by
  refine ⟨file_after_iff tree actions, ?_, growsTo_after tree actions, ?_,
    ?_, ?_⟩
  · intro loc b h
    rcases (file_after_iff tree actions loc b).1 h with
      ⟨w, ⟨before, later, heq, hr, -⟩, -⟩ | ⟨-, hfirst⟩
    · refine .inr ⟨w, ?_, hr⟩
      rw [heq]
      exact List.mem_append_right _ (List.mem_cons_self ..)
    · exact .inl ⟨b, hfirst⟩
  · intro before action later w heq hw
    subst heq
    exact resolve_writing hw
  · exact fun output text h => readLines_of_writeText h
  · intro layout source output document h
    obtain ⟨lines, hread, hcompose, hwrite, htree⟩ := Layout.extractTo_ok h
    rw [htree]
    exact ⟨readLines_of_writeText hwrite, lines, hread, hcompose⟩

/-- A layout for the block of a source of one line. -/
def briefLayout : Layout :=
  .ofJob { Job.standard with functionAnchor := "fn f".toList }

/-- One file, written twice under two spellings of its path. The writing
behind these is refused, for it asks for a directory in place of the
file. -/
def twoSpellings : List FileAction :=
  [.write (.ofString "o") "x".toList,
    .write (.ofString "./o") "fn f {}\n".toList,
    .write (.ofString "o/x") "y".toList]

/-- After them, an extraction out of the file and into it. -/
def inPlace : List FileAction :=
  twoSpellings ++ [.extract briefLayout (.ofString "o") (.ofString "./o")]

/-- The document of that extraction. -/
def replacement : Document :=
  briefLayout.document .closed ["pub fn f {}\n".toList] []

/-- The refused writing counts for nothing. The file holds the document
that was composed of what it held before, and the file beside it holds
what it held at first. -/
theorem after_inPlace :
    (after oneLiner inPlace).writings
        = [⟨.ofString "o", "x".toList⟩,
          ⟨.ofString "./o", "fn f {}\n".toList⟩,
          ⟨.ofString "./o", replacement.text⟩]
      ∧ (after oneLiner inPlace).tree.at? ["o".toList]
        = some (.file replacement.text.bytes)
      ∧ (after oneLiner inPlace).tree.at? ["s".toList]
        = some (.file (Text.bytes "fn f {}\n".toList))
      ∧ (∃ w ∈ (after oneLiner inPlace).writings,
          (after oneLiner inPlace).tree.resolve w.output
            = .ok ["o".toList])
      ∧ oneLiner.GrowsTo (after oneLiner inPlace).tree
      ∧ (∃ loc,
          (FileAction.perform oneLiner
              (.write (.ofString "o") "x".toList)).tree.resolve
              (.ofString "o") = .ok loc
            ∧ (after oneLiner inPlace).tree.resolve (.ofString "o")
              = .ok loc)
      ∧ ((after oneLiner inPlace).tree.writeText (.ofString "d/p")
            "a\nb".toList).tree.readLines (.ofString "d/p")
        = .ok ["a\n".toList, "b".toList]
      ∧ (briefLayout.extractTo (after oneLiner twoSpellings).tree
            (.ofString "o") (.ofString "./o")).value.result
        = .ok replacement
      ∧ (briefLayout.extractTo (after oneLiner twoSpellings).tree
            (.ofString "o") (.ofString "./o")).value.tree.readLines
            (.ofString "./o")
        = .ok replacement.text.splitLines
      ∧ ∃ lines,
          (after oneLiner twoSpellings).tree.readLines (.ofString "o")
              = .ok lines
            ∧ (briefLayout.compose lines).value = .ok replacement := by
  obtain ⟨hfile, horigin, hgrows, hplace, hwrite, -⟩ :=
    session_last_writer oneLiner inPlace
  obtain ⟨-, -, -, -, -, hextract⟩ :=
    session_last_writer oneLiner twoSpellings
  have hwritings : (after oneLiner inPlace).writings
      = [⟨.ofString "o", "x".toList⟩,
        ⟨.ofString "./o", "fn f {}\n".toList⟩,
        ⟨.ofString "./o", replacement.text⟩] := rfl
  have hlast : (after oneLiner inPlace).IsLastAt ["o".toList]
      ⟨.ofString "./o", replacement.text⟩ :=
    ⟨_ :: _ :: [], [], hwritings, rfl, List.forall_mem_nil _⟩
  have hbeside : ∀ w ∈ (after oneLiner inPlace).writings,
      (after oneLiner inPlace).tree.resolve w.output
        ≠ .ok ["s".toList] := by
    intro w hw
    have hleads : (after oneLiner inPlace).tree.resolve w.output
        = .ok ["o".toList] := by
      simp only [hwritings, List.mem_cons, List.not_mem_nil, or_false] at hw
      rcases hw with rfl | rfl | rfl
      · rfl
      · rfl
      · rfl
    rw [hleads]
    simp
  have hheld := (hfile ["o".toList] _).2 (.inl ⟨_, hlast, rfl⟩)
  have hnew : ¬ ∃ b, oneLiner.at? ["o".toList] = some (.file b) := by
    intro hsome
    obtain ⟨b, hb⟩ := hsome
    cases hb
  have hdone : (briefLayout.extractTo (after oneLiner twoSpellings).tree
      (.ofString "o") (.ofString "./o")).value.result
        = .ok replacement := rfl
  refine ⟨hwritings, hheld, (hfile _ _).2 (.inr ⟨hbeside, rfl⟩),
    (horigin _ _ hheld).resolve_left hnew, hgrows, ?_,
    hwrite (.ofString "d/p") "a\nb".toList rfl, hdone,
    hextract _ _ _ _ hdone⟩
  exact hplace [] (.write (.ofString "o") "x".toList) inPlace.tail _ rfl rfl

end Session

end BraceLift
