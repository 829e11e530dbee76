/-
Carrying out a job: read the source, lay out the document, write it.

The source is read and the document complete before anything is
written, so a failure up to there leaves the file tree as it was. After
it, directories may have been made for an output that is then refused.
-/
import BraceLift.Document
import BraceLift.File.Change
import BraceLift.Job.Failure
import BraceLift.Text.Lines

namespace BraceLift

namespace FileTree

/-- The lines of a file. -/
def readLines (tree : FileTree) (source : Path) :
    Except Failure (List Line) :=
  match tree.resolve source with
  | .error _ => .error (.sourceMissing source)
  | .ok _ =>
      match tree.content source with
      | .error fault => .error (.sourceUnreadable source fault)
      | .ok content =>
          match Text.ofBytes? content with
          | none => .error (.sourceUnreadable source .notText)
          | some text => .ok text.splitLines

/-- Writes a file whose directory is there. -/
def writeInto (tree : FileTree) (output : Path) (content : ByteArray) :
    Outcome Failure Unit :=
  match tree.store output content with
  | .error fault => ⟨tree, .error (.outputRefused output fault)⟩
  | .ok written => ⟨written, .ok ()⟩

/-- Writes a file, making the directories above it as needed. A path
without a directory part needs none. -/
def write (tree : FileTree) (output : Path) (content : ByteArray) :
    Outcome Failure Unit :=
  match output.parent? with
  | none => tree.writeInto output content
  | some directory =>
      if directory.text = [] then tree.writeInto output content
      else
        let made := tree.makeDirectories directory
        match made.result with
        | .error fault =>
            ⟨made.tree, .error (.directoryRefused directory fault)⟩
        | .ok () => made.tree.writeInto output content

/-- Writes a text in UTF-8. -/
def writeText (tree : FileTree) (output : Path) (text : Text) :
    Outcome Failure Unit :=
  tree.write output text.bytes

end FileTree

/-- Reads the source, lays out the document and writes it. -/
def Layout.extractTo (layout : Layout) (tree : FileTree)
    (source output : Path) : Logged (Outcome Failure Document) :=
  match tree.readLines source with
  | .error failure => .quiet ⟨tree, .error failure⟩
  | .ok lines =>
      (layout.compose lines).andThen fun
        | .error cause => .quiet ⟨tree, .error (.excerpt cause)⟩
        | .ok document =>
            let written := tree.writeText output document.text
            .quiet ⟨written.tree, written.result.map fun _ => document⟩

/-- Carries out a job. -/
def Job.run (job : Job) (tree : FileTree) :
    Logged (Outcome Failure Document) :=
  (Logged.noting (.started job) ()).andThen fun _ =>
    ((Layout.ofJob job).extractTo tree job.source job.output).andThen
      fun outcome =>
        match outcome.result with
        | .error cause =>
            .quiet ⟨outcome.tree, .error (.job job.source cause)⟩
        | .ok document =>
            .noting
              (.wrote document.blockLines document.tailLines job.output)
              ⟨outcome.tree, .ok document⟩

end BraceLift
