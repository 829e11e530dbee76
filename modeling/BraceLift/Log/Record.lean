/-
The records a run leaves in its log, and results that carry them.

A record says what happened; its severity, its emitter and its wording
follow from that. `Logged` pairs a result with the records made on the
way to it, oldest first.
-/
import BraceLift.Job

namespace BraceLift

/-- How much a record matters. -/
inductive Severity where
  | warn
  | debug
  deriving DecidableEq, Repr

/-- The name of a severity in the log. -/
def Severity.name : Severity → Text
  | .warn => "WARN".toList
  | .debug => "DEBUG".toList

/-- The part of the tool a record comes from. -/
inductive Emitter where
  | block
  | tail
  | document
  | job
  deriving DecidableEq, Repr

/-- The name by which a filter selects an emitter. -/
def Emitter.target : Emitter → Text
  | .block => "block_extractor::scanner".toList
  | .tail => "trailing_region".toList
  | .document => "snippet_assembler".toList
  | .job => "extract_snippet".toList

/-- What can happen in a run. -/
inductive Record where
  /-- A job starts. -/
  | started (job : Job)
  /-- A line contains the anchor of a block. -/
  | matched (anchor : Text) (line : Line)
  /-- The block closed with so many lines. -/
  | closed (anchor : Text) (lines : Nat)
  /-- The input ended while the block was open. -/
  | stillOpen (anchor : Text) (depth : Int)
  /-- A block that never closed is kept all the same. -/
  | keptOpen (anchor : Text) (lines : Nat)
  /-- The region from an anchor on, whose first line has this number. -/
  | tailTaken (anchor : Text) (lineNumber kept dropped : Nat)
  /-- No line contains the anchor of the region. -/
  | tailMissing (anchor : Text)
  /-- A document was written. -/
  | wrote (blockLines tailLines : Nat) (output : Path)
  deriving DecidableEq

namespace Record

/-- How much the record matters. -/
def severity : Record → Severity
  | .keptOpen .. | .tailMissing .. => .warn
  | _ => .debug

/-- The part of the tool the record comes from. -/
def emitter : Record → Emitter
  | .started .. | .wrote .. => .job
  | .matched .. | .closed .. | .stillOpen .. => .block
  | .keptOpen .. | .tailMissing .. => .document
  | .tailTaken .. => .tail

end Record

/-- A result with the records made on the way to it, oldest first. -/
structure Logged (α : Type) where
  value : α
  records : List Record

namespace Logged

variable {α β : Type}

/-- A result without any record. -/
def quiet (value : α) : Logged α := ⟨value, []⟩

/-- A result that leaves one record. -/
def noting (record : Record) (value : α) : Logged α := ⟨value, [record]⟩

/-- Goes on from a result; the records follow one another. -/
def andThen (x : Logged α) (f : α → Logged β) : Logged β :=
  let y := f x.value
  ⟨y.value, x.records ++ y.records⟩

@[simp] theorem value_andThen (x : Logged α) (f : α → Logged β) :
    (x.andThen f).value = (f x.value).value := rfl

@[simp] theorem quiet_andThen (value : α) (f : α → Logged β) :
    (quiet value).andThen f = f value := rfl

/-- What is done in three steps leaves its records in their order, however
the steps are taken together. -/
theorem andThen_assoc {γ : Type} (x : Logged α) (f : α → Logged β)
    (g : β → Logged γ) :
    (x.andThen f).andThen g = x.andThen fun value => (f value).andThen g := by
  simp only [andThen, List.append_assoc]

end Logged

end BraceLift
