/-
Why a job fails, as a chain of messages.

The outermost message says what was being done, the ones after it why
that failed.
-/
import BraceLift.Excerpt
import BraceLift.File.Fault

namespace BraceLift

/-- Why something failed. -/
inductive Failure where
  /-- The source path leads nowhere. -/
  | sourceMissing (source : Path)
  /-- The source cannot be read as text. -/
  | sourceUnreadable (source : Path) (cause : Fault)
  /-- The lines give no document. -/
  | excerpt (cause : ExcerptError)
  /-- The directory of the output cannot be made. -/
  | directoryRefused (directory : Path) (cause : Fault)
  /-- The output cannot be written. -/
  | outputRefused (output : Path) (cause : Fault)
  /-- A whole job failed. -/
  | job (source : Path) (cause : Failure)
  deriving DecidableEq

namespace Failure

/-- The messages, outermost first. -/
def chain : Failure → List Text
  | .sourceMissing source =>
      ["Source file '".toList ++ source.text ++ "' not found.".toList]
  | .sourceUnreadable source cause =>
      ["Error reading source file ".toList ++ source.text, cause.message]
  | .excerpt cause => [cause.message]
  | .directoryRefused directory cause =>
      ["Error creating directory ".toList ++ directory.text, cause.message]
  | .outputRefused output cause =>
      ["Error writing ".toList ++ output.text, cause.message]
  | .job source cause =>
      ("Failed to extract from ".toList ++ source.text) :: cause.chain

/-- The error of the lines themselves, if that is what lies at the
bottom. -/
def excerptError? : Failure → Option ExcerptError
  | .excerpt cause => some cause
  | .job _ cause => cause.excerptError?
  | _ => none

/-- The refusal of the file system at the bottom, if there is one. -/
def fault? : Failure → Option Fault
  | .sourceUnreadable _ cause => some cause
  | .directoryRefused _ cause => some cause
  | .outputRefused _ cause => some cause
  | .job _ cause => cause.fault?
  | _ => none

-- =============================================================== report

/-- A text indented by four blanks and continued under its first line; a
number in front makes both indents wider. -/
def indented (number : Option Nat) (message : Text) : Text :=
  let lead := match number with
    | none => "    ".toList
    | some n =>
        let digits := Text.ofNat n
        List.replicate (5 - digits.length) ' ' ++ digits ++ ": ".toList
  let continued := match number with
    | none => "    ".toList
    | some _ => "       ".toList
  lead ++ List.intercalate ('\n' :: continued) (message.splitOn '\n')

/-- The causes of a failure, each on lines of its own, numbered if there
are several. -/
def causes : List Text → Text
  | [] => []
  | [cause] => '\n' :: indented none cause
  | several =>
      (several.zipIdx.map fun (cause, n) =>
        '\n' :: indented (some n) cause).flatten

/-- The whole failure as it is shown to the user. -/
def report (failure : Failure) : Text :=
  match failure.chain with
  | [] => []
  | [message] => "Error: ".toList ++ message ++ ['\n']
  | message :: rest =>
      "Error: ".toList ++ message ++ "\n\nCaused by:".toList ++ causes rest
        ++ ['\n']

end Failure

end BraceLift
