/-
The region from an anchor to the end of the input.

Nothing closes this region. Lines that, white space at both ends aside,
start with one of some given texts are dropped; in the lines that
remain, substitutions are made one after the other. Whether a line is
dropped is decided on the line as it was read.
-/
import BraceLift.Excerpt
import BraceLift.Text.Blank
import BraceLift.Text.Replace

namespace BraceLift

/-- One text to be put in place of another. -/
structure Substitution where
  old : Text
  new : Text
  deriving DecidableEq

/-- Puts the new text in place of the old wherever it occurs. -/
def Substitution.apply (s : Substitution) (line : Line) : Line :=
  line.replaceAll s.old s.new

/-- The region from an anchor on, and what changes in it. -/
structure Tail where
  anchor : Text
  /-- What dropped lines start with. -/
  openings : List Text
  /-- What is replaced in the other lines, in this order. -/
  substitutions : List Substitution
  deriving DecidableEq

namespace Tail

/-- What an import line starts with. -/
def importOpening : Text := "use ".toList

/-- The path of a macro that has to be called by its bare name. -/
def qualifiedMacro : Text := "bitflags::bitflags!".toList

/-- The bare name of that macro. -/
def bareMacro : Text := "bitflags!".toList

/-- A region copied as it is. -/
def verbatim (anchor : Text) : Tail := ⟨anchor, [], []⟩

/-- A region without its imports, the macro called by its bare name. -/
def standard (anchor : Text) : Tail :=
  ⟨anchor, [importOpening], [⟨qualifiedMacro, bareMacro⟩]⟩

/-- Drops the lines that start with `opening`, too. -/
def dropping (tail : Tail) (opening : Text) : Tail :=
  { tail with openings := tail.openings ++ [opening] }

/-- Makes one more substitution, after those made already. -/
def replacing (tail : Tail) (old new : Text) : Tail :=
  { tail with substitutions := tail.substitutions ++ [⟨old, new⟩] }

/-- Whether a line is left out. -/
def drops (tail : Tail) (line : Line) : Bool :=
  tail.openings.any fun opening => opening.isPrefixOf line.trim

/-- A line after all substitutions. -/
def restate (tail : Tail) (line : Line) : Line :=
  tail.substitutions.foldl (fun l s => s.apply l) line

/-- The lines of a region that remain, changed. -/
def keep (tail : Tail) (region : List Line) : List Line :=
  (region.filter (!tail.drops ·)).map tail.restate

/-- Lifts the region out of lines. -/
def extract (tail : Tail) : Region := fun lines =>
  if tail.anchor = [] then .quiet (.error .emptyAnchor)
  else match lines.findIdx? tail.anchor.occursIn with
    | none => .quiet (.error (.anchorNotFound tail.anchor))
    | some start =>
        let region := lines.drop start
        let kept := tail.keep region
        .noting
          (.tailTaken tail.anchor (start + 1) kept.length
            (region.countP tail.drops))
          (.ok (.complete tail.anchor kept))

end Tail

end BraceLift
