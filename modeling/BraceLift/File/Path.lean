/-
Paths, as the text that names a place in a file tree.

A path is kept as it was written, because messages show it that way and
because `a/../b` and `b` need not mean the same: the first asks for `a`
to be there. What follows is the reading of the text alone. Its pieces
lie between the slashes; an empty piece and a single dot after the
first slash stand for no step (`isInert`), and the parent is what
remains without the last piece that does stand for one.
-/
import BraceLift.Text.Basic

namespace BraceLift

/-- A path as it was written. -/
structure Path where
  text : Text
  deriving DecidableEq

namespace Path

/-- The path that a literal spells. -/
def ofString (s : String) : Path := ⟨s.toList⟩

/-- The texts between the slashes. -/
def pieces (p : Path) : List Text :=
  p.text.splitOn '/'

/-- The names to follow, dots included. -/
def names (p : Path) : List Text :=
  p.pieces.filter (· ≠ [])

/-- Whether the path starts at the root. -/
def isAbsolute (p : Path) : Bool :=
  p.text.head? == some '/'

/-- Whether the path insists on a directory. -/
def endsInSlash (p : Path) : Bool :=
  p.text.getLast? == some '/'

/-- Pieces that stand for no step. -/
def isInert (piece : Text) : Bool :=
  piece == [] || piece == ['.']

/-- The steps of a path: its first piece and, after it, those that are
not inert. -/
def components (p : Path) : List Text :=
  match p.pieces with
  | [] => []
  | head :: body =>
      (if head = [] then [] else [head]) ++ body.filter (!isInert ·)

/-- Whether two texts spell the same steps from the same start. -/
def agrees (p q : Path) : Bool :=
  p.isAbsolute == q.isAbsolute && p.components == q.components

/-- The first piece with the others after it; nothing after an empty
first piece is the root itself. -/
def assemble (head : Text) (body : List Text) : Path :=
  if head = [] ∧ body = [] then ⟨['/']⟩
  else ⟨Text.joinWith '/' (head :: body)⟩

/-- The path without its last step; the root and the empty path have no
parent, and the parent of a single step is the empty path. -/
def parent? (p : Path) : Option Path :=
  match p.pieces with
  | [] => none
  | head :: body =>
      match body.reverse.dropWhile isInert with
      | _ :: above => some (assemble head (above.dropWhile isInert).reverse)
      | [] => if head = [] then none else some ⟨[]⟩

/-- At most so many paths upwards, from the path itself to the last one
that is not empty. -/
def upwards : Nat → Path → List Path
  | 0, _ => []
  | steps + 1, p =>
      if p.text = [] then []
      else p :: match p.parent? with
        | none => []
        | some up => upwards steps up

/-- The path and the paths above it, deepest first; each is shorter than
the one before it, so its length bounds their number. -/
def lineage (p : Path) : List Path :=
  upwards (p.text.length + 1) p

end Path

end BraceLift
