/-
Making directories and writing files.

Each change either happens or leaves the tree as it was, with one
exception: directories made on the way to one that cannot be made stay
(`makeDirectories`), so that function gives a tree in any case.
-/
import BraceLift.File.Walk

namespace BraceLift

/-- What an action on a file tree comes to: its result, and the tree
after it. -/
structure Outcome (ε α : Type) where
  tree : FileTree
  result : Except ε α

namespace FileTree

-- ========================================================= single steps

/-- Makes one directory, in one that is there. -/
def makeDirectory (tree : FileTree) (p : Path) : Except Fault FileTree :=
  match tree.target p with
  | .error fault => .error fault
  | .ok .dots => .error .exists
  | .ok (.named dir name) =>
      if nameLimit < name.byteCount then .error .nameTooLong
      else match tree.at? (name :: dir) with
        | some _ => .error .exists
        | none => .ok (tree.add dir name .directory)

/-- Gives a file a content, making the file if need be. -/
def store (tree : FileTree) (p : Path) (content : ByteArray) :
    Except Fault FileTree :=
  match tree.target p with
  | .error fault => .error fault
  | .ok .dots => .error .isDirectory
  | .ok (.named dir name) =>
      if p.endsInSlash then .error .isDirectory
      else if nameLimit < name.byteCount then .error .nameTooLong
      else match tree.at? (name :: dir) with
        | none => .ok (tree.add dir name (.file content))
        | some .directory => .error .isDirectory
        | some (.file _) => .ok (tree.refill (name :: dir) content)

-- ========================================================== directories

/-- Makes a directory after what is above it: the list holds the path
and the paths above it, deepest first. Only a missing directory sends
it upwards; a directory that is there already is as good as a new one. -/
def makeLineage (tree : FileTree) : List Path → Outcome Fault Unit
  | [] => ⟨tree, .ok ()⟩
  | p :: above =>
      match tree.makeDirectory p with
      | .ok made => ⟨made, .ok ()⟩
      | .error .notFound =>
          let lower := tree.makeLineage above
          match lower.result with
          | .error fault => ⟨lower.tree, .error fault⟩
          | .ok () =>
              match lower.tree.makeDirectory p with
              | .ok made => ⟨made, .ok ()⟩
              | .error fault =>
                  if lower.tree.isDirectory p then ⟨lower.tree, .ok ()⟩
                  else ⟨lower.tree, .error fault⟩
      | .error fault =>
          if tree.isDirectory p then ⟨tree, .ok ()⟩
          else ⟨tree, .error fault⟩

/-- Makes a directory and all that is missing above it. -/
def makeDirectories (tree : FileTree) (p : Path) : Outcome Fault Unit :=
  tree.makeLineage p.lineage

end FileTree

end BraceLift
