/-
Following a path.

Every step but the last has to end in a directory: a dot stays there,
two dots go up (and stay at the root), any other name has to be short
enough and to be there. A path that ends in a slash has to lead to a
directory. A path with a NUL in it and a path of too many bytes are
refused before any step.
-/
import BraceLift.File.Fault
import BraceLift.File.Path
import BraceLift.File.Tree

namespace BraceLift

/-- Names of more bytes than this are refused. -/
def nameLimit : Nat := 255

/-- Paths of this many bytes, or more, are refused. -/
def pathLimit : Nat := 4096

/-- The name that stays where one is. -/
def dot : Text := ['.']

/-- The name that goes up. -/
def dotDot : Text := ['.', '.']

/-- Why no path may be spelled like this one, if none may. -/
def Path.fault? (p : Path) : Option Fault :=
  if '\x00' ∈ p.text then some .nulInName
  else if pathLimit ≤ p.text.byteCount then some .nameTooLong
  else if p.text = [] then some .notFound
  else none

namespace FileTree

/-- Where a path starts. -/
def startOf (tree : FileTree) (p : Path) : Loc :=
  if p.isAbsolute then [] else tree.home

/-- One step from a place. -/
def step (tree : FileTree) (here : Loc) (name : Text) : Except Fault Loc :=
  if ¬ tree.isDirectoryAt here then .error .notDirectory
  else if name = dot then .ok here
  else if name = dotDot then .ok here.tail
  else if nameLimit < name.byteCount then .error .nameTooLong
  else match tree.at? (name :: here) with
    | none => .error .notFound
    | some _ => .ok (name :: here)

/-- Some steps from a place. -/
def walk (tree : FileTree) (here : Loc) : List Text → Except Fault Loc
  | [] => .ok here
  | name :: rest =>
      match tree.step here name with
      | .error fault => .error fault
      | .ok next => tree.walk next rest

/-- The place that a path leads to. -/
def resolve (tree : FileTree) (p : Path) : Except Fault Loc :=
  match p.fault? with
  | some fault => .error fault
  | none =>
      match tree.walk (tree.startOf p) p.names with
      | .error fault => .error fault
      | .ok loc =>
          if p.endsInSlash ∧ ¬ tree.isDirectoryAt loc then
            .error .notDirectory
          else .ok loc

/-- Whether a path leads to a directory. -/
def isDirectory (tree : FileTree) (p : Path) : Bool :=
  match tree.resolve p with
  | .ok loc => tree.isDirectoryAt loc
  | .error _ => false

/-- What a path leads to when its last name may still be free. -/
inductive Target where
  /-- The path has no name, or its last name is a dot or two. -/
  | dots
  /-- A name in a directory. -/
  | named (dir : Loc) (name : Text)
  deriving DecidableEq

/-- The directory that a path's last name is looked up in, and the name. -/
def target (tree : FileTree) (p : Path) : Except Fault Target :=
  match p.fault? with
  | some fault => .error fault
  | none =>
      match p.names.getLast? with
      | none => .ok .dots
      | some name =>
          match tree.walk (tree.startOf p) p.names.dropLast with
          | .error fault => .error fault
          | .ok dir =>
              if ¬ tree.isDirectoryAt dir then .error .notDirectory
              else if name = dot ∨ name = dotDot then .ok .dots
              else .ok (.named dir name)

/-- The content of the file that a path leads to. -/
def content (tree : FileTree) (p : Path) : Except Fault ByteArray :=
  match tree.resolve p with
  | .error fault => .error fault
  | .ok loc =>
      match tree.at? loc with
      | some (.file content) => .ok content
      | _ => .error .isDirectory

end FileTree

end BraceLift
