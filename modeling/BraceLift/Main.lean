/-
The command line program.

Everything is decided in `invoke`, which knows files only as a
`FileTree`. So the program looks at the places on the disk that the
paths of its job lead through, hands them over as a tree, and then
makes on the disk whatever is new in the tree that comes back.

Places are named from the root of the disk, and two dots go up by name,
also where a name stands for a link.
-/
import BraceLift.Invocation

namespace BraceLift.Disk

/-- How a place is spelled on the disk. -/
def spell (loc : Loc) : String :=
  "/" ++ String.ofList (Text.joinWith '/' loc.reverse)

/-- The tree with what the disk holds under a name in a directory. -/
def look (tree : FileTree) (dir : Loc) (name : Text) : IO FileTree := do
  let place := System.mkFilePath [spell (name :: dir)]
  if ← place.isDir then
    return tree.add dir name .directory
  else if ← place.pathExists then
    return tree.add dir name (.file (← IO.FS.readBinFile place))
  else
    return tree

/-- The tree with what the disk holds along some names. -/
def follow (tree : FileTree) (here : Loc) : List Text → IO FileTree
  | [] => return tree
  | name :: rest => do
      if name = dot then follow tree here rest
      else if name = dotDot then follow tree here.tail rest
      else follow (← look tree here name) (name :: here) rest

/-- The directory the program runs in, and the directories above it. -/
def surroundings : IO FileTree := do
  let here : Path := .ofString (← IO.currentDir).toString
  follow { FileTree.empty with home := here.names.reverse } [] here.names

/-- What the disk holds along the paths of a job. -/
def snapshot (job : Job) : IO FileTree := do
  let base ← surroundings
  let source ← follow base (base.startOf job.source) job.source.names
  follow source (source.startOf job.output) job.output.names

/-- Makes on the disk what is new in a tree. -/
def realize (before after : FileTree) : IO Unit := do
  for (loc, entry) in after.entries do
    if before.at? loc = some entry then
      continue
    match entry with
    | .directory => IO.FS.createDir (spell loc)
    | .file content => IO.FS.writeBinFile (spell loc) content

end BraceLift.Disk

open BraceLift in
/-- Invokes the tool on the disk. -/
def main (arguments : List String) : IO UInt32 := do
  let words := arguments.map String.toList
  let setting := (← IO.getEnv "RUST_LOG").map String.toList
  let before ←
    match CommandLine.parse words with
    | .ok job => Disk.snapshot job
    | .error _ => pure FileTree.empty
  let report := invoke words setting before
  Disk.realize before report.tree
  IO.print (String.ofList report.stdout)
  IO.eprint (String.ofList report.stderr)
  return report.status.toUInt32
