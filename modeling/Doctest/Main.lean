import Doctest.Console

/-!
# The program

The program takes the files that a command line can be about into a tree, answers the command line on
the tree, prints what it has to say and writes the files that were changed. All decisions are made
on the tree; nothing else happens here.
-/

namespace Doctest.Program

/-- How deep directories are taken into the tree. -/
def loadDepth : Nat := 32

/-- The place of an absolute path. -/
def locationOf (path : String) : Location := (Path.names path).filter (· ≠ "")

/-- The tree with what lies below a directory. What is not text is left out. -/
def load : (depth : Nat) → (files : Files) → (path : String) → IO Files
  | 0, files, _ => pure files
  | depth + 1, files, path => do
    let place ← IO.FS.realPath path
    if ← place.isDir then
      let mut files := files.withDirectory (locationOf path)
      for entry in ← place.readDir do
        try files ← load depth files (Path.join path entry.fileName)
        catch _ => pure ()
      return files
    else
      let content ← IO.FS.readFile place
      return files.withFile (locationOf path) content

/-- The tree with what lies below a path, if there is anything. -/
def loadIfAny (files : Files) (path : String) : IO Files := do
  try load loadDepth files path
  catch _ => return files

/-- The paths that a word of the command line may name. -/
def pathsOf (word : String) : List String :=
  match Text.splitFirst? '=' word.toList with
  | some (_, value) => [word, String.ofList value]
  | none => [word]

/-- The tree that a command line is answered on: the current directory, the directories of the files
that are named, and the data directories above them. -/
def loadTree (current : String) (words : List String) : IO Files := do
  let mut files ← loadIfAny .empty current
  for path in current :: words.flatMap pathsOf do
    try
      let absolute := toString (← IO.FS.realPath path)
      let near := if absolute = current then absolute else (Path.parent? absolute).getD absolute
      files ← loadIfAny files near
      for above in Path.ancestors near do
        files ← loadIfAny files (Path.join above DataDirectory.name)
    catch _ => pure ()
  return files

/-- Writes the files that are new or have changed. -/
def save (before after : Files) : IO Unit := do
  for (l, content) in after.contents do
    if before.node? l ≠ some (.file content) then
      IO.FS.createDirAll (Location.path l.dropLast)
      IO.FS.writeFile (Location.path l) content

end Doctest.Program

/-- Answers the command line. -/
def main (words : List String) : IO UInt32 := do
  let current := toString (← IO.currentDir)
  let files ← Doctest.Program.loadTree current words
  let result := Doctest.Console.run ⟨files, Doctest.Program.locationOf current⟩ words
  Doctest.Program.save files result.files
  IO.print result.output
  IO.eprint result.error
  return result.exitStatus.toUInt32
