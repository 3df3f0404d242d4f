import Doctest.Files.Path
import Doctest.Keyed
import Doctest.Source

/-!
# File trees

A tree of directories with text files in them. A path is followed name by name from the root or from
the current directory: every name but the last has to be a directory, and `..` leads to the directory
above the one that was reached. The root is always there.
-/

namespace Doctest

/-- What stands under a name. -/
inductive FileNode
  | file (content : String)
  | directory
  deriving DecidableEq, Repr

/-- Why a path cannot be used. -/
inductive FileError
  | notFound
  | exists
  | notDirectory
  | isDirectory
  | nameTooLong
  | denied
  deriving DecidableEq, Repr

/-- The reason in words, with its number. -/
def FileError.text : FileError → String
  | .notFound => "No such file or directory (os error 2)"
  | .denied => "Permission denied (os error 13)"
  | .exists => "File exists (os error 17)"
  | .notDirectory => "Not a directory (os error 20)"
  | .isDirectory => "Is a directory (os error 21)"
  | .nameTooLong => "File name too long (os error 36)"

/-- A place in a tree: the names on the way from the root. -/
abbrev Location := List String

/-- The absolute path of a place. -/
def Location.path (l : Location) : Path := "/" ++ "/".intercalate l

/-- A file tree. Everything but the root is kept under the absolute path of its place. -/
structure Files where
  nodes : Keyed FileNode
  deriving DecidableEq, Repr

namespace Files

/-- The tree that has nothing but the root. -/
def empty : Files := ⟨.empty⟩

/-- What stands at a place. -/
def node? (files : Files) (l : Location) : Option FileNode :=
  if l.isEmpty then some .directory else files.nodes.get? l.path

def put (files : Files) (l : Location) (node : FileNode) : Files :=
  ⟨files.nodes.insert l.path node⟩

/-- The tree with a directory at a place and at all places above it that are empty. -/
def withDirectory (files : Files) (l : Location) : Files :=
  (List.range (l.length + 1)).foldl (fun files count =>
    let above := l.take count
    if (files.node? above).isSome then files else files.put above .directory) files

/-- The tree with a file at a place, and directories above it. -/
def withFile (files : Files) (l : Location) (content : String) : Files :=
  (files.withDirectory l.dropLast).put l (.file content)

/-- The files with their places, in the order of their paths. -/
def contents (files : Files) : List (Location × String) :=
  files.nodes.entries.filterMap fun
    | (path, .file content) => some ((Path.names path).drop 1, content)
    | (_, .directory) => none

/-- Requires that a place is a directory. -/
def requireDirectory (files : Files) (l : Location) : Except FileError Unit :=
  match files.node? l with
  | some .directory => .ok ()
  | some (.file _) => .error .notDirectory
  | none => .error .notFound

/-- The most bytes that a name may have. -/
def longestName : Nat := 255

/-- Follows names. What the last one leads to need not exist. -/
def walk (files : Files) : Location → List String → Except FileError Location
  | l, [] => .ok l
  | l, name :: rest => do
    files.requireDirectory l
    if name = "" || name = "." then files.walk l rest
    else if name = ".." then files.walk l.dropLast rest
    else if longestName < name.utf8ByteSize then .error .nameTooLong
    else files.walk (l ++ [name]) rest

/-- Where a path starts. -/
def start (directory : Location) (p : Path) : Location := if p.isAbsolute then [] else directory

/-- The place that a path leads to. -/
def locate (files : Files) (directory : Location) (p : Path) : Except FileError Location :=
  if p.isEmpty then .error .notFound else files.walk (start directory p) (Path.names p)

/-- What a path leads to. -/
def look (files : Files) (directory : Location) (p : Path) : Except FileError FileNode := do
  let l ← files.locate directory p
  match files.node? l with
  | some node => .ok node
  | none => .error .notFound

def isDirectory (files : Files) (directory : Location) (p : Path) : Bool :=
  match files.look directory p with
  | .ok .directory => true
  | _ => false

def isFile (files : Files) (directory : Location) (p : Path) : Bool :=
  match files.look directory p with
  | .ok (.file _) => true
  | _ => false

/-- The content of a file. -/
def read (files : Files) (directory : Location) (p : Path) : Except FileError String := do
  match ← files.look directory p with
  | .file content => .ok content
  | .directory => .error .isDirectory

/-- Where an entry is to be made. -/
structure Slot where
  /-- The directory that gets the entry. -/
  parent : Location
  name : String
  /-- Whether slashes follow the name. -/
  slashed : Bool

/-- Whether the name is no name of an entry: it stands for the directory itself or the one above. -/
def Slot.isIdle (s : Slot) : Bool := s.name = "" || s.name = "." || s.name = ".."

def Slot.location (s : Slot) : Location := s.parent ++ [s.name]

/-- The slot that a path names. Its directory has to exist. -/
def slot (files : Files) (directory : Location) (p : Path) : Except FileError Slot := do
  let all := Path.names p
  let used := (all.reverse.dropWhile (· = "")).reverse
  let parent ← files.walk (start directory p) used.dropLast
  files.requireDirectory parent
  let name := used.getLast?.getD ""
  if longestName < name.utf8ByteSize then .error .nameTooLong
  else .ok ⟨parent, name, used.length < all.length⟩

/-- Makes a directory in a directory that exists. -/
def makeDirectory (files : Files) (directory : Location) (p : Path) : Except FileError Files := do
  let s ← files.slot directory p
  if s.isIdle || (files.node? s.location).isSome then .error .exists
  else .ok (files.put s.location .directory)

/-- Makes the first directory of the list. The others are the ones above it, the nearest first; they
are made if they are missing. -/
def makeChain (files : Files) (directory : Location) : List Path → Except FileError Files
  | [] => .ok files
  | p :: above =>
    if p.parent? = none then .ok files
    else
      match files.makeDirectory directory p with
      | .ok files => .ok files
      | .error .notFound => do
        let files ← files.makeChain directory above
        match files.makeDirectory directory p with
        | .ok files => .ok files
        | .error e => if files.isDirectory directory p then .ok files else .error e
      | .error e => if files.isDirectory directory p then .ok files else .error e

/-- Makes a directory with all directories above it. One that exists already is fine. -/
def makeDirectories (files : Files) (directory : Location) (p : Path) : Except FileError Files :=
  files.makeChain directory p.ancestors

/-- Writes a file in place of what it held. Its directory has to exist. -/
def write (files : Files) (directory : Location) (p : Path) (content : String) :
    Except FileError Files := do
  let s ← files.slot directory p
  if s.isIdle || s.slashed then .error .isDirectory
  else
    match files.node? s.location with
    | some .directory => .error .isDirectory
    | _ => .ok (files.put s.location (.file content))

end Files

end Doctest
