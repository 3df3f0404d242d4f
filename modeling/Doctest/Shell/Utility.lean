import Doctest.Files
import Doctest.Shell.Format
import Doctest.Shell.StreamEdit

/-!
# Utilities

Utilities are commands that look at their arguments, at files and at their input, and change nothing.
The shell knows them by name, and so does whoever starts a program without a shell.
-/

namespace Doctest.Shell

/-- What a utility sees beside its arguments. -/
structure Surroundings where
  files : Files
  directory : Location
  /-- What can be read from the input stream. -/
  input : String

/-- A text on one of the two output streams. -/
inductive Chunk
  | output (text : String)
  | error (text : String)
  deriving DecidableEq, Repr

/-- What a utility put out, in order, and its exit status. -/
structure Result where
  chunks : List Chunk
  status : Nat
  deriving DecidableEq, Repr

namespace Result

def silent (status : Nat) : Result := ⟨[], status⟩

/-- A result that tells what is wrong. -/
def refused (status : Nat) (message : String) : Result := ⟨[.error (message ++ "\n")], status⟩

end Result

/-! ## Putting out text -/

/-- Whether the word is one of the options of `echo`. -/
def isEchoOption (word : String) : Bool :=
  match word.toList with
  | '-' :: letters => !letters.isEmpty && letters.all "neE".toList.contains
  | _ => false

def echo (arguments : List String) : Result :=
  let letters := (arguments.takeWhile isEchoOption).flatMap fun o => o.toList.drop 1
  let words := arguments.dropWhile isEchoOption
  let text := (" ".intercalate words).toList
  let escapes := (letters.filter (· ≠ 'n')).getLast? = some 'e'
  let (text, ended) := if escapes then unescape .leadingZero text else (text, false)
  let close := if ended || letters.contains 'n' then "" else "\n"
  ⟨[.output (String.ofList text ++ close)], 0⟩

/-- What goes wrong is told behind the prefix `who`. -/
def printf (who : String) (arguments : List String) : Result :=
  match (if arguments.head? = some "--" then arguments.drop 1 else arguments) with
  | [] => .refused 2 "printf: usage: printf [-v var] format [arguments]"
  | template :: arguments =>
    let r := format template arguments
    let complaints := r.complaints.map fun c => Chunk.error s!"{who}printf: {c}\n"
    ⟨complaints ++ [.output (String.ofList r.text)], if complaints.isEmpty then 0 else 1⟩

/-- The reason without the number that other programs put behind it. -/
def plainReason (e : FileError) : String :=
  String.ofList (((Text.splitFirstWord? " (os".toList e.text.toList).map (·.1)).getD e.text.toList)

def cat (s : Surroundings) (arguments : List String) : Result :=
  let chunks := (if arguments.isEmpty then ["-"] else arguments).map fun path =>
    if path = "-" then Chunk.output s.input
    else if path = "/dev/null" then .output ""
    else
      match s.files.read s.directory path with
      | .ok content => .output content
      | .error e =>
        let reason := plainReason e
        .error s!"cat: {path}: {reason}\n"
  let failed := chunks.any fun
    | .error _ => true
    | .output _ => false
  ⟨chunks, if failed then 1 else 0⟩

def pwd (s : Surroundings) : Result := ⟨[.output (s.directory.path ++ "\n")], 0⟩

/-! ## Conditions -/

/-- A condition about one word; `none` if there is no such operator. -/
def unaryTest? (s : Surroundings) (operator word : String) : Option Bool :=
  let node := s.files.look s.directory word
  match operator with
  | "-n" => some (word ≠ "")
  | "-z" => some (word = "")
  | "-e" | "-r" | "-w" => some node.toOption.isSome
  | "-f" => some (s.files.isFile s.directory word)
  | "-d" | "-x" => some (s.files.isDirectory s.directory word)
  | "-s" => some (match node with
    | .ok (.file content) => content ≠ ""
    | .ok .directory => true
    | .error _ => false)
  | "-h" | "-L" | "-t" => some false
  | _ => none

/-- What a condition says, or what is wrong with it. -/
abbrev Judgement := Except String Bool

/-- A condition about two words; `none` if there is no such operator. -/
def binaryTest? (a operator b : String) : Option Judgement :=
  let compared (f : Int → Int → Bool) : Option Judgement :=
    let number (w : String) : Except String Int :=
      match Text.signed? 64 (Text.trim w.toList) with
      | some i => .ok i
      | none => .error s!"{w}: integer expression expected"
    some (do
      let a ← number a
      let b ← number b
      return f a b)
  match operator with
  | "=" | "==" => some (.ok (a = b))
  | "!=" => some (.ok (a ≠ b))
  | "<" => some (.ok (a < b))
  | ">" => some (.ok (b < a))
  | "-eq" => compared (· = ·)
  | "-ne" => compared (· ≠ ·)
  | "-lt" => compared (· < ·)
  | "-le" => compared (· ≤ ·)
  | "-gt" => compared (· > ·)
  | "-ge" => compared (· ≥ ·)
  | _ => none

/-- A condition without connectives, by the number of its words. -/
def simpleTest (s : Surroundings) : List String → Judgement
  | [] => .ok false
  | [word] => .ok (word ≠ "")
  | [operator, word] =>
    if operator = "!" then .ok (word = "")
    else
      match unaryTest? s operator word with
      | some value => .ok value
      | none => .error s!"{operator}: unary operator expected"
  | [a, operator, b] =>
    match binaryTest? a operator b with
    | some judgement => judgement
    | none =>
      if a = "!" then (simpleTest s [operator, b]).map (!·)
      else .error s!"{operator}: binary operator expected"
  | "!" :: rest => (simpleTest s rest).map (!·)
  | _ => .error "too many arguments"

/-- The parts between the words `connective`. -/
def splitWords (connective : String) : List String → List (List String)
  | [] => [[]]
  | w :: ws =>
    if w = connective then [] :: splitWords connective ws
    else
      match splitWords connective ws with
      | [] => [[w]]
      | p :: ps => (w :: p) :: ps

/-- A condition: some of its alternatives has to hold with all its parts. Up to three words are
taken as they are. -/
def condition (s : Surroundings) (words : List String) : Judgement :=
  if words.length ≤ 3 then simpleTest s words
  else do
    let parts ← (splitWords "-o" words).mapM fun alternative =>
      (splitWords "-a" alternative).mapM (simpleTest s)
    return parts.any (·.all id)

/-- The utility `test`; as `[` it needs a bracket at the end. -/
def test (who name : String) (s : Surroundings) (arguments : List String) : Result :=
  let words? :=
    if name = "test" then some arguments
    else if arguments.getLast? = some "]" then some arguments.dropLast
    else none
  match words? with
  | none => .refused 2 s!"{who}[: missing \x60]'"
  | some words =>
    match condition s words with
    | .ok holds => .silent (if holds then 0 else 1)
    | .error problem => .refused 2 s!"{who}{name}: {problem}"

/-! ## Editing streams -/

/-- The options of `sed`, and its other arguments. -/
structure EditOptions where
  quiet : Bool
  form : PatternForm
  scripts : List String
  others : List String

/-- Reads the arguments of `sed`; `none` if there is an unknown option. -/
def EditOptions.read? (o : EditOptions) : List String → Option EditOptions
  | [] => some o
  | "-n" :: rest | "--quiet" :: rest => read? { o with quiet := true } rest
  | "-E" :: rest | "-r" :: rest => read? { o with form := .extended } rest
  | "-e" :: script :: rest => read? { o with scripts := o.scripts ++ [script] } rest
  | "-ne" :: script :: rest =>
    read? { o with quiet := true, scripts := o.scripts ++ [script] } rest
  | word :: rest =>
    if word.startsWith "-" && word ≠ "-" then none
    else read? { o with others := o.others ++ [word] } rest

def sed (s : Surroundings) (arguments : List String) : Result :=
  match EditOptions.read? ⟨false, .basic, [], []⟩ arguments with
  | none => .refused 1 "sed: unknown option"
  | some o =>
    let (scripts, paths) :=
      if o.scripts.isEmpty then (o.others.take 1, o.others.drop 1) else (o.scripts, o.others)
    let script := ("\n".intercalate scripts).toList
    if scripts.isEmpty then .refused 1 "Usage: sed [OPTION]... script-if-no-other-script [input-file]..."
    else
      match readEdits? o.form script.length script with
      | none => .refused 1 "sed: -e expression #1: unknown command"
      | some commands =>
        let source := cat s paths
        let text := String.join (source.chunks.map fun
          | .output text => text
          | .error _ => "")
        let complaints := source.chunks.filterMap fun
          | .output _ => none
          | .error text => some (Chunk.error ("sed: can't read" ++ (text.drop 4).toString))
        ⟨complaints ++ [.output (editText commands o.quiet text)],
          if complaints.isEmpty then 0 else 2⟩

/-! ## By name -/

/-- The utility with this name. Complaints of those that are part of the shell start with `who`. -/
def utility? (who : String) (s : Surroundings) (arguments : List String) : String → Option Result
  | "echo" => some (echo arguments)
  | "printf" => some (printf who arguments)
  | "cat" => some (cat s arguments)
  | "pwd" => some (pwd s)
  | "test" => some (test who "test" s arguments)
  | "[" => some (test who "[" s arguments)
  | "sed" => some (sed s arguments)
  | "true" => some (.silent 0)
  | "false" => some (.silent 1)
  | _ => none

end Doctest.Shell
