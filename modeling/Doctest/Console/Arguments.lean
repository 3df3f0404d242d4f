/-!
# Arguments

Words that start with a dash are options, up to a double dash. Every other word is the path of a
document. An option that takes a value takes the next word, or what follows an equals sign in the
same word. Each option may be given once.
-/

namespace Doctest

/-- What is to be checked, and how. -/
structure Arguments where
  noColor : Bool
  verbose : Bool
  dataDirectory : Option String
  printConfig : Bool
  documents : List String
  deriving DecidableEq, Repr

/-- What a command line asks for. -/
inductive Request
  | help
  | version
  | printConfig
  | check (arguments : Arguments)
  /-- It cannot be understood. -/
  | invalid
  deriving DecidableEq, Repr

namespace Arguments

def none : Arguments := ⟨false, false, .none, false, []⟩

/-- The value of a word that may not be empty. -/
def addDocument? (a : Arguments) (word : String) : Option Arguments :=
  if word.isEmpty then .none else some { a with documents := a.documents ++ [word] }

def setDataDirectory? (a : Arguments) (path : String) : Option Arguments :=
  if path.isEmpty || a.dataDirectory.isSome then .none
  else some { a with dataDirectory := some path }

def setVerbose? (a : Arguments) : Option Arguments :=
  if a.verbose then .none else some { a with verbose := true }

/-- Sets the flag with a long name. -/
def setFlag? (a : Arguments) (word : String) : Option Arguments :=
  match word with
  | "--no-color" => if a.noColor then .none else some { a with noColor := true }
  | "--verbose" => a.setVerbose?
  | "--print-config" => if a.printConfig then .none else some { a with printConfig := true }
  | _ => .none

/-- What has been read of a command line. -/
inductive Reading
  /-- All words so far were understood. -/
  | open (a : Arguments)
  /-- Nothing else counts any more. -/
  | closed (r : Request)
  deriving DecidableEq, Repr

def Reading.ofOption : Option Arguments → Reading
  | some a => .open a
  | .none => .closed .invalid

/-- Reads the letters of a word of short options. -/
def readLetters (a : Arguments) : List Char → Reading
  | [] => .open a
  | 'v' :: rest =>
    match a.setVerbose? with
    | some a => a.readLetters rest
    | .none => .closed .invalid
  | 'h' :: _ => .closed .help
  | 'V' :: _ => .closed .version
  | _ => .closed .invalid

/-- Reads a word that starts with a dash and takes no further word. -/
def readOption (a : Arguments) (word : String) : Reading :=
  match word with
  | "--help" => .closed .help
  | "--version" => .closed .version
  | _ =>
    if word.startsWith "--data-dir=" then
      .ofOption (a.setDataDirectory? (word.drop "--data-dir=".length).toString)
    else if word.startsWith "--" then .ofOption (a.setFlag? word)
    else a.readLetters (word.toList.drop 1)

/-- Whether the word can be the value of an option or a document: a lone dash can. -/
def isValue (word : String) : Bool := word = "-" || !word.startsWith "-"

/-- Reads the words of a command line. -/
def readFrom (a : Arguments) : List String → Reading
  | [] => .open a
  | "--" :: rest => .ofOption (rest.foldlM addDocument? a)
  | "--data-dir" :: [] => .closed .invalid
  | "--data-dir" :: path :: rest =>
    if isValue path then
      match a.setDataDirectory? path with
      | some a => a.readFrom rest
      | .none => .closed .invalid
    else .closed .invalid
  | word :: rest =>
    if isValue word then
      match a.addDocument? word with
      | some a => a.readFrom rest
      | .none => .closed .invalid
    else
      match a.readOption word with
      | .open a => a.readFrom rest
      | closed => closed

end Arguments

/-- What the words of a command line ask for. A document is needed for everything that is not answered
by a fixed text. -/
def Request.ofWords (words : List String) : Request :=
  match Arguments.none.readFrom words with
  | .closed r => r
  | .open a =>
    if a.printConfig then .printConfig
    else if a.documents.isEmpty then .invalid
    else .check a

end Doctest
