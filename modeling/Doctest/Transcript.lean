import Doctest.Text.Blank
import Doctest.Text.Line
import Doctest.Text.Search

/-!
# Transcripts of interactive sessions

A transcript shows inputs behind prompts and what they printed. `Transcript.assertions` turns it into
code that checks the same: an input with output becomes a comparison, an input with an uncaught
exception becomes the expectation of that exception, and an input without output stays as it is.
-/

namespace Doctest

open Text (afterWord? trim trimEnd isAllBlank splitFirstWord?)

/-- An input and what it printed. -/
structure Interaction where
  input : Lines
  output : Lines
  deriving DecidableEq, Repr

namespace Interaction

def isIdentifier (cs : List Char) : Bool :=
  !cs.isEmpty && cs.all fun c => c.isAlphanum || c = '_' || c = '$'

/-- Text as a literal in double quotes. -/
def literal (cs : List Char) : List Char :=
  '"' :: (cs.flatMap fun c => if c = '\\' || c = '"' then ['\\', c] else [c]) ++ ['"']

/-- The lines that end the expectation of an exception: its name and message as far as the text shows
them. -/
def exceptionEnd (exception : List Char) : Lines :=
  let bodyEnd := "  \x7d,"
  let nameOnly : Lines :=
    if isIdentifier (trim exception) then
      [bodyEnd, String.ofList ("  \x7bname: ".toList ++ literal (trim exception) ++ ['}'])]
    else ["  \x7d"]
  match splitFirstWord? ": ".toList exception with
  | none => nameOnly
  | some (name, message) =>
    if isIdentifier name then
      [bodyEnd, String.ofList ("  \x7bname: ".toList ++ literal name ++ ", message: ".toList ++
        literal message ++ ['}'])]
    else nameOnly

/-- The expectation that the input fails with an exception. -/
def throwing (input : Lines) (exception : List Char) : Lines :=
  ["assert.throws(", "  () => \x7b"] ++ input.map ("    " ++ ·) ++ exceptionEnd exception ++ [");"]

/-- The last line of an expression, without the semicolons at its end. -/
def lastLine (line : String) : String :=
  String.ofList (((trimEnd line.toList).reverse.dropWhile (· = ';')).reverse)

/-- The comparison of the input's value with the output. -/
def comparison (input output : Lines) : Lines :=
  let input := input.dropLast ++ (input.getLast?.map lastLine).toList
  "assert.deepEqual(" :: input.map ("  " ++ ·) ++ "  ," :: output.map ("  " ++ ·) ++ [");"]

/-- The code that checks an interaction. -/
def assertion (i : Interaction) : Lines :=
  match i.output with
  | [] => i.input
  | first :: more =>
    if more.isEmpty && trim first.toList = "undefined".toList then i.input
    else
      match afterWord? "Uncaught ".toList first.toList with
      | some exception => throwing i.input exception
      | none => comparison i.input i.output

end Interaction

namespace Transcript

/-- The input behind a prompt. -/
def input? (line : String) : Option String :=
  if line = ">" then some ""
  else (afterWord? ['>', ' '] line.toList).map String.ofList

/-- The input on a line that continues another one. -/
def continued? (line : String) : Option String :=
  (afterWord? "... ".toList line.toList).map String.ofList

/-- The lines without the blank ones at their end. -/
def dropBlankEnd (ls : Lines) : Lines := (ls.reverse.dropWhile (isAllBlank ·.toList)).reverse

/-- The code that checks a transcript. Lines in front of the first prompt stay as they are. The lines that
continue an input belong to it, and what follows them up to the next prompt is what it printed. -/
def assertions : Lines → Lines
  | [] => []
  | l :: ls =>
    match input? l with
    | none => l :: assertions ls
    | some first =>
      let more := (ls.takeWhile fun l => (continued? l).isSome).filterMap continued?
      let following := ls.dropWhile fun l => (continued? l).isSome
      let output := dropBlankEnd (following.takeWhile fun l => (input? l).isNone)
      Interaction.assertion ⟨first :: more, output⟩ ++
        assertions (following.dropWhile fun l => (input? l).isNone)
termination_by ls => ls.length
decreasing_by
  · exact Nat.lt_succ_self _
  · exact Nat.lt_succ_of_le ((List.dropWhile_suffix _).trans (List.dropWhile_suffix _)).length_le

end Transcript

/-- What turns a snippet's lines into runnable code, by the name that a language gives. -/
def translator? (key : String) : Option (Lines → Lines) :=
  if key = "node-repl" then some Transcript.assertions else none

end Doctest
