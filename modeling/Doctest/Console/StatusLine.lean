import Doctest.Console.Excerpt
import Doctest.Console.Style
import Doctest.Difference.Shift
import Doctest.Run.Report

/-!
# Status lines

A report is shown in two streams. Headings, successes and failures are lines of the first one, which
ends with the counts. Faults and warnings go to the second one, each with the line of the document
that it is about.
-/

namespace Doctest

open Text (isAllBlank)

/-- The word that says how something went. -/
def verdict (passed : Bool) (style : Style) : String :=
  if passed then style.green "PASS" else style.red "FAIL"

namespace Difference

/-- The pieces of a text, each up to and with a line end: a newline, a carriage return, or both. -/
def ended : List Char → List (List Char)
  | [] => []
  | '\n' :: cs => ['\n'] :: ended cs
  | '\r' :: '\n' :: cs => ['\r', '\n'] :: ended cs
  | '\r' :: cs => ['\r'] :: ended cs
  | c :: cs =>
    match ended cs with
    | [] => [[c]]
    | p :: ps => (c :: p) :: ps

/-- The lines for what changed between two lists of lines: a sign, then the line. -/
def statusLines (style : Style) (expected actual : Lines) : Lines :=
  let cut (ls : Lines) : List (List Char) := ended (Text.content ls).toList
  (changes (cut expected) (cut actual)).map fun (change, piece) =>
    let line := String.ofList (piece.reverse.dropWhile (· = '\n')).reverse
    let shown := match change with
      | .same => s!" {line}"
      | .removed => style.red s!"-{line}"
      | .added => style.green s!"+{line}"
    s!"  {shown}"

end Difference

/-- The lines for what a command put out on a stream; a blank output is left out. -/
def outputLines (stream captured : String) : Lines :=
  if isAllBlank captured.toList then []
  else s!"  {stream}:" :: (Text.lines captured).map fun line => s!"  | {line}"

namespace Failure

def statusLines (style : Style) (f : Failure) : Lines :=
  let fail := verdict false style
  let difference := match f.difference with
    | some (expected, actual) =>
      "  (- expected, + actual)" :: Difference.statusLines style expected actual
    | none => []
  let output := match f.output with
    | some (stdout, stderr) => outputLines "stdout" stdout ++ outputLines "stderr" stderr
    | none => []
  s!"{fail} L{f.line} {f.message}" :: difference ++ output

end Failure

namespace Event

/-- The lines of the first stream. -/
def statusLines (style : Style) : Event → Lines
  | .heading h => [style.bold h.content]
  | .success line summary =>
    let pass := verdict true style
    [s!"{pass} L{line} {summary}"]
  | .failure f => f.statusLines style
  | .fault _ | .warning _ => []

/-- What is shown on the second stream. -/
def diagnostic? (source : List Char) : Event → Option Diagnostic
  | .fault f => some (f.diagnostic source)
  | .warning w => some ⟨true, w.message, [Source.lineSpan source w.line], []⟩
  | .heading _ | .success .. | .failure _ => none

end Event

/-- The line that closes a report, or all of them. -/
def Counts.statusLine (style : Style) (title : String) (c : Counts) : String :=
  let passed := verdict (!c.hasFailures) style
  let shownTitle := style.bold title
  s!"{passed} {shownTitle}: {c.text}"

namespace Report

/-- The first stream. -/
def statusLines (style : Style) (r : Report) : Lines :=
  r.events.flatMap (Event.statusLines style) ++ [r.counts.statusLine style "Status"]

/-- The second stream, for a document with a name and a source. -/
def diagnosticLines (name source : String) (r : Report) : Lines :=
  let cs := source.toList
  (r.events.filterMap (Event.diagnostic? cs)).flatMap fun d => d.lines name cs

end Report

end Doctest
