import Doctest.Document.Entity

/-!
# Reports

What a run of a document comes to: a log of events in document order and their number by kind.
Failures and faults make a run fail, warnings do not.
-/

namespace Doctest

/-- A snippet that did not do what its document says. -/
structure Failure where
  line : Nat
  message : String
  /-- The expected and the actual lines. -/
  difference : Option (Lines × Lines)
  /-- The output of the command that failed. -/
  output : Option (String × String)
  deriving DecidableEq, Repr

namespace Failure

def of (line : Nat) (message : String) : Failure := ⟨line, message, none, none⟩

/-- The message with the line. -/
def text (f : Failure) : String := s!"{f.message} (line {f.line})"

end Failure

/-- A declaration that nothing refers to. -/
structure Warning where
  line : Nat
  message : String
  deriving DecidableEq, Repr

/-- An entry of the log. -/
inductive Event
  /-- The heading above what follows. -/
  | heading (h : Heading)
  | success (line : Nat) (summary : String)
  | failure (f : Failure)
  | fault (f : Fault)
  | warning (w : Warning)
  deriving DecidableEq, Repr

/-- How many events there are of each kind. -/
structure Counts where
  successes : Nat
  failures : Nat
  faults : Nat
  warnings : Nat
  deriving DecidableEq, Repr, Inhabited

namespace Counts

def zero : Counts := ⟨0, 0, 0, 0⟩

/-- The counts with one more event. -/
def record (c : Counts) : Event → Counts
  | .heading _ => c
  | .success .. => { c with successes := c.successes + 1 }
  | .failure _ => { c with failures := c.failures + 1 }
  | .fault _ => { c with faults := c.faults + 1 }
  | .warning _ => { c with warnings := c.warnings + 1 }

def add (a b : Counts) : Counts :=
  ⟨a.successes + b.successes, a.failures + b.failures, a.faults + b.faults,
    a.warnings + b.warnings⟩

instance : Add Counts := ⟨add⟩

def hasFailures (c : Counts) : Bool := 0 < c.failures || 0 < c.faults

def text (c : Counts) : String :=
  s!"successes: {c.successes}, test failures: {c.failures}, syntax errors: {c.faults}, warnings: {c.warnings}"

end Counts

/-- The log of a run and its counts. -/
structure Report where
  events : List Event
  counts : Counts
  deriving DecidableEq, Repr, Inhabited

namespace Report

def empty : Report := ⟨[], .zero⟩

/-- The report with one more event at its end. -/
def record (r : Report) (e : Event) : Report := ⟨r.events ++ [e], r.counts.record e⟩

/-- The report with more events at its end. -/
def recordAll (r : Report) (es : List Event) : Report := es.foldl record r

/-- The report on a document that cannot be read. -/
def ofFaults (faults : List Fault) : Report := empty.recordAll (faults.map .fault)

end Report

end Doctest
