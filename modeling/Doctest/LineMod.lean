import Doctest.Directive
import Doctest.Insertion
import Doctest.Substitution

/-!
# Line mods

A line mod edits lines: it leaves out lines, replaces text in the lines that are kept and inserts
groups of lines among them, in this order. It also has lines that stand before and after a snippet.
Locators of insertions count in the lines that are kept.
-/

namespace Doctest

/-- How a line mod gets to the snippets that it modifies. -/
inductive LineModKind
  /-- It is part of a snippet's own directive. -/
  | internal
  /-- It has an ID by which snippets refer to it. -/
  | appliable (id : String)
  /-- It wraps every snippet of a language. -/
  | language (lang : String)
  /-- It wraps the snippets of a language because a configuration says so. -/
  | config
  deriving DecidableEq, Repr

/-- Whether line mods of this kind may insert groups of lines. -/
def LineModKind.insertsGroups : LineModKind → Bool
  | .internal | .appliable _ => true
  | .language _ | .config => false

structure LineMod where
  line : Nat
  kind : LineModKind
  ignored : LineSet
  substitution : Option Substitution
  insertions : List Insertion
  before : Lines
  after : Lines

namespace Directive

/-- The value of an attribute as its reader gives it, a fault of the reader being put on the
directive's line. -/
def read? {α : Type} (d : Directive) (key : String) (read : String → Except Fault α) :
    Except Fault (Option α) := do
  match ← d.value? key with
  | none => .ok none
  | some text => (Except.atLine d.line (read text)).map some

end Directive

namespace LineMod

/-- A line mod that changes nothing. -/
def plain (line : Nat) (kind : LineModKind) : LineMod := ⟨line, kind, [], none, [], [], []⟩

/-- The line mod that puts the lines of a configuration before a snippet. -/
def ofConfig (line : Nat) (before : Lines) : LineMod := { plain line .config with before }

def id? (m : LineMod) : Option String :=
  match m.kind with
  | .appliable id => some id
  | _ => none

def lang? (m : LineMod) : Option String :=
  match m.kind with
  | .language lang => some lang
  | _ => none

/-- The line mod with what the directive's body says. `points` is the value of the attribute that says
where groups of lines are inserted. -/
def withBody (m : LineMod) (d : Directive) (points : Option String) : Except Fault LineMod :=
  match d.bodyLabel with
  | some .before => .ok { m with before := d.body }
  | some .after => .ok { m with after := d.body }
  | some .around =>
    match d.groups with
    | [before, after] => .ok { m with before, after }
    | groups => .error (d.fault (DeclarationCause.separatorCount (groups.length - 1)))
  | some .insert =>
    if !m.kind.insertsGroups then
      .error (d.fault DeclarationCause.insertNotAllowed)
    else
      match points with
      | none => .error (d.fault DeclarationCause.insertWithoutAt)
      | some text => Except.atLine d.line do
        let points ← InsertionPoint.parseList "at" text
        let insertions ← Insertion.pair points d.groups
        .ok { m with insertions }
  | some .config | some .body | none => .ok m

/-- The line mod that a directive declares with its attributes for editing lines and its body. -/
def ofDirective (d : Directive) (kind : LineModKind) : Except Fault LineMod := do
  let ignored ← d.read? "ignoreLines" (LineSet.parse "ignoreLines")
  let substitution ← d.read? "searchAndReplace" (Substitution.parse "searchAndReplace")
  let points ← d.value? "at"
  if points.isSome && d.bodyLabel ≠ some .insert then
    .error (d.fault DeclarationCause.atWithoutInsert)
  else
    withBody { plain d.line kind with ignored := ignored.getD [], substitution } d points

/-- The lines that are kept, with text replaced. -/
def keep (m : LineMod) (ignored : List Nat) (lines : Lines) : Lines :=
  (lines.zipIdx.filter fun (_, i) => !ignored.contains (i + 1)).map fun (l, _) =>
    match m.substitution with
    | some s => s.apply l
    | none => l

/-- The lines after all edits. -/
def edit (m : LineMod) (lines : Lines) : Except Fault Lines := do
  let ignored ← m.ignored.resolve lines
  Insertion.apply m.insertions (m.keep ignored lines)

/-- The lines between those before and after a snippet. -/
def wrap (m : LineMod) (lines : Lines) : Lines := m.before ++ lines ++ m.after

end LineMod

end Doctest
