import Doctest.Document.Entity

/-!
# Documents

A document is a list of entities with its IDs looked up in advance. Snippets and line mods have IDs
of their own. Where an ID is declared twice the first declaration counts, and a fault says so.
-/

namespace Doctest

structure Document where
  entities : List Entity
  snippetsById : Keyed Snippet
  lineModsById : Keyed LineMod
  /-- Whether some snippet is the only one to run. -/
  hasOnly : Bool
  /-- The IDs that are declared more than once. -/
  indexFaults : List Fault

namespace Document

/-- The document without entities. -/
def empty : Document := ⟨[], .empty, .empty, false, []⟩

/-- The fault of an ID that is declared again. -/
def duplicate (cause : DocumentCause) (first second : Nat) : Fault :=
  (Fault.atLine second cause).withNote s!"first declared at line {first}"

/-- The index with the snippet's ID. -/
def indexSnippet (d : Document) (s : Snippet) (id : String) : Document :=
  match d.snippetsById.get? id with
  | none => { d with snippetsById := d.snippetsById.insert id s }
  | some first => { d with indexFaults := d.indexFaults ++
      [duplicate (.duplicateSnippetId id first.line s.line) first.line s.line] }

/-- The index with the line mod's ID. -/
def indexLineMod (d : Document) (m : LineMod) (id : String) : Document :=
  match d.lineModsById.get? id with
  | none => { d with lineModsById := d.lineModsById.insert id m }
  | some first => { d with indexFaults := d.indexFaults ++
      [duplicate (.duplicateLineModId id first.line m.line) first.line m.line] }

/-- The document with one more entity at its end. -/
def add (d : Document) (e : Entity) : Document :=
  let d := { d with entities := d.entities ++ [e] }
  match e with
  | .snippet s =>
    let d := { d with hasOnly := d.hasOnly || s.mode = .only }
    s.id.elim d (d.indexSnippet s)
  | .lineMod m => m.id?.elim d (d.indexLineMod m)
  | .config .. | .heading _ => d

/-- The document of a list of entities. -/
def ofEntities (entities : List Entity) : Document := entities.foldl add empty

/-- The document that a Markdown text holds. -/
def parse (source : String) : Except (List Fault) Document := do
  let tokens ← Token.ofSource source
  let entities ← Entity.ofTokens tokens
  return ofEntities entities

def snippet? (d : Document) (id : String) : Option Snippet := d.snippetsById.get? id
def lineMod? (d : Document) (id : String) : Option LineMod := d.lineModsById.get? id

/-- The snippets in document order. -/
def snippets (d : Document) : List Snippet :=
  d.entities.filterMap fun
    | .snippet s => some s
    | _ => none

/-- The line mods for all snippets of a language, in document order. -/
def languageLineMods (d : Document) : List LineMod :=
  d.entities.filterMap fun
    | .lineMod m => if m.lang?.isSome then some m else none
    | _ => none

end Document

end Doctest
