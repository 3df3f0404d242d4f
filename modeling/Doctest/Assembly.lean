import Doctest.Document
import Doctest.Transcript

/-!
# Putting snippets together

The inner lines of a snippet are its body and those of the snippets that it includes. The outer lines
add what its language and its line mods put around them. Includes may not form a cycle:
`Scope.innerLines` follows them with the path of the IDs it came along, and each step takes an ID that
is not on the path.
-/

namespace Doctest

/-- What assembly looks things up in: the document, the configuration in force and the line mods for
languages declared so far. -/
structure Scope where
  document : Document
  config : Config
  lineMods : List LineMod

namespace Element

/-- Stands for the snippet's own body among the IDs of what it includes. -/
def thisMark : String := "$THIS"

/-- The lines of what is included, in order, with the body at its mark, or last. A mark after the
first one stands for nothing. -/
def arrange (includeLines : String → Except Fault Lines) :
    (body : Option Lines) → List String → Except Fault Lines
  | body, [] => .ok (body.getD [])
  | body, id :: ids =>
    if id = thisMark then do
      let rest ← arrange includeLines none ids
      return body.getD [] ++ rest
    else do
      let lines ← includeLines id
      let rest ← arrange includeLines body ids
      return lines ++ rest

end Element

namespace Scope

/-- The scope at the end of a document: all its patches and line mods for languages count. -/
def atEnd (document : Document) (config : Config) : Scope where
  document
  config := document.entities.foldl (fun c e => match e with
    | .config _ patch => c.apply patch
    | _ => c) config
  lineMods := document.languageLineMods

/-! ## References -/

/-- The snippet with an ID that the attribute `key` on a line refers to. -/
def snippet (scope : Scope) (line : Nat) (key id : String) : Except Fault Snippet :=
  match scope.document.snippet? id with
  | some s => .ok s
  | none =>
    if (scope.document.lineMod? id).isSome then
      .error (.atLine line (RunCause.snippetExpected key id))
    else .error (.atLine line (RunCause.unknownSnippet id key))

theorem snippet?_of_snippet {scope : Scope} {line : Nat} {key id : String} {s : Snippet}
    (h : scope.snippet line key id = .ok s) : scope.document.snippet? id = some s := by
  unfold snippet at h
  split at h
  · next heq =>
    cases h
    exact heq
  · split at h <;> cases h

theorem snippet_eq_ok {scope : Scope} {line : Nat} {key id : String} {s : Snippet} :
    scope.snippet line key id = .ok s ↔ scope.document.snippet? id = some s := by
  constructor
  · exact snippet?_of_snippet
  · intro h
    unfold snippet
    rw [h]

/-- The line mod with an ID that the attribute `key` on a line refers to. -/
def lineMod (scope : Scope) (line : Nat) (key id : String) : Except Fault LineMod :=
  match scope.document.lineMod? id with
  | some m => .ok m
  | none =>
    if (scope.document.snippet? id).isSome then
      .error (.atLine line (RunCause.lineModExpected key id))
    else .error (.atLine line (RunCause.unknownLineMod id key))

theorem lineMod_eq_ok {scope : Scope} {line : Nat} {key id : String} {m : LineMod} :
    scope.lineMod line key id = .ok m ↔ scope.document.lineMod? id = some m := by
  unfold lineMod
  cases scope.document.lineMod? id with
  | none => by_cases hsnippet : (scope.document.snippet? id).isSome <;> simp [hsnippet]
  | some m => simp

/-- The definition of a snippet's language. -/
def language? (scope : Scope) (p : Properties) : Except Fault (Option LangDef) :=
  Except.atLine p.line (scope.config.lang? p.lang)

/-! ## Inner lines -/

/-- The line mod that edits and wraps an element's body. -/
def bodyLineMod (scope : Scope) (p : Properties) : Except Fault (Option LineMod) :=
  match p.applyToBody with
  | some id => (scope.lineMod p.line "applyToBody" id).map some
  | none => .ok p.lineMod

/-- The lines in the form that the language runs. -/
def translated (scope : Scope) (p : Properties) (lines : Lines) : Except Fault Lines := do
  match ← scope.language? p with
  | some (.command { translator := some key, .. }) =>
    match translator? key with
    | some translate => return translate lines
    | none => .error (.atLine p.line (RunCause.unknownTranslator key p.lang))
  | _ => return lines

/-- The body of an element after editing, translation and wrapping. -/
def bodyLines (scope : Scope) (e : Element) : Except Fault Lines := do
  match ← scope.bodyLineMod e.properties with
  | some m =>
    let edited ← Except.atLine e.properties.line (m.edit e.body)
    let lines ← scope.translated e.properties edited
    return m.wrap lines
  | none => scope.translated e.properties e.body

/-- The inner lines of a snippet that was reached along a path of IDs. -/
def linesAlong (scope : Scope) (path : List String) (s : Snippet) : Except Fault Lines := do
  let parts ← s.elements.mapM fun e => do
    let body ← scope.bodyLines e
    let line := e.properties.line
    Element.arrange (fun id =>
      if hpath : id ∈ path then .error (.atLine line (RunCause.includeCycle (path ++ [id])))
      else
        match hfound : scope.snippet line "include" id with
        | .error fault => .error fault
        | .ok included =>
          have : unvisited scope.document.snippetsById.keys (path ++ [id]) <
              unvisited scope.document.snippetsById.keys path :=
            unvisited_append_lt (Keyed.mem_keys_of_get? (snippet?_of_snippet hfound)) hpath
          scope.linesAlong (path ++ [id]) included) (some body) e.properties.includes
  return parts.flatten
termination_by unvisited scope.document.snippetsById.keys path

/-- The inner lines of a snippet. -/
def innerLines (scope : Scope) (s : Snippet) : Except Fault Lines := scope.linesAlong s.id.toList s

/-! ## Outer lines -/

/-- The line mod that puts the lines of the configuration before a snippet. -/
def configLineMod (scope : Scope) (p : Properties) : Except Fault (Option LineMod) := do
  match ← scope.language? p with
  | some (.command { beforeLines := some lines, .. }) =>
    return if lines.isEmpty then none else some (.ofConfig p.line lines)
  | _ => return none

/-- The line mods around a snippet, from the outside in. -/
def outerLineMods (scope : Scope) (p : Properties) : Except Fault (List LineMod) := do
  let ofLanguage ← if p.runLocalLines then pure [] else do
    let config ← scope.configLineMod p
    pure (config.toList ++ scope.lineMods.filter (·.lang? = some p.lang))
  let own ← match p.applyToOuter with
    | some id => (scope.lineMod p.line "applyToOuter" id).map ([·])
    | none => pure []
  return ofLanguage ++ own

/-- The lines of a snippet as they are written to its file. -/
def outerLines (scope : Scope) (s : Snippet) : Except Fault Lines := do
  let outer ← scope.outerLineMods s.properties
  let inner ← scope.innerLines s
  return outer.foldr LineMod.wrap inner

end Scope

end Doctest
