import Doctest.Run

/-!
# Runs that note what they look up

Snippets and line mods refer to each other by IDs. Here is a run that keeps a note of each ID that it
looks up, in assembly, in the checks of what commands put out and in the files beside the main one.
Whatever else it does is what `Document.run` does, step by step. Later on it is shown that it comes to the
same, and that no lookup is missing from its notes.

* `Lookup`: an ID that was looked up, and whether the lookup succeeded.
* `Noted`: a value and the lookups that were made for it.
* `Scope.notedSnippet`, `Scope.notedLineMod`: the two functions that look things up. All others look
  things up by these alone.
* `Document.notedRun`: the run of a document.
-/

namespace Doctest

/-- What an ID is expected to stand for. -/
inductive IdKind
  | snippet
  | lineMod
  deriving DecidableEq, Repr

/-- An ID that was looked up. -/
structure Lookup where
  kind : IdKind
  id : String
  /-- Whether the ID stands for something of the kind. -/
  found : Bool
  deriving DecidableEq, Repr

/-- A value with the lookups that were made for it, in order. -/
structure Noted (α : Type) where
  value : α
  lookups : List Lookup

namespace Noted

instance : Monad Noted where
  pure a := ⟨a, []⟩
  bind x f := ⟨(f x.value).value, x.lookups ++ (f x.value).lookups⟩

@[simp] theorem pure_value {α : Type} (a : α) : (pure a : Noted α).value = a := rfl

@[simp] theorem pure_lookups {α : Type} (a : α) : (pure a : Noted α).lookups = [] := rfl

@[simp] theorem bind_value {α β : Type} (x : Noted α) (f : α → Noted β) :
    (x >>= f).value = (f x.value).value := rfl

@[simp] theorem bind_lookups {α β : Type} (x : Noted α) (f : α → Noted β) :
    (x >>= f).lookups = x.lookups ++ (f x.value).lookups := rfl

instance : LawfulMonad Noted := LawfulMonad.mk' Noted
  (by intro α x; simp [Functor.map])
  (by intro α β a f; rfl)
  (by intro α β γ x f g; simp [bind, List.append_assoc])

end Noted

/-- A result or an error, with the lookups made on the way to it. -/
abbrev NotedExcept (ε α : Type) : Type := ExceptT ε Noted α

/-- Something that makes calls and looks IDs up. -/
abbrev NotedStep (σ α : Type) : Type := StateT (World σ) Noted α

/-- Something that makes calls, looks IDs up and may end early. -/
abbrev NotedAction (σ α : Type) : Type := ExceptT Stop (NotedStep σ) α

/-- Notes a lookup. -/
def Lookup.note {ε : Type} (l : Lookup) : NotedExcept ε Unit := ExceptT.mk ⟨.ok (), [l]⟩

namespace NotedAction

variable {σ α : Type}

/-- An action that looks nothing up. -/
def ofAction (x : Action σ α) : NotedAction σ α := ExceptT.mk fun w => pure (x.run w)

/-- A result that may be a stop. -/
def ofExcept (x : NotedExcept Stop α) : NotedAction σ α :=
  ExceptT.mk fun w => do
    let result ← x.run
    pure (result, w)

/-- A result that may be a fault. -/
def ofFault (x : NotedExcept Fault α) : NotedAction σ α := ofExcept (x.adapt .fault)

end NotedAction

namespace Element

/-- The lines of what is included, as `arrange` puts them together. -/
def notedArrange (includeLines : String → NotedExcept Fault Lines) :
    (body : Option Lines) → List String → NotedExcept Fault Lines
  | body, [] => pure (body.getD [])
  | body, id :: ids =>
    if id = thisMark then do
      let rest ← notedArrange includeLines none ids
      return body.getD [] ++ rest
    else do
      let lines ← includeLines id
      let rest ← notedArrange includeLines body ids
      return lines ++ rest

end Element

namespace Scope

/-! ## References -/

def notedSnippet (scope : Scope) (line : Nat) (key id : String) : NotedExcept Fault Snippet :=
  ExceptT.mk ⟨scope.snippet line key id, [⟨.snippet, id, (scope.snippet line key id).isOk⟩]⟩

def notedLineMod (scope : Scope) (line : Nat) (key id : String) : NotedExcept Fault LineMod :=
  ExceptT.mk ⟨scope.lineMod line key id, [⟨.lineMod, id, (scope.lineMod line key id).isOk⟩]⟩

/-! ## Assembly -/

def notedBodyLineMod (scope : Scope) (p : Properties) : NotedExcept Fault (Option LineMod) :=
  match p.applyToBody with
  | some id => some <$> scope.notedLineMod p.line "applyToBody" id
  | none => pure p.lineMod

def notedBodyLines (scope : Scope) (e : Element) : NotedExcept Fault Lines := do
  match ← scope.notedBodyLineMod e.properties with
  | some m =>
    let edited ← MonadExcept.ofExcept (Except.atLine e.properties.line (m.edit e.body))
    let lines ← MonadExcept.ofExcept (scope.translated e.properties edited)
    return m.wrap lines
  | none => MonadExcept.ofExcept (scope.translated e.properties e.body)

/-- The inner lines of a snippet that was reached along a path of IDs. -/
def notedLinesAlong (scope : Scope) (path : List String) (s : Snippet) :
    NotedExcept Fault Lines := do
  let parts ← s.elements.mapM fun e => do
    let body ← scope.notedBodyLines e
    let line := e.properties.line
    Element.notedArrange (fun id =>
      if hpath : id ∈ path then throw (.atLine line (RunCause.includeCycle (path ++ [id])))
      else
        -- A lookup as in `notedSnippet`. What was found has to be at hand for the measure.
        match hfound : scope.snippet line "include" id with
        | .error fault => do
          Lookup.note ⟨.snippet, id, false⟩
          throw fault
        | .ok included => do
          have : unvisited scope.document.snippetsById.keys (path ++ [id]) <
              unvisited scope.document.snippetsById.keys path :=
            unvisited_append_lt (Keyed.mem_keys_of_get? (snippet?_of_snippet hfound)) hpath
          Lookup.note ⟨.snippet, id, true⟩
          scope.notedLinesAlong (path ++ [id]) included) (some body) e.properties.includes
  return parts.flatten
termination_by unvisited scope.document.snippetsById.keys path

def notedInnerLines (scope : Scope) (s : Snippet) : NotedExcept Fault Lines :=
  scope.notedLinesAlong s.id.toList s

def notedOuterLineMods (scope : Scope) (p : Properties) : NotedExcept Fault (List LineMod) := do
  let ofLanguage ← if p.runLocalLines then pure [] else do
    let config ← MonadExcept.ofExcept (scope.configLineMod p)
    pure (config.toList ++ scope.lineMods.filter (·.lang? = some p.lang))
  let own ← match p.applyToOuter with
    | some id => ([·]) <$> scope.notedLineMod p.line "applyToOuter" id
    | none => pure []
  return ofLanguage ++ own

def notedOuterLines (scope : Scope) (s : Snippet) : NotedExcept Fault Lines := do
  let outer ← scope.notedOuterLineMods s.properties
  let inner ← scope.notedInnerLines s
  return outer.foldr LineMod.wrap inner

/-! ## What commands put out -/

def notedCheckStream (scope : Scope) (line : Nat) (key : String) (content : StreamContent)
    (captured : String) : NotedExcept Stop Unit := do
  let lift {α : Type} (result : NotedExcept Fault α) : NotedExcept Stop α := result.adapt .fault
  let other ← lift (scope.notedSnippet line key content.snippetId)
  let expected ← lift (scope.notedInnerLines other)
  let actual ← match content.lineModId with
    | none => pure (Text.lines captured)
    | some id => do
      let m ← lift (scope.notedLineMod line key id)
      lift (MonadExcept.ofExcept (Except.atLine line (m.edit (Text.lines captured))))
  if sameLines expected actual then pure ()
  else
    throw (.failure { Failure.of line s!"Output of `{key}` differs from snippet `{content.snippetId}`"
      with difference := some (expected, actual) })

def notedCheckStream? (scope : Scope) (line : Nat) (key : String) (content : Option StreamContent)
    (captured : String) : NotedExcept Stop Unit :=
  match content with
  | some content => scope.notedCheckStream line key content captured
  | none => pure ()

def notedCheckLast (scope : Scope) (p : Properties) (r : CommandResult) :
    NotedExcept Stop Unit := do
  let _ ← MonadExcept.ofExcept (checkExit p r)
  scope.notedCheckStream? p.line "stdout" p.stdout r.stdout
  scope.notedCheckStream? p.line "stderr" p.stderr r.stderr

/-! ## Snippets -/

section Actions

variable {σ : Type}

open NotedAction

def notedRunAll (host : Host σ) (line : Nat) (checkLast : CommandResult → NotedExcept Stop Unit) :
    List (List String) → NotedAction σ Unit
  | [] => pure ()
  | [argv] => do
    let r ← ofAction (runCommand host line argv)
    ofExcept (checkLast r)
  | argv :: rest => do
    let r ← ofAction (runCommand host line argv)
    let _ ← ofAction (MonadExcept.ofExcept (checkSuccess line r))
    notedRunAll host line checkLast rest

def notedExternalLines (scope : Scope) (line : Nat) (external : External) :
    NotedExcept Fault Lines :=
  match external.id with
  | none => pure []
  | some id => do
    let other ← scope.notedSnippet line "external" id
    if external.localLines then scope.notedInnerLines other else scope.notedOuterLines other

def notedRunSnippet (scope : Scope) (host : Host σ) (s : Snippet) (d : CommandDef) :
    NotedAction σ Outcome := do
  let p := s.properties
  match s.fileName d with
  | none => throw (.fault (.atLine p.line (RunCause.noFileName p.lang)))
  | some file =>
    let lines ← ofFault (scope.notedOuterLines s)
    ofAction (writeFile host p.line file lines)
    p.externals.forM fun external => do
      let lines ← ofFault (scope.notedExternalLines p.line external)
      ofAction (writeFile host p.line external.fileName lines)
    match fillCommands (d.commands.getD []) file (s.allFileNames file) with
    | [] => return .done s!"wrote {file}"
    | commands =>
      notedRunAll host p.line (scope.notedCheckLast p) commands
      return .done s!"ran {file}"

def notedCompareSnippet (scope : Scope) (s : Snippet) (id : String) : NotedAction σ Outcome := do
  let line := s.line
  let other ← ofFault (scope.notedSnippet line "sameAsId" id)
  let expected ← ofFault (scope.notedInnerLines other)
  let actual ← ofFault (scope.notedInnerLines s)
  if sameLines expected actual then return .done s!"same as `{id}`"
  else
    throw (.failure { Failure.of line s!"Content is not the same as snippet `{id}`" with
      difference := some (expected, actual) })

def notedFindSnippet (scope : Scope) (host : Host σ) (s : Snippet) (path : String) :
    NotedAction σ Outcome := do
  let line := s.line
  match ← ofAction (Action.ask host (.read path)) with
  | .error reason => throw (.fault (.atLine line (RunCause.unreadableFile path reason)))
  | .ok content =>
    let lines := Text.lines content
    let own ← ofFault (scope.notedInnerLines s)
    if containsLines lines own then return .done s!"contained in `{path}`"
    else
      throw (.failure { Failure.of line s!"Content is not contained in file `{path}`" with
        difference := some (own, lines) })

def notedWriteSnippet (scope : Scope) (host : Host σ) (s : Snippet) : NotedAction σ Unit := do
  let p := s.properties
  match p.writeLocal with
  | some file =>
    let lines ← ofFault (scope.notedInnerLines s)
    ofAction (writeFile host p.line file lines)
  | none => pure ()
  match p.write with
  | some file =>
    let lines ← ofFault (scope.notedOuterLines s)
    ofAction (writeFile host p.line file lines)
  | none => pure ()

def notedHandleByLanguage (scope : Scope) (host : Host σ) (s : Snippet) :
    NotedAction σ Outcome := do
  let p := s.properties
  match ← ofAction (Action.ofFault (scope.language? p)) with
  | none => throw (.fault (.atLine p.line (RunCause.unknownLanguage p.lang)))
  | some .skip => return .idle
  | some d =>
    match p.writeLocal.toList ++ p.write.toList with
    | [] =>
      match d with
      | .command d => scope.notedRunSnippet host s d
      | _ =>
        let _ ← ofFault (scope.notedOuterLines s)
        return .idle
    | files =>
      scope.notedWriteSnippet host s
      let names := ", ".intercalate files
      return .done s!"wrote {names}"

def notedHandle (scope : Scope) (host : Host σ) (s : Snippet) : NotedAction σ Outcome :=
  match s.properties.sameAs, s.properties.containedInFile with
  | some id, _ => scope.notedCompareSnippet s id
  | none, some path => scope.notedFindSnippet host s path
  | none, none => scope.notedHandleByLanguage host s

end Actions

end Scope

/-! ## Documents -/

namespace RunState

variable {σ : Type}

def notedVisit (d : Document) (host : Host σ) (st : RunState) (e : Entity) :
    NotedStep σ (Except Abort RunState) :=
  match e with
  | .snippet s =>
    if s.isRun d.hasOnly then
      st.conclude s.line <$> (Scope.notedHandle ⟨d, st.config, st.lineMods⟩ host s).run
    else pure (.ok st)
  -- Nothing is looked up for the others.
  | e => fun w => pure (st.visit d host e w)

def notedVisitAll (d : Document) (host : Host σ) (st : RunState) :
    List Entity → NotedStep σ (Except Abort RunState)
  | [] => pure (.ok st)
  | e :: rest => do
    match ← st.notedVisit d host e with
    | .ok st => notedVisitAll d host st rest
    | .error a => pure (.error a)

end RunState

/-- Runs a document, and notes what is looked up. -/
def Document.notedRun {σ : Type} (d : Document) (host : Host σ) (config : Config) :
    NotedStep σ (Except Abort Report) := do
  match ← RunState.notedVisitAll d host (.start d config) d.entities with
  | .ok st => pure (.ok (st.report.recordAll (d.unusedIds.map .warning)))
  | .error a => pure (.error a)

end Doctest
