import Doctest.Config.Notation
import Doctest.Snippet

/-!
# Declarations

What a directive declares follows from its body label and from the attributes `each` and
`lineModId`. Everything else about a directive is checked only after that.
-/

namespace Doctest

/-- A snippet whose code block is still to come. -/
structure OpenSnippet where
  properties : Properties
  /-- The language that the directive sets. -/
  lang : Option String

namespace OpenSnippet

def ofDirective (d : Directive) : Except Fault OpenSnippet := do
  let properties ← Properties.ofDirective d ""
  let lang ← d.value? "lang"
  return ⟨properties, lang⟩

/-- The snippet with its code; `lang` is the language of the code block. -/
def close (s : OpenSnippet) (lang : String) (body : Lines) : Element :=
  ⟨{ s.properties with lang := s.lang.getD lang }, body⟩

end OpenSnippet

/-- What a directive declares. -/
inductive Declaration
  /-- A change of the configuration. -/
  | config (line : Nat) (patch : ConfigPatch)
  | lineMod (m : LineMod)
  /-- A snippet that waits for its code block. -/
  | opened (s : OpenSnippet)
  /-- A snippet whose code is the body of the directive. -/
  | closed (e : Element)

namespace Declaration

def lineModAttributes : List String := ["lineModId", "ignoreLines", "searchAndReplace", "at"]

def snippetAttributes : List String := [
  "id", "sequence", "include", "lang", "skip", "only", "alwaysRun", "applyToBody", "applyToOuter",
  "runLocalLines", "runFileName", "ignoreLines", "searchAndReplace", "at", "sameAsId",
  "containedInFile", "write", "writeLocal", "external", "externalLocal", "exitStatus", "stdout",
  "stderr"]

/-- A change of the configuration. -/
def readConfig (d : Directive) : Except Fault Declaration := do
  d.checkAttributes "`config:` directives" []
  let patch ← Except.atLine d.line (ConfigPatch.parse (Text.joinLines d.body))
  return .config d.line patch

/-- A line mod for all snippets of a language. -/
def readLanguageLineMod (d : Directive) : Except Fault Declaration := do
  d.checkAttributes "language line mods (`each`)" ["each"]
  let lang ← d.value? "each"
  let m ← LineMod.ofDirective d (.language (lang.getD ""))
  return .lineMod m

/-- A line mod with an ID. -/
def readAppliableLineMod (d : Directive) : Except Fault Declaration := do
  d.checkAttributes "line mods with `lineModId`" lineModAttributes
  let id ← d.value? "lineModId"
  if id.getD "" = "" then .error (d.fault DeclarationCause.emptyLineModId)
  else
    let m ← LineMod.ofDirective d (.appliable (id.getD ""))
    return .lineMod m

/-- A snippet. -/
def readSnippet (d : Directive) : Except Fault OpenSnippet := do
  d.checkAttributes "snippets" snippetAttributes
  OpenSnippet.ofDirective d

/-- What the directive declares. -/
def ofDirective (d : Directive) : Except Fault Declaration :=
  match d.bodyLabel, d.has "each", d.has "lineModId" with
  | _, true, true => .error (d.fault DeclarationCause.eachWithLineModId)
  | some .config, _, _ => readConfig d
  | some .body, true, false =>
    .error (d.fault (DeclarationCause.labelNotAllowed BodyLabel.body.text "each"))
  | some .insert, true, false =>
    .error (d.fault (DeclarationCause.labelNotAllowed BodyLabel.insert.text "each"))
  | _, true, false => readLanguageLineMod d
  | some .body, false, true =>
    .error (d.fault (DeclarationCause.labelNotAllowed BodyLabel.body.text "lineModId"))
  | _, false, true => readAppliableLineMod d
  | some .body, false, false => (readSnippet d).map fun s => .closed (s.close "" d.body)
  | _, false, false => (readSnippet d).map .opened

end Declaration

end Doctest
