import Doctest.Config
import Doctest.Text.Blank
import Doctest.Yaml.Writer

/-!
# Configurations in writing

A patch is written in relaxed JSON: YAML, where also `//` starts a comment at the start of a line,
behind a blank, a comma or an opening bracket. `ConfigPatch.ofNode` checks the node that was read
against the fields that a patch may have, in the order of the text; `ConfigPatch.toTree` is the node
to be written.
-/

namespace Doctest

open Yaml (Node Tree)

namespace LineComment

/-- Where a line is: outside strings, or in one with this quote. -/
inductive Inside
  | plain
  | quoted (quote : Char) (escaped : Bool)
  deriving DecidableEq

/-- The state behind a character. -/
def Inside.next (inside : Inside) (c : Char) : Inside :=
  match inside with
  | .plain => if c = '"' || c = '\'' then .quoted c false else .plain
  | .quoted q escaped =>
    if q = '"' && escaped then .quoted q false
    else if q = '"' && c = '\\' then .quoted q true
    else if c = q then .plain
    else .quoted q false

/-- Whether a comment may start behind this character. -/
def separates (c : Char) : Bool := Text.isBlank c || c = ',' || c = '{' || c = '['

/-- The number of characters of the line in front of a comment. -/
def startFrom? (inside : Inside) (before : Option Char) : List Char → Option Nat
  | [] => none
  | c :: cs =>
    if inside = .plain && c = '/' && cs.head? = some '/' && before.all separates then some 0
    else (startFrom? (inside.next c) (some c) cs).map (· + 1)

/-- Where the comment of a line starts. -/
def start? (line : List Char) : Option Nat := startFrom? .plain none line

/-- The line without its comment. -/
def stripLine (line : List Char) : List Char := line.take ((start? line).getD line.length)

/-- The text without its comments. -/
def strip (text : List Char) : List Char :=
  ['\n'].intercalate ((Text.lineList text).map stripLine)

end LineComment

namespace Yaml.Node

/-- The path to an entry of a mapping. -/
def entryPath (path key : String) : String := if path = "" then key else path ++ "." ++ key

/-- The path to an item of a sequence. -/
def itemPath (path : String) (index : Nat) : String := s!"{path}[{index}]"

/-- The problem of a node that is not what was wanted. A cut breaks the text. -/
def mismatch (node : Node) (path wanted : String) : ConfigCause :=
  match node with
  | .cut => .unreadable
  | _ => .schema path ("invalid type: " ++ node.describe ++ ", expected " ++ wanted)

/-- Reads any scalar as text. -/
def asText (path : String) : Node → Except ConfigCause String
  | .scalar _ text => .ok text
  | node => .error (node.mismatch path "a string")

/-- Reads the items of a sequence. -/
def asItems {α : Type} (read : String → Node → Except ConfigCause α) (path : String) :
    (index : Nat) → List Node → Except ConfigCause (List α)
  | _, [] => .ok []
  | index, node :: rest => do
    let item ← match node with
      | .cut => .error .unreadable
      | _ => read (itemPath path index) node
    let items ← asItems read path (index + 1) rest
    .ok (item :: items)

/-- Reads a sequence; a scalar that is not there is an empty one. -/
def asList {α : Type} (read : String → Node → Except ConfigCause α) (path : String)
    (node : Node) : Except ConfigCause (List α) :=
  match node with
  | .sequence items => asItems read path 0 items
  | _ => if node.isNothing then .ok [] else .error (node.mismatch path "a sequence")

/-- Reads a value that may be null. -/
def asOption {α : Type} (read : String → Node → Except ConfigCause α) (path : String)
    (node : Node) : Except ConfigCause (Option α) :=
  if node.isNull then .ok none else (read path node).map some

/-- Reads the name of a field. -/
def asField (path : String) : Node → Except ConfigCause String
  | .scalar _ text => .ok text
  | node => .error (node.mismatch path "field identifier")

/-- Checks the name of a field: it has to be known and new. -/
def checkField (path : String) (known : List String) (seen : List String) (name : String) :
    Except ConfigCause Unit :=
  if !known.contains name then
    let names := match known with
      | [a, b] => s!"`{a}` or `{b}`"
      | _ => "one of " ++ codeList known
    .error (.schema path s!"unknown field `{name}`, expected {names}")
  else if seen.contains name then .error (.schema path s!"duplicate field `{name}`")
  else .ok ()

end Yaml.Node

namespace CommandDef

def fieldNames : List String :=
  ["extends", "defaultFileName", "runFileName", "commands", "beforeLines", "translator"]

/-- Reads a list of texts. -/
def textsOfNode (path : String) (node : Node) : Except ConfigCause Lines :=
  node.asList Node.asText path

/-- Sets the field with this name. -/
def readField (d : CommandDef) (path name : String) (node : Node) : Except ConfigCause CommandDef :=
  let path := Node.entryPath path name
  let text := node.asOption Node.asText path
  match name with
  | "extends" => text.map fun v => { d with parent := v }
  | "defaultFileName" => text.map fun v => { d with defaultFileName := v }
  | "runFileName" => text.map fun v => { d with runFileName := v }
  | "commands" =>
    (node.asOption (fun p n => n.asList textsOfNode p) path).map fun v => { d with commands := v }
  | "beforeLines" => (node.asOption textsOfNode path).map fun v => { d with beforeLines := v }
  | _ => text.map fun v => { d with translator := v }

/-- Reads the entries of a definition; `seen` are the fields set so far. -/
def ofEntries (path : String) : CommandDef → (seen : List String) → List (Node × Node) →
    Except ConfigCause CommandDef
  | d, _, [] => .ok d
  | d, seen, (key, value) :: rest => do
    let name ← key.asField path
    Node.checkField path fieldNames seen name
    let d ← d.readField path name value
    ofEntries path d (name :: seen) rest

def toTree (d : CommandDef) : Tree :=
  let texts (name : String) (value : Option String) : List (String × Tree) :=
    (value.map fun t => (name, .text t)).toList
  .record (texts "extends" d.parent ++ texts "defaultFileName" d.defaultFileName ++
    texts "runFileName" d.runFileName ++
    (d.commands.map fun cs =>
      ("commands", Tree.list (cs.map fun c => .list (c.map .text)))).toList ++
    (d.beforeLines.map fun ls => ("beforeLines", Tree.list (ls.map .text))).toList ++
    texts "translator" d.translator)

end CommandDef

namespace LangDef

def neverRunWord : String := "[neverRun]"
def skipWord : String := "[skip]"

/-- What is expected of a language's definition. -/
def wanted : String := "a command definition, \"[neverRun]\" or \"[skip]\""

/-- Reads the definition of a language. -/
def ofNode (path : String) (node : Node) : Except ConfigCause LangDef :=
  match node with
  | .mapping entries => do
    let d ← CommandDef.ofEntries path .empty [] entries
    .ok (.command d)
  | .scalar plain text =>
    if plain && Yaml.Kind.ofPlain text.toList != .text then .error (node.mismatch path wanted)
    else if text = neverRunWord then .ok .neverRun
    else if text = skipWord then .ok .skip
    else
      .error (.schema path
        ("invalid value: " ++ Yaml.Kind.text.describe text ++ ", expected " ++ wanted))
  | _ => .error (node.mismatch path wanted)

def toTree : LangDef → Tree
  | .command d => d.toTree
  | .neverRun => .text neverRunWord
  | .skip => .text skipWord

end LangDef

namespace ConfigPatch

/-- The patch that changes nothing. -/
def empty : ConfigPatch := ⟨none, none⟩

def fieldNames : List String := ["markcheckDirectory", "lang"]

/-- Reads the definitions of languages. -/
def languagesOfEntries (path : String) (found : Keyed LangDef) :
    List (Node × Node) → Except ConfigCause (Keyed LangDef)
  | [] => .ok found
  | (key, value) :: rest => do
    let name ← key.asText path
    let d ← LangDef.ofNode (Node.entryPath path name) value
    languagesOfEntries path (found.insert name d) rest

/-- Reads a mapping of languages; a scalar that is not there is an empty one. -/
def languagesOfNode (path : String) (node : Node) : Except ConfigCause (Keyed LangDef) :=
  match node with
  | .mapping entries => languagesOfEntries path .empty entries
  | _ => if node.isNothing then .ok .empty else .error (node.mismatch path "a map")

/-- Sets the field with this name. -/
def readField (patch : ConfigPatch) (name : String) (node : Node) :
    Except ConfigCause ConfigPatch :=
  match name with
  | "lang" => (node.asOption languagesOfNode name).map fun v => { patch with languages := v }
  | _ => (node.asOption Node.asText name).map fun v => { patch with directory := v }

/-- Reads the entries of a patch; `seen` are the fields set so far. -/
def ofEntries : ConfigPatch → (seen : List String) → List (Node × Node) →
    Except ConfigCause ConfigPatch
  | patch, _, [] => .ok patch
  | patch, seen, (key, value) :: rest => do
    let name ← key.asField ""
    Node.checkField "" fieldNames seen name
    let patch ← patch.readField name value
    ofEntries patch (name :: seen) rest

/-- Reads a patch from a node. -/
def ofNode (node : Node) : Except ConfigCause ConfigPatch :=
  match node with
  | .mapping entries => ofEntries empty [] entries
  | _ => if node.isNothing then .ok empty else .error (node.mismatch "" "struct ConfigPatch")

/-- Reads a patch from relaxed JSON. -/
def parse (text : String) : Except Fault ConfigPatch :=
  let text := LineComment.strip text.toList
  if Text.isAllBlank text then .ok empty
  else
    let content := Node.read text
    match content.root with
    | none => if content.complete then .ok empty else .error (.of ConfigCause.unreadable)
    | some node =>
      match ofNode node with
      | .error cause => .error (.of cause)
      | .ok patch => if content.complete then .ok patch else .error (.of ConfigCause.unreadable)

/-- The fields that are set, as a tree. -/
def toTree (patch : ConfigPatch) : List (String × Tree) :=
  (patch.directory.map fun d => ("markcheckDirectory", Tree.text d)).toList ++
    (patch.languages.map fun ls =>
      ("lang", Tree.record (ls.entries.map fun (k, d) => (k, d.toTree)))).toList

/-- The patch as YAML. -/
def toYaml (patch : ConfigPatch) : String := Yaml.Writer.document patch.toTree

end ConfigPatch

end Doctest
