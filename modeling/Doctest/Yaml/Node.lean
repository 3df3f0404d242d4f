import Doctest.Yaml.Token

/-!
# Nodes of a YAML text

A node is a scalar, a sequence or a mapping. Where a text breaks off or breaks a rule, the nodes in
front of that place are still there: the tree then has a `cut` where the next node would have been.
So what is read from the front part of a text does not depend on what follows.
-/

namespace Doctest.Yaml

/-- A node. A plain scalar may stand for something other than text. -/
inductive Node
  | scalar (plain : Bool) (text : String)
  | sequence (items : List Node)
  | mapping (entries : List (Node × Node))
  | cut
  deriving Repr, Inhabited

/-- The anchors that were set, with their nodes. -/
abbrev Anchors := List (String × Node)

/-- The rest of the tokens and the anchors behind a node; `none` behind a cut. -/
abbrev After := Option (List Token × Anchors)

namespace Node

/-- The scalar that is not there. -/
def nothing : Node := .scalar true ""

/-- Whether a block may start here. -/
inductive Context
  | flow
  | block
  /-- A sequence may start without indentation. -/
  | blockValue
  deriving DecidableEq

/-- Takes the anchor and the tag in front of a node: the anchor's name, whether the tag says that a
scalar is text, whether there is any of the two, and the rest. -/
def takeProperties (tokens : List Token) : Option String × Bool × Bool × List Token :=
  match tokens with
  | .anchor a :: .tag t :: rest => (some a, t == "!!str" || t == "!", true, rest)
  | .tag t :: .anchor a :: rest => (some a, t == "!!str" || t == "!", true, rest)
  | .anchor a :: rest => (some a, false, true, rest)
  | .tag t :: rest => (none, t == "!!str" || t == "!", true, rest)
  | _ => (none, false, false, tokens)

/-- Sets an anchor behind its node. -/
def setAnchor (anchor : Option String) (result : Node × After) : Node × After :=
  match anchor, result with
  | some name, (node, some (rest, anchors)) => (node, some (rest, (name, node) :: anchors))
  | _, _ => result

def isBlockStop (t : Token) : Bool := t == .key || t == .value || t == .blockEnd

mutual

/-- Reads one node. -/
def readNode : (fuel : Nat) → Context → List Token → Anchors → Node × After
  | 0, _, _, _ => (.cut, none)
  | fuel + 1, context, tokens, anchors =>
    match tokens with
    | .alias name :: rest =>
      match anchors.lookup name with
      | some node => (node, some (rest, anchors))
      | none => (.cut, none)
    | _ =>
      let (anchor, isText, any, tokens) := takeProperties tokens
      setAnchor anchor <|
        match tokens with
        | .blockEntry :: _ =>
          if context == .blockValue then
            let (items, after) := readIndentless fuel tokens anchors
            (.sequence items, after)
          else if any then (nothing, some (tokens, anchors))
          else (.cut, none)
        | .scalar plain text :: rest => (.scalar (plain && !isText) text, some (rest, anchors))
        | .flowSequenceStart :: rest =>
          let (items, after) := readFlowItems fuel true rest anchors
          (.sequence items, after)
        | .flowMappingStart :: rest =>
          let (entries, after) := readFlowEntries fuel true rest anchors
          (.mapping entries, after)
        | .blockSequenceStart :: rest =>
          if context == .flow then (.cut, none)
          else
            let (items, after) := readBlockItems fuel rest anchors
            (.sequence items, after)
        | .blockMappingStart :: rest =>
          if context == .flow then (.cut, none)
          else
            let (entries, after) := readBlockEntries fuel rest anchors
            (.mapping entries, after)
        | [] => (.cut, none)
        | _ => if any then (nothing, some (tokens, anchors)) else (.cut, none)

/-- Reads the items of a block sequence to its end. -/
def readBlockItems : (fuel : Nat) → List Token → Anchors → List Node × After
  | 0, _, _ => ([.cut], none)
  | fuel + 1, tokens, anchors =>
    match tokens with
    | .blockEntry :: rest =>
      match rest with
      | [] => ([.cut], none)
      | t :: _ =>
        let (item, after) : Node × After :=
          if t == .blockEntry || t == .blockEnd then (nothing, some (rest, anchors))
          else readNode fuel .block rest anchors
        match after with
        | none => ([item], none)
        | some (rest, anchors) =>
          let (items, after) := readBlockItems fuel rest anchors
          (item :: items, after)
    | .blockEnd :: rest => ([], some (rest, anchors))
    | _ => ([.cut], none)

/-- Reads the items of a block sequence that is not indented. -/
def readIndentless : (fuel : Nat) → List Token → Anchors → List Node × After
  | 0, _, _ => ([.cut], none)
  | fuel + 1, tokens, anchors =>
    match tokens with
    | .blockEntry :: rest =>
      match rest with
      | [] => ([.cut], none)
      | t :: _ =>
        let (item, after) : Node × After :=
          if t == .blockEntry || isBlockStop t then (nothing, some (rest, anchors))
          else readNode fuel .block rest anchors
        match after with
        | none => ([item], none)
        | some (rest, anchors) =>
          let (items, after) := readIndentless fuel rest anchors
          (item :: items, after)
    | [] => ([.cut], none)
    | _ => ([], some (tokens, anchors))

/-- Reads the entries of a block mapping to its end. -/
def readBlockEntries : (fuel : Nat) → List Token → Anchors → List (Node × Node) × After
  | 0, _, _ => ([(.cut, .cut)], none)
  | fuel + 1, tokens, anchors =>
    match tokens with
    | .blockEnd :: rest => ([], some (rest, anchors))
    | .key :: rest =>
      match rest with
      | [] => ([(.cut, .cut)], none)
      | t :: _ =>
        let (key, after) : Node × After :=
          if isBlockStop t then (nothing, some (rest, anchors))
          else readNode fuel .blockValue rest anchors
        match after with
        | none => ([(key, .cut)], none)
        | some (rest, anchors) =>
          let (value, after) := readBlockValue fuel rest anchors
          match after with
          | none => ([(key, value)], none)
          | some (rest, anchors) =>
            let (entries, after) := readBlockEntries fuel rest anchors
            ((key, value) :: entries, after)
    | _ => ([(.cut, .cut)], none)

/-- Reads the value of a block mapping's entry. -/
def readBlockValue : (fuel : Nat) → List Token → Anchors → Node × After
  | 0, _, _ => (.cut, none)
  | fuel + 1, tokens, anchors =>
    match tokens with
    | .value :: rest =>
      match rest with
      | [] => (.cut, none)
      | t :: _ =>
        if isBlockStop t then (nothing, some (rest, anchors))
        else readNode fuel .blockValue rest anchors
    | [] => (.cut, none)
    | _ => (nothing, some (tokens, anchors))

/-- Reads the items of a sequence in brackets to its end. -/
def readFlowItems : (fuel : Nat) → (first : Bool) → List Token → Anchors → List Node × After
  | 0, _, _, _ => ([.cut], none)
  | fuel + 1, first, tokens, anchors =>
    match tokens with
    | .flowSequenceEnd :: rest => ([], some (rest, anchors))
    | _ =>
      let rest? : Option (List Token) :=
        if first then some tokens
        else match tokens with
          | .flowEntry :: rest => some rest
          | _ => none
      match rest? with
      | none => ([.cut], none)
      | some (.flowSequenceEnd :: rest) => ([], some (rest, anchors))
      | some rest =>
        let (item, after) : Node × After := match rest with
          | .key :: rest =>
            let (entry, after) := readPair fuel rest anchors
            (.mapping [entry], after)
          | _ => readNode fuel .flow rest anchors
        match after with
        | none => ([item], none)
        | some (rest, anchors) =>
          let (items, after) := readFlowItems fuel false rest anchors
          (item :: items, after)

/-- Reads the only entry of a mapping that stands in a sequence without brackets of its own. -/
def readPair : (fuel : Nat) → List Token → Anchors → (Node × Node) × After
  | 0, _, _ => ((.cut, .cut), none)
  | fuel + 1, tokens, anchors =>
    let (key, after) : Node × After := match tokens with
      | [] => (.cut, none)
      | t :: rest =>
        if t == .value || t == .flowEntry || t == .flowSequenceEnd then
          (nothing, some (rest, anchors))
        else readNode fuel .flow tokens anchors
    match after with
    | none => ((key, .cut), none)
    | some (.value :: rest, anchors) =>
      match rest with
      | [] => ((key, .cut), none)
      | t :: _ =>
        if t == .flowEntry || t == .flowSequenceEnd then ((key, nothing), some (rest, anchors))
        else
          let (value, after) := readNode fuel .flow rest anchors
          ((key, value), after)
    | some ([], _) => ((key, .cut), none)
    | some (rest, anchors) => ((key, nothing), some (rest, anchors))

/-- Reads the entries of a mapping in braces to its end. -/
def readFlowEntries : (fuel : Nat) → (first : Bool) → List Token → Anchors →
    List (Node × Node) × After
  | 0, _, _, _ => ([(.cut, .cut)], none)
  | fuel + 1, first, tokens, anchors =>
    match tokens with
    | .flowMappingEnd :: rest => ([], some (rest, anchors))
    | _ =>
      let rest? : Option (List Token) :=
        if first then some tokens
        else match tokens with
          | .flowEntry :: rest => some rest
          | _ => none
      match rest? with
      | none => ([(.cut, .cut)], none)
      | some (.flowMappingEnd :: rest) => ([], some (rest, anchors))
      | some rest =>
        let (entry, after) := readFlowEntry fuel rest anchors
        match after with
        | none => ([entry], none)
        | some (rest, anchors) =>
          let (entries, after) := readFlowEntries fuel false rest anchors
          (entry :: entries, after)

/-- Reads one entry of a mapping in braces. A node without a key token has no value. -/
def readFlowEntry : (fuel : Nat) → List Token → Anchors → (Node × Node) × After
  | 0, _, _ => ((.cut, .cut), none)
  | fuel + 1, tokens, anchors =>
    match tokens with
    | .key :: rest =>
      let (key, after) : Node × After := match rest with
        | [] => (.cut, none)
        | t :: _ =>
          if t == .value || t == .flowEntry || t == .flowMappingEnd then
            (nothing, some (rest, anchors))
          else readNode fuel .flow rest anchors
      match after with
      | none => ((key, .cut), none)
      | some (.value :: rest, anchors) =>
        match rest with
        | [] => ((key, .cut), none)
        | t :: _ =>
          if t == .flowEntry || t == .flowMappingEnd then ((key, nothing), some (rest, anchors))
          else
            let (value, after) := readNode fuel .flow rest anchors
            ((key, value), after)
      | some ([], _) => ((key, .cut), none)
      | some (rest, anchors) => ((key, nothing), some (rest, anchors))
    | _ =>
      let (key, after) := readNode fuel .flow tokens anchors
      match after with
      | none => ((key, .cut), none)
      | some (rest, anchors) => ((key, nothing), some (rest, anchors))

end

/-- What a text holds: the first document's node, if there is a document, and whether the text is
one well-formed document or none. -/
structure Content where
  root : Option Node
  complete : Bool
  deriving Repr

/-- Whether no document follows. -/
def endsStream : List Token → Bool
  | .documentEnd :: rest => endsStream rest
  | .streamEnd :: _ => true
  | _ => false

/-- Whether nothing but directives stands in front of a document's start. -/
def afterDirectives? : List Token → Option (List Token)
  | .directive :: rest => afterDirectives? rest
  | .documentStart :: rest => some rest
  | _ => none

/-- Builds the first document from its tokens. -/
def ofTokens (tokens : List Token) : Content :=
  let finish (result : Node × After) : Content :=
    match result with
    | (node, some (rest, _)) => ⟨some node, endsStream rest⟩
    | (node, none) => ⟨some node, false⟩
  let fuel := 2 * tokens.length + 2
  match tokens with
  | [] => ⟨some .cut, false⟩
  | .streamEnd :: _ => ⟨none, true⟩
  | .documentStart :: _ | .directive :: _ =>
    match afterDirectives? tokens with
    | none => ⟨some .cut, false⟩
    | some rest =>
      match rest with
      | [] => ⟨some .cut, false⟩
      | .documentStart :: _ | .documentEnd :: _ | .directive :: _ | .streamEnd :: _ =>
        finish (nothing, some (rest, []))
      | _ => finish (readNode fuel .block rest [])
  | _ => finish (readNode fuel .block tokens [])

/-- Reads a text. -/
def read (text : List Char) : Content := ofTokens (Token.scan text).tokens

end Node

end Doctest.Yaml
