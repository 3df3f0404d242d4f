import Doctest.Markdown.Line
import Doctest.Text.Search

/-!
# HTML in Markdown

What starts and ends a block of HTML, and what a tag, a comment, an instruction and a declaration
inside a line of text look like. Readers get the text behind the opening angle bracket and give what
follows the closing one.
-/

namespace Doctest.Markdown.Html

open Text (afterWord? splitFirstWord? splitFirst?)

/-- The names of tags that start a block. -/
def blockNames : List String := [
  "address", "article", "aside", "base", "basefont", "blockquote", "body", "caption", "center",
  "col", "colgroup", "dd", "details", "dialog", "dir", "div", "dl", "dt", "fieldset", "figcaption",
  "figure", "footer", "form", "frame", "frameset", "h1", "h2", "h3", "h4", "h5", "h6", "head",
  "header", "hr", "html", "iframe", "legend", "li", "link", "main", "menu", "menuitem", "nav",
  "noframes", "ol", "optgroup", "option", "p", "param", "search", "section", "summary", "table",
  "tbody", "td", "tfoot", "th", "thead", "title", "tr", "track", "ul"]

/-- The names of tags whose content is taken as it is, up to the closing tag. -/
def rawNames : List String := ["pre", "style", "script", "textarea"]

def lower (cs : List Char) : List Char := cs.map Char.toLower

/-- The text that ends a block of raw content, comment, instruction, character data or declaration
that starts here. -/
def rawEnd? (cs : List Char) : Option (List Char) :=
  let raw? := rawNames.findSome? fun name =>
    let n := name.toList
    if lower (cs.take n.length) = n &&
        (cs.drop n.length).head?.all fun c => isSpace c || c = '>' then
      some (("</" ++ name ++ ">").toList)
    else none
  match raw? with
  | some closing => some closing
  | none =>
    if (afterWord? "!--".toList cs).isSome then some "-->".toList
    else if (afterWord? ['?'] cs).isSome then some "?>".toList
    else if (afterWord? "![CDATA[".toList cs).isSome then some "]]>".toList
    else
      match cs with
      | '!' :: c :: _ => if c.isAlpha then some ['>'] else none
      | _ => none

/-- Whether a tag that starts a block starts here. -/
def startsBlock (cs : List Char) : Bool :=
  let cs := (afterWord? ['/'] cs).getD cs
  let name := cs.takeWhile Char.isAlphanum
  let rest := cs.drop name.length
  blockNames.contains (String.ofList (lower name)) &&
    match rest with
    | [] => true
    | c :: more => c = ' ' || c = '\t' || c = '\r' || c = '\n' || c = '>' ||
      (c = '/' && more.head? = some '>')

/-! ## Tags -/

def isNameChar (c : Char) : Bool := c.isAlphanum || c = '-'

def isAttributeStart (c : Char) : Bool := c.isAlpha || c = '_' || c = ':'

def isAttributeChar (c : Char) : Bool := c.isAlphanum || "_.:-".toList.contains c

/-- Whether a character can be part of a value without quotes. -/
def isBareValueChar (c : Char) : Bool := !"\t\n\r \"'=<>\x60".toList.contains c

/-- The value of an attribute. -/
def value? (cs : List Char) : Option (List Char) :=
  match cs with
  | [] => none
  | c :: rest =>
    if c = '"' || c = '\'' then (splitFirst? c rest).map (·.2)
    else if " =><\x60\n\r".toList.contains c then none
    else some (cs.dropWhile isBareValueChar)

/-- An attribute. Without a value the blanks behind the name are left. -/
def attribute? (cs : List Char) : Option (List Char) :=
  match cs with
  | [] => none
  | c :: rest =>
    if !isAttributeStart c then none
    else
      let afterName := rest.dropWhile isAttributeChar
      match afterName.dropWhile isSpace with
      | '=' :: more => value? (more.dropWhile isSpace)
      | _ => some afterName

/-- The attributes of a tag, each with blanks in front. -/
def attributes? : (fuel : Nat) → List Char → Option (List Char)
  | 0, _ => none
  | fuel + 1, cs =>
    let rest := cs.dropWhile isSpace
    match rest with
    | [] => none
    | c :: _ =>
      if c = '/' || c = '>' then some rest
      else if rest.length = cs.length then none
      else (attribute? rest).bind (attributes? fuel)

/-- A closing tag behind its slash. -/
def closingTag? (cs : List Char) : Option (List Char) :=
  match cs with
  | [] => none
  | c :: rest =>
    if !c.isAlpha then none
    else afterWord? ['>'] (dropInlineSpace (rest.dropWhile isNameChar))

/-- An opening or closing tag. -/
def tag? (cs : List Char) : Option (List Char) :=
  match cs with
  | [] => none
  | c :: rest =>
    if c = '/' then closingTag? rest
    else if !c.isAlpha then none
    else do
      let rest ← attributes? (rest.length + 1) (rest.dropWhile isNameChar)
      let rest := dropInlineSpace rest
      afterWord? ['>'] ((afterWord? ['/'] rest).getD rest)

/-- Whether the line is a tag and nothing else. -/
def isTagLine (cs : List Char) : Bool := (tag? cs).any isBlankLine

/-! ## HTML inside text -/

/-- A comment behind its exclamation mark. The two hyphens that open it may be part of its end. -/
def comment? (cs : List Char) : Option (List Char) := do
  let _ ← afterWord? ['-', '-'] cs
  let (_, rest) ← splitFirstWord? "-->".toList cs
  some rest

/-- HTML behind its opening bracket. -/
def inline? (cs : List Char) : Option (List Char) :=
  match cs with
  | '!' :: rest =>
    match rest with
    | [] => none
    | c :: more =>
      if c = '-' then comment? rest
      else if c = '[' then do
        let body ← afterWord? "CDATA[".toList more
        let (_, rest) ← splitFirstWord? "]]>".toList body
        some rest
      else if c.isAlpha then (splitFirst? '>' more).map (·.2)
      else none
  | '?' :: rest => (splitFirstWord? "?>".toList rest).map (·.2)
  | _ => tag? cs

/-! ## Addresses in angle brackets -/

def isSchemeChar (c : Char) : Bool := c.isAlphanum || c = '.' || c = '-' || c = '+'

/-- An address with a scheme. Gives the address and what follows the bracket. -/
def uri? (cs : List Char) : Option (List Char × List Char) := do
  let first ← cs.head?
  if !first.isAlpha then none
  let scheme := cs.takeWhile isSchemeChar
  if scheme.length < 2 || 32 < scheme.length then none
  let body ← afterWord? [':'] (cs.drop scheme.length)
  let (address, rest) ← splitFirst? '>' body
  if address.any fun c => c.toNat ≤ 0x20 || c = '<' then none
  some (scheme ++ ':' :: address, rest)

def isLocalChar (c : Char) : Bool := c.isAlphanum || ".!#$%&'*+/=?^_\x60\x7b|\x7d~-".toList.contains c

/-- Whether this is a part of a domain between dots. -/
def isDomainLabel (cs : List Char) : Bool :=
  !cs.isEmpty && cs.length ≤ 63 && cs.all isNameChar &&
    cs.head? != some '-' && cs.getLast? != some '-'

/-- A mail address. Gives the address and what follows the bracket. -/
def email? (cs : List Char) : Option (List Char × List Char) := do
  let (address, rest) ← splitFirst? '>' cs
  let (name, domain) ← splitFirst? '@' address
  if name.isEmpty || !name.all isLocalChar then none
  if !(Text.splitAll '.' domain).all isDomainLabel then none
  some (address, rest)

/-- An address between angle brackets. -/
def address? (cs : List Char) : Option (List Char × List Char) := (uri? cs).or (email? cs)

end Doctest.Markdown.Html
