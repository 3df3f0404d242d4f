import Doctest.Directive
import Doctest.Document.Comment
import Doctest.Markdown.Block

/-!
# Tokens of a document

The parts of a Markdown text that can matter: comments, code blocks and headings, in document order.
Each has the number of the line where it starts. `Token.ofBlocks` finds them in what a Markdown reader
gives: comments in blocks of HTML and in HTML inside running text, but not inside headings. A directive
without an end is a fault.
-/

namespace Doctest

open Markdown (Block Inline)

inductive Token
  | comment (line : Nat) (text : String)
  | codeBlock (line : Nat) (lang : String) (lines : Lines)
  | heading (line : Nat) (content : String)
  deriving DecidableEq, Repr

namespace Token

/-- The tokens found so far, the faults, and where the last comment ended. -/
structure Progress where
  tokens : List Token
  faults : List Fault
  consumed : Nat

/-- Adds the comments that start in a stretch of HTML. -/
def Progress.withHtml (source : List Char) (p : Progress) (r : Markdown.Range) : Progress :=
  let found := Comment.scan source p.consumed r.start r.stop
  let isDirective (start : Nat) : Bool :=
    Directive.keyword.isPrefixOf
      (Text.trimStart (source.drop (start + Comment.opening.length)))
  { tokens := p.tokens ++ found.comments.map fun c =>
      .comment (Source.lineOfIndex source c.start) (String.ofList c.text)
    faults := p.faults ++ (found.unterminated.filter isDirective).toList.map fun start =>
      .atLine (Source.lineOfIndex source start) DirectiveCause.unterminatedDirective
    consumed := found.consumed }

/-- The text of a heading: its words with single blanks between them. Line ends add nothing. -/
def headingText (content : List Inline) : String :=
  let text := content.flatMap fun
    | .text t | .code t => t
    | .softBreak | .hardBreak | .html _ => []
  String.ofList ([' '].intercalate (Text.words text))

/-- Adds what a block gives. -/
def Progress.step (source : List Char) (p : Progress) : Block → Progress
  | .html r => p.withHtml source r
  | .code start info text =>
    let lang := String.ofList ((Text.words info).headD [])
    { p with tokens := p.tokens ++ [.codeBlock (Source.lineOfIndex source start) lang
        ((Text.lineList text).map String.ofList)] }
  | .heading start content =>
    { p with tokens := p.tokens ++
        [.heading (Source.lineOfIndex source start) (headingText content)] }
  | .running content =>
    content.foldl (fun p i => match i with
      | .html r => p.withHtml source r
      | _ => p) p

/-- The tokens of a source that consists of the blocks. -/
def ofBlocks (source : List Char) (blocks : List Block) : Except (List Fault) (List Token) :=
  let p := blocks.foldl (Progress.step source) ⟨[], [], 0⟩
  if p.faults.isEmpty then .ok p.tokens else .error p.faults

/-- The tokens of a Markdown text. -/
def ofSource (source : String) : Except (List Fault) (List Token) :=
  ofBlocks source.toList (Block.read source.toList)

end Token

end Doctest
