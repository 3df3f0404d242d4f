import Doctest.Document.Entity

/-!
# The order of tokens

What the tokens of a document say when they are looked at without a machine: which of them can be
read and which wait for a code block (`Answered`), and in which order snippets get their code
(`elements`).
-/

namespace Doctest

/-- The snippet that waits for a code block behind a declaration. -/
def Declaration.waiting? : Declaration → Option OpenSnippet
  | .opened s => some s
  | .config .. | .lineMod _ | .closed _ => none

/-- The snippet, or part of one, that has its code in a declaration. -/
def Declaration.element? : Declaration → Option Element
  | .closed e => some e
  | .config .. | .lineMod _ | .opened _ => none

namespace Token

/-- The directive that a comment is. -/
def directive? : Token → Option Directive
  | .comment line text => (Directive.parse line text).toOption.join
  | .codeBlock .. | .heading .. => none

/-- What a directive declares. -/
def declaration? (t : Token) : Option Declaration :=
  t.directive?.bind fun d => (Declaration.ofDirective d).toOption

def isCode : Token → Bool
  | .codeBlock .. => true
  | .comment .. | .heading .. => false

/-- A comment can be read, and if it is a directive, so can what it declares. -/
def Readable : Token → Prop
  | .comment line text => ∃ d?, Directive.parse line text = .ok d? ∧
      ∀ d, d? = some d → ∃ declaration, Declaration.ofDirective d = .ok declaration
  | .codeBlock .. | .heading .. => True

/-- The token is a directive that waits for a code block. -/
def Opens (t : Token) : Prop := ∃ s, t.declaration? = some (.opened s)

/-- The first directive or code block is a code block. -/
def CodeNext (tokens : List Token) : Prop :=
  ∃ t, tokens.find? (fun t => t.directive?.isSome || t.isCode) = some t ∧ t.isCode

/-- Every directive that waits for a code block gets one. -/
def Answered (tokens : List Token) : Prop :=
  ∀ t rest, t :: rest <:+ tokens → t.Opens → CodeNext rest

/-- The snippets and parts of snippets in the order of their code. `waiting` is the directive in
front of the tokens that waits for a code block. -/
def elements (waiting : Option OpenSnippet) : List Token → List Element
  | [] => []
  | .codeBlock line lang lines :: rest =>
    waiting.elim ⟨.bare line lang, lines⟩ (·.close lang lines) :: elements none rest
  | t :: rest =>
    match t.declaration? with
    | some d => d.element?.toList ++ elements d.waiting? rest
    | none => elements waiting rest

/-- The sequence numbers of the snippets and parts of snippets. -/
def numbers (waiting : Option OpenSnippet) (tokens : List Token) : List (Option SequenceNumber) :=
  (elements waiting tokens).map (·.properties.sequence)

theorem directive?_comment {line : Nat} {text : String} {d? : Option Directive}
    (h : Directive.parse line text = .ok d?) : (comment line text).directive? = d? := by
  show (Directive.parse line text).toOption.join = d?
  rw [h]
  rfl

theorem opens_iff {t : Token} {d : Declaration} (h : t.declaration? = some d) :
    t.Opens ↔ d.waiting?.isSome := by
  unfold Opens
  rw [h]
  cases d <;> simp [Declaration.waiting?]

theorem answered_cons {t : Token} {tokens : List Token} :
    Answered (t :: tokens) ↔ (t.Opens → CodeNext tokens) ∧ Answered tokens := by
  unfold Answered
  simp only [List.suffix_cons_iff, List.cons.injEq]
  constructor
  · intro h
    exact ⟨h t tokens (.inl ⟨rfl, rfl⟩), fun t' rest hsuffix => h t' rest (.inr hsuffix)⟩
  · rintro ⟨hfirst, hrest⟩ t' rest (⟨rfl, rfl⟩ | hsuffix)
    · exact hfirst
    · exact hrest t' rest hsuffix

theorem answered_nil : Answered [] := by
  intro t rest h
  cases List.suffix_nil.mp h

theorem numbers_nil (waiting : Option OpenSnippet) : numbers waiting [] = [] := rfl

theorem not_codeNext_nil : ¬CodeNext [] := by
  rintro ⟨t, h, -⟩
  cases h

theorem codeNext_cons {t : Token} {tokens : List Token} (h : t.isCode) :
    CodeNext (t :: tokens) := by
  refine ⟨t, ?_, h⟩
  rw [List.find?_cons_of_pos]
  simp [h]

theorem not_codeNext_cons {t : Token} {tokens : List Token} (h : t.directive?.isSome)
    (hcode : t.isCode = false) : ¬CodeNext (t :: tokens) := by
  rintro ⟨t', hfind, hcode'⟩
  rw [List.find?_cons_of_pos (by simp [h])] at hfind
  cases hfind
  rw [hcode] at hcode'
  cases hcode'

theorem codeNext_cons_silent {t : Token} {tokens : List Token} (h : t.directive? = none)
    (hcode : t.isCode = false) : CodeNext (t :: tokens) ↔ CodeNext tokens := by
  unfold CodeNext
  rw [List.find?_cons_of_neg]
  simp [h, hcode]

theorem declaration?_of_silent {t : Token} (h : t.directive? = none) : t.declaration? = none := by
  unfold declaration?
  rw [h]
  rfl

theorem elements_cons {t : Token} (h : t.isCode = false) (waiting : Option OpenSnippet)
    (tokens : List Token) :
    elements waiting (t :: tokens) =
      match t.declaration? with
      | some d => d.element?.toList ++ elements d.waiting? tokens
      | none => elements waiting tokens := by
  cases t with
  | codeBlock line lang lines => cases h
  | comment line text => rfl
  | heading line content => rfl

theorem numbers_cons_silent {t : Token} (h : t.directive? = none) (hcode : t.isCode = false)
    (waiting : Option OpenSnippet) (tokens : List Token) :
    numbers waiting (t :: tokens) = numbers waiting tokens := by
  unfold numbers
  rw [elements_cons hcode, declaration?_of_silent h]

theorem answered_cons_silent {t : Token} {tokens : List Token} (h : t.directive? = none) :
    Answered (t :: tokens) ↔ Answered tokens := by
  rw [answered_cons]
  constructor
  · exact fun hanswered => hanswered.2
  · refine fun hanswered => ⟨?_, hanswered⟩
    rintro ⟨s, hs⟩
    rw [declaration?_of_silent h] at hs
    cases hs

theorem answered_cons_code {t : Token} {tokens : List Token} (h : t.isCode) :
    Answered (t :: tokens) ↔ Answered tokens := by
  cases t with
  | codeBlock line lang lines => exact answered_cons_silent rfl
  | comment line text => cases h
  | heading line content => cases h

end Token

end Doctest
