import Doctest.Proofs.TokenOrder
import Mathlib.Data.List.DropRight
import Mathlib.Data.List.Infix
import Mathlib.Data.List.Induction

/-!
# Tokens in their context

What a token adds to a document depends on the tokens in front of it, and on nothing behind it. Here
that is said by looking back from the token, without a machine that goes forward.

* `Token.awaiting`: the snippet that waits for a code block behind some tokens.
* `Token.part?`: the snippet, or part of one, that a token gives its code.
* `Token.newHeading?`: the last heading, unless a snippet got code behind it.
* `Token.entities`: the entities that a token adds.

Each notion has a lemma for one more token, by which proofs take the tokens from the end.
-/

namespace Doctest

namespace Entity

def heading? : Entity → Option Heading
  | .heading h => some h
  | .config .. | .lineMod _ | .snippet _ => none

/-- The parts of the snippet that an entity is. -/
def elements : Entity → List Element
  | .snippet s => s.elements
  | .config .. | .heading _ | .lineMod _ => []

end Entity

/-- The entity that a declaration is without any code. -/
def Declaration.entity? : Declaration → Option Entity
  | .config line patch => some (.config line patch)
  | .lineMod m => some (.lineMod m)
  | .opened _ | .closed _ => none

/-- The snippet that a part completes behind other parts: itself, or the sequence of which it is the
last part. -/
def Element.completes? (parts : List Element) (e : Element) : Option Snippet :=
  match e.properties.sequence with
  | none => some (.single e)
  | some number =>
    if number.position = number.total then
      match parts.rtake (number.total - 1) with
      | [] => some (.sequence e [])
      | first :: rest => some (.sequence first (rest ++ [e]))
    else none

namespace Token

/-! ## Looking back from a token -/

/-- Each token behind the tokens that stand in front of it. -/
def inContext (tokens : List Token) : List (List Token × Token) := tokens.inits.zip tokens

def heading? : Token → Option Heading
  | .heading line content => some ⟨line, content⟩
  | .comment .. | .codeBlock .. => none

/-- The code that a token brings: that of a code block, or the body of a directive with the label
`body:`. -/
def code? : Token → Option Lines
  | .codeBlock _ _ lines => some lines
  | .heading .. => none
  | .comment line text => (Token.comment line text).directive?.bind fun d =>
    if d.bodyLabel = some .body then some d.body else none

/-- The snippet that waits for a code block: what the last directive declares, unless there is a
code block behind it. -/
def awaiting (before : List Token) : Option OpenSnippet :=
  (before.reverse.find? fun t => t.declaration?.isSome || t.isCode).bind fun t =>
    t.declaration?.bind Declaration.waiting?

/-- The snippet, or part of one, that a token gives its code. A code block goes to the snippet that
waits, whose directive may set the language; otherwise it is a snippet of its own. -/
def closed? (waiting : Option OpenSnippet) : Token → Option Element
  | .codeBlock line lang lines =>
    match waiting with
    | some s => some ⟨{ s.properties with lang := s.lang.getD lang }, lines⟩
    | none => some ⟨.bare line lang, lines⟩
  | t => t.declaration?.bind Declaration.element?

/-- The snippet, or part of one, that a token gives its code behind other tokens. -/
def part? (before : List Token) (t : Token) : Option Element := t.closed? (awaiting before)

/-- The last heading, unless a snippet got code behind it. -/
def newHeading? (before : List Token) : Option Heading :=
  ((inContext before).reverse.find? fun (front, t) =>
    t.heading?.isSome || (t.part? front).isSome).bind fun (_, t) => t.heading?

/-- The entities that a token adds: the heading above a snippet that gets code, and what is complete
with this token. -/
def entities (before : List Token) (t : Token) : List Entity :=
  match t.part? before with
  | some e => (newHeading? before).toList.map .heading ++
      (e.completes? (elements none before)).toList.map .snippet
  | none => (t.declaration?.bind Declaration.entity?).toList

/-- The entities that all tokens add. -/
def allEntities (tokens : List Token) : List Entity :=
  (inContext tokens).flatMap fun (before, t) => t.entities before

/-! ## One more token -/

variable {before : List Token} {t : Token}

theorem inContext_concat (before : List Token) (t : Token) :
    inContext (before ++ [t]) = inContext before ++ [(before, t)] := by
  induction before with
  | nil => rfl
  | cons first rest ih =>
    unfold inContext at ih ⊢
    simp only [List.cons_append, List.inits_cons, List.zip_cons_cons, List.zip_map_left, ih,
      List.map_append, List.map_cons, List.map_nil, Prod.map_apply, id_eq]

theorem map_snd_inContext (tokens : List Token) : (inContext tokens).map Prod.snd = tokens := by
  refine List.map_snd_zip ?_
  simp

theorem prefix_of_mem_inContext {tokens : List Token} (h : (before, t) ∈ inContext tokens) :
    before ++ [t] <+: tokens := by
  induction tokens using List.reverseRecOn with
  | nil => cases h
  | append_singleton tokens last ih =>
    rw [inContext_concat] at h
    rcases List.mem_append.mp h with h | h
    · exact (ih h).trans (List.prefix_append tokens [last])
    · cases List.mem_singleton.mp h
      exact List.prefix_rfl

/-- The snippet that waits behind a token, if `waiting` does so in front of it. -/
def waitingAfter (waiting : Option OpenSnippet) (t : Token) : Option OpenSnippet :=
  if t.declaration?.isSome || t.isCode then t.declaration?.bind Declaration.waiting? else waiting

theorem awaiting_concat (before : List Token) (t : Token) :
    awaiting (before ++ [t]) = t.waitingAfter (awaiting before) := by
  unfold awaiting waitingAfter
  rw [List.reverse_concat, List.find?_cons]
  split
  · next h => rw [if_pos h]; rfl
  · next h => rw [h]; rfl

theorem closed?_of_not_code {waiting : Option OpenSnippet} (h : t.isCode = false) :
    t.closed? waiting = t.declaration?.bind Declaration.element? := by
  cases t with
  | codeBlock line lang lines => cases h
  | comment line text => rfl
  | heading line content => rfl

/-- A code block closes what waits for it. -/
theorem closed?_codeBlock (waiting : Option OpenSnippet) (line : Nat) (lang : String)
    (lines : Lines) :
    (codeBlock line lang lines).closed? waiting =
      some (waiting.elim ⟨.bare line lang, lines⟩ (·.close lang lines)) := by
  cases waiting <;> rfl

theorem elements_cons_eq (waiting : Option OpenSnippet) (t : Token) (rest : List Token) :
    elements waiting (t :: rest) =
      (t.closed? waiting).toList ++ elements (t.waitingAfter waiting) rest := by
  cases ht : t.isCode with
  | true =>
    cases t with
    | codeBlock line lang lines => rw [closed?_codeBlock]; rfl
    | comment line text => cases ht
    | heading line content => cases ht
  | false =>
    rw [elements_cons ht, closed?_of_not_code ht, waitingAfter, ht, Bool.or_false]
    cases t.declaration? <;> rfl

theorem awaiting_eq_foldl (before : List Token) : awaiting before = before.foldl waitingAfter none := by
  induction before using List.reverseRecOn with
  | nil => rfl
  | append_singleton before t ih => rw [awaiting_concat, List.foldl_concat, ih]

theorem elements_append (waiting : Option OpenSnippet) (front tokens : List Token) :
    elements waiting (front ++ tokens) =
      elements waiting front ++ elements (front.foldl waitingAfter waiting) tokens := by
  induction front generalizing waiting with
  | nil => rfl
  | cons t front ih =>
    rw [List.cons_append, elements_cons_eq, elements_cons_eq, ih, List.append_assoc]
    rfl

theorem elements_concat (before : List Token) (t : Token) :
    elements none (before ++ [t]) = elements none before ++ (t.part? before).toList := by
  rw [elements_append, ← awaiting_eq_foldl, elements_cons_eq, part?]
  exact congrArg _ (List.append_nil _)

/-- The parts of snippets in the order of their code, each by looking back from its token. -/
theorem elements_eq (tokens : List Token) :
    elements none tokens = (inContext tokens).filterMap fun (before, t) => t.part? before := by
  induction tokens using List.reverseRecOn with
  | nil => rfl
  | append_singleton before t ih =>
    rw [elements_concat, inContext_concat, List.filterMap_append, ih]
    cases h : t.part? before <;> simp [h]

theorem newHeading?_concat (before : List Token) (t : Token) :
    newHeading? (before ++ [t]) =
      if t.heading?.isSome || (t.part? before).isSome then t.heading? else newHeading? before := by
  unfold newHeading?
  rw [inContext_concat, List.reverse_concat, List.find?_cons]
  split
  · next h => rw [if_pos h]; rfl
  · next h =>
    simp only at h
    rw [h]
    rfl

theorem allEntities_concat (before : List Token) (t : Token) :
    allEntities (before ++ [t]) = allEntities before ++ t.entities before := by
  unfold allEntities
  rw [inContext_concat, List.flatMap_append, List.flatMap_singleton]

/-! ## Headings -/

theorem part?_of_heading {h : Heading} (ht : t.heading? = some h) : t.part? before = none := by
  cases t with
  | heading line content => rfl
  | comment line text => cases ht
  | codeBlock line lang lines => cases ht

theorem heading?_entities (before : List Token) (t : Token) :
    (t.entities before).filterMap Entity.heading? =
      if (t.part? before).isSome then (newHeading? before).toList else [] := by
  have hheading (h? : Option Heading) :
      (h?.toList.map Entity.heading).filterMap Entity.heading? = h?.toList := by
    cases h? <;> rfl
  have hsnippet (s? : Option Snippet) :
      (s?.toList.map Entity.snippet).filterMap Entity.heading? = [] := by
    cases s? <;> rfl
  unfold entities
  cases t.part? before with
  | some e =>
    dsimp only
    rw [List.filterMap_append, hheading, hsnippet, List.append_nil]
    rfl
  | none =>
    cases t.declaration? with
    | none => rfl
    | some d => cases d <;> rfl

/-- Headings get into the document in their order, and each of them at most once. The last one may
still be to come. -/
theorem headings_sublist (tokens : List Token) :
    ((allEntities tokens).filterMap Entity.heading? ++ (newHeading? tokens).toList).Sublist
      (tokens.filterMap heading?) := by
  induction tokens using List.reverseRecOn with
  | nil => exact List.Sublist.refl _
  | append_singleton before t ih =>
    rw [allEntities_concat, newHeading?_concat, List.filterMap_append, List.filterMap_append,
      heading?_entities]
    cases ht : t.heading? with
    | some h =>
      have hold := (List.sublist_append_left _ _).trans ih
      simpa [part?_of_heading ht, ht] using hold.append (List.Sublist.refl [h])
    | none =>
      cases hpart : (t.part? before).isSome with
      | true => simpa [ht] using ih
      | false => simpa [ht] using ih

/-- The last heading is in the document, or it is still to come. -/
theorem getLast?_headings (tokens : List Token) :
    ((allEntities tokens).filterMap Entity.heading? ++ (newHeading? tokens).toList).getLast? =
      (tokens.filterMap heading?).getLast? := by
  induction tokens using List.reverseRecOn with
  | nil => rfl
  | append_singleton before t ih =>
    rw [allEntities_concat, newHeading?_concat, List.filterMap_append, List.filterMap_append,
      heading?_entities]
    cases ht : t.heading? with
    | some h => simp [part?_of_heading ht, ht]
    | none =>
      cases hpart : (t.part? before).isSome with
      | true => simpa [ht] using ih
      | false => simpa [ht] using ih

theorem getLast?_of_newHeading? {h : Heading} (hnew : newHeading? before = some h) :
    (before.filterMap heading?).getLast? = some h := by
  rw [← getLast?_headings, hnew]
  exact List.getLast?_concat

/-- A heading in the document was the last one when some snippet, or part of one, got its code. -/
theorem exists_of_heading_mem {tokens : List Token} {h : Heading}
    (hmem : h ∈ (allEntities tokens).filterMap Entity.heading?) :
    ∃ before t, before ++ [t] <+: tokens ∧ (t.part? before).isSome ∧
      (before.filterMap heading?).getLast? = some h := by
  unfold allEntities at hmem
  rw [List.filterMap_flatMap] at hmem
  obtain ⟨⟨before, t⟩, hcontext, hmem⟩ := List.mem_flatMap.mp hmem
  rw [heading?_entities] at hmem
  split at hmem
  · next hpart =>
    exact ⟨before, t, prefix_of_mem_inContext hcontext, hpart,
      getLast?_of_newHeading? (Option.mem_toList.mp hmem)⟩
  · cases hmem

end Token

end Doctest
