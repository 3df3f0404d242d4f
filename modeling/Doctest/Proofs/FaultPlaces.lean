import Doctest.Proofs.Accounting
import Doctest.Proofs.DirectiveFaults
import Doctest.Proofs.Index

/-!
# Where the faults of a document stand

A fault that is found when a document is read has a line of the document as its place.

* `Fault.On`: the fault stands on a line with a property. For the entities the property is a
  parameter: reading hands on the lines of the tokens and makes up none.
* `Progress.Placed`, `Progress.On`: what holds of all tokens and all entities found so far, with one
  lemma for each step.
* `hasLine_of_parse`, `faults_of_parse`: the lines of all entities of a document, and those of the
  faults of a text that is no document, are lines of the text.
* `indexFaults_on`: an ID that is declared again is a fault on the line of a snippet or a line mod.
-/

namespace Doctest

/-- The fault stands on a line with the property. -/
def Fault.On (P : Nat → Prop) (f : Fault) : Prop := ∃ n, PlacedOn n f ∧ P n

theorem Fault.On.mono {P Q : Nat → Prop} {f : Fault} (h : f.On P) (hPQ : ∀ n, P n → Q n) :
    f.On Q := by
  obtain ⟨n, hplace, hn⟩ := h
  exact ⟨n, hplace, hPQ n hn⟩

/-- The number of a line of the source. There is one line more than there are newlines. -/
def Source.HasLine (source : List Char) (n : Nat) : Prop := 1 ≤ n ∧ n ≤ source.count '\n' + 1

theorem Source.hasLine_lineOfIndex (source : List Char) (index : Nat) :
    Source.HasLine source (Source.lineOfIndex source index) := by
  have hcount : (source.take index).count '\n' ≤ source.count '\n' :=
    (List.take_sublist index source).count_le '\n'
  unfold Source.HasLine Source.lineOfIndex
  omega

/-! ## Tokens -/

namespace Token

def line : Token → Nat
  | .comment line _ => line
  | .codeBlock line _ _ => line
  | .heading line _ => line

/-- All that was found in the source has a line of it. -/
structure Progress.Placed (source : List Char) (p : Progress) : Prop where
  tokens : ∀ t ∈ p.tokens, Source.HasLine source t.line
  faults : ∀ f ∈ p.faults, f.On (Source.HasLine source)

variable {source : List Char} {p : Progress}

theorem Progress.Placed.withToken (h : p.Placed source) {t : Token}
    (ht : Source.HasLine source t.line) :
    Progress.Placed source { p with tokens := p.tokens ++ [t] } where
  tokens := by
    intro t' ht'
    rcases List.mem_append.mp ht' with ht' | ht'
    · exact h.tokens t' ht'
    · obtain rfl := List.mem_singleton.mp ht'
      exact ht
  faults := h.faults

theorem Progress.Placed.withHtml (h : p.Placed source) (r : Markdown.Range) :
    (p.withHtml source r).Placed source where
  tokens := by
    intro t ht
    rcases List.mem_append.mp ht with ht | ht
    · exact h.tokens t ht
    · obtain ⟨c, -, rfl⟩ := List.mem_map.mp ht
      exact Source.hasLine_lineOfIndex source _
  faults := by
    intro f hf
    rcases List.mem_append.mp hf with hf | hf
    · exact h.faults f hf
    · obtain ⟨start, -, rfl⟩ := List.mem_map.mp hf
      exact ⟨_, rfl, Source.hasLine_lineOfIndex source _⟩

theorem Progress.Placed.step (h : p.Placed source) (b : Markdown.Block) :
    (p.step source b).Placed source := by
  cases b with
  | html r => exact h.withHtml r
  | code start info text => exact h.withToken (Source.hasLine_lineOfIndex source start)
  | heading start content => exact h.withToken (Source.hasLine_lineOfIndex source start)
  | running content =>
    simp only [Progress.step]
    induction content generalizing p with
    | nil => exact h
    | cons i content ih =>
      cases i with
      | html r => exact ih (h.withHtml r)
      | text _ | code _ | softBreak | hardBreak => exact ih h

theorem placed_foldl (source : List Char) (blocks : List Markdown.Block) :
    (blocks.foldl (Progress.step source) ⟨[], [], 0⟩).Placed source :=
  List.foldlRecOn blocks _ ⟨by simp, by simp⟩ fun _ h b _ => h.step b

theorem hasLine_of_ofBlocks {blocks : List Markdown.Block} {tokens : List Token}
    (h : ofBlocks source blocks = .ok tokens) : ∀ t ∈ tokens, Source.HasLine source t.line := by
  unfold ofBlocks at h
  dsimp only at h
  split at h
  · cases h
    exact (placed_foldl source blocks).tokens
  · cases h

theorem faults_of_ofBlocks {blocks : List Markdown.Block} {faults : List Fault}
    (h : ofBlocks source blocks = .error faults) : ∀ f ∈ faults, f.On (Source.HasLine source) := by
  unfold ofBlocks at h
  dsimp only at h
  split at h
  · cases h
  · cases h
    exact (placed_foldl source blocks).faults

end Token

/-! ## Entities -/

/-- The lines of an entity and of all its parts have the property. -/
def Entity.On (P : Nat → Prop) (e : Entity) : Prop :=
  P e.line ∧ ∀ part ∈ e.elements, P part.properties.line

/-- A part that does not belong where it stands is a fault on its own line. -/
theorem placedOn_of_next? {sequence : Option OpenSequence} {e : Element} {fault : Fault}
    (h : next? sequence e = some (.error fault)) : PlacedOn e.properties.line fault := by
  cases sequence with
  | none =>
    obtain ⟨number, -, hstart⟩ := Option.map_eq_some_iff.mp h
    unfold OpenSequence.start at hstart
    split at hstart <;> cases hstart
    rfl
  | some s =>
    have hadd : s.add e = .error fault := Option.some.inj h
    unfold OpenSequence.add at hadd
    dsimp only at hadd
    split at hadd
    · split at hadd <;> cases hadd
      rfl
    · cases hadd
      rfl

namespace Entity

namespace Progress

/-- Everything that was found, and everything that is still open, stands on lines with the
property. -/
structure On (P : Nat → Prop) (p : Progress) : Prop where
  entities : ∀ e ∈ p.entities, e.On P
  waiting : ∀ s, p.waiting = some s → P s.properties.line
  parts : ∀ part ∈ openParts p.sequence, P part.properties.line
  heading : ∀ h, p.heading = some h → P h.line
  faults : ∀ f ∈ p.faults, f.On P

namespace On

variable {P : Nat → Prop} {p : Progress}

theorem start : On P .start where
  entities := by simp [Progress.start]
  waiting := by simp [Progress.start]
  parts := by simp [Progress.start, openParts]
  heading := by simp [Progress.start]
  faults := by simp [Progress.start]

theorem withFault (h : p.On P) {f : Fault} (hf : f.On P) : (p.withFault f).On P where
  entities := h.entities
  waiting := h.waiting
  parts := h.parts
  heading := h.heading
  faults := by
    intro g hg
    rcases List.mem_append.mp hg with hg | hg
    · exact h.faults g hg
    · obtain rfl := List.mem_singleton.mp hg
      exact hf

theorem withEntity (h : p.On P) {e : Entity} (he : e.On P) : (p.withEntity e).On P where
  entities := by
    intro e' he'
    rcases List.mem_append.mp he' with he' | he'
    · exact h.entities e' he'
    · obtain rfl := List.mem_singleton.mp he'
      exact he
  waiting := h.waiting
  parts := h.parts
  heading := h.heading
  faults := h.faults

theorem withoutWaiting (h : p.On P) : On P { p with waiting := none } :=
  ⟨h.entities, by simp, h.parts, h.heading, h.faults⟩

theorem withoutSequence (h : p.On P) : On P { p with sequence := none } :=
  ⟨h.entities, h.waiting, by simp [openParts], h.heading, h.faults⟩

theorem flushHeading (h : p.On P) : p.flushHeading.On P := by
  unfold Progress.flushHeading
  split
  · next heading hheading =>
    have hentity : Entity.On P (.heading heading) := ⟨h.heading heading hheading, by simp [elements]⟩
    have hmore := h.withEntity hentity
    exact ⟨hmore.entities, hmore.waiting, hmore.parts, by simp, hmore.faults⟩
  · exact h

theorem dropWaiting (h : p.On P) : p.dropWaiting.On P := by
  unfold Progress.dropWaiting
  split
  · next s hs =>
    have hfault : (Fault.atLine s.properties.line DocumentCause.noCodeBlock).On P :=
      ⟨_, rfl, h.waiting s hs⟩
    exact (h.withFault hfault).withoutWaiting
  · exact h

theorem withSequence (h : p.On P) {s : OpenSequence}
    (hs : ∀ part ∈ s.elements, P part.properties.line) : (p.withSequence s).On P := by
  unfold Progress.withSequence
  split
  · exact h.withEntity ⟨hs s.first List.mem_cons_self, hs⟩
  · exact ⟨h.entities, h.waiting, hs, h.heading, h.faults⟩

theorem withElement (h : p.On P) {e : Element} (he : P e.properties.line) :
    (p.withElement e).On P := by
  have hflushed := h.flushHeading.withoutSequence
  rw [withElement_eq]
  dsimp only
  split
  · exact hflushed.withEntity ⟨he, by simpa [elements, Snippet.elements] using he⟩
  · next s hnext =>
    refine hflushed.withSequence fun part hpart => ?_
    rw [(elements_of_next? hnext).1] at hpart
    rcases List.mem_append.mp hpart with hpart | hpart
    · exact h.parts part hpart
    · obtain rfl := List.mem_singleton.mp hpart
      exact he
  · next fault hnext => exact hflushed.withFault ⟨_, placedOn_of_next? hnext, he⟩

theorem withDeclaration (h : p.On P) {declared : Declaration} (hline : P declared.line) :
    (p.withDeclaration declared).On P := by
  cases declared with
  | config line patch => exact h.withEntity ⟨hline, by simp [elements]⟩
  | lineMod m => exact h.withEntity ⟨hline, by simp [elements]⟩
  | opened s =>
    refine ⟨h.entities, ?_, h.parts, h.heading, h.faults⟩
    rintro _ ⟨⟩
    exact hline
  | closed e => exact h.withElement hline

/-- **One more token.** -/
theorem step (h : p.On P) {t : Token} (ht : P t.line) : (p.step t).On P := by
  cases t with
  | comment line text =>
    have hparse := Directive.parse_gives line text
    simp only [Progress.step]
    split
    · next fault hfault => exact h.withFault ⟨line, hparse.1 fault hfault, ht⟩
    · exact h
    · next d hd =>
      have hline : P d.line := by
        rw [hparse.2 _ hd d rfl]
        exact ht
      have hdeclared := Declaration.ofDirective_gives d
      split
      · next fault hfault => exact h.dropWaiting.withFault ⟨_, hdeclared.1 fault hfault, hline⟩
      · next declared hok =>
        refine h.dropWaiting.withDeclaration ?_
        rw [hdeclared.2 declared hok]
        exact hline
  | codeBlock line lang lines =>
    simp only [Progress.step]
    split
    · next s hs => exact h.withoutWaiting.withElement (h.waiting s hs)
    · exact h.withElement ht
  | heading line content =>
    refine ⟨h.entities, h.waiting, h.parts, ?_, h.faults⟩
    rintro _ ⟨⟩
    exact ht

theorem foldl {tokens : List Token} (ht : ∀ t ∈ tokens, P t.line) :
    (tokens.foldl Progress.step .start).On P :=
  List.foldlRecOn tokens _ start fun _ h t hmem => h.step (ht t hmem)

end On

end Progress

theorem faults_of_ofTokens {P : Nat → Prop} {tokens : List Token} (ht : ∀ t ∈ tokens, P t.line)
    {faults : List Fault} (h : ofTokens tokens = .error faults) : ∀ f ∈ faults, f.On P := by
  have hp := (Progress.On.foldl ht).dropWaiting
  unfold ofTokens Progress.finish at h
  dsimp only at h
  split at h
  · cases h
  · cases h
    intro f hf
    rcases List.mem_append.mp hf with hf | hf
    · exact hp.faults f hf
    · obtain ⟨s, hs, rfl⟩ := Option.map_eq_some_iff.mp (Option.mem_toList.mp hf)
      refine ⟨_, rfl, hp.parts s.first ?_⟩
      rw [hs]
      exact List.mem_cons_self

theorem on_of_ofTokens {P : Nat → Prop} {tokens : List Token} (ht : ∀ t ∈ tokens, P t.line)
    {es : List Entity} (h : ofTokens tokens = .ok es) : ∀ e ∈ es, e.On P := by
  have hp := Progress.On.foldl ht
  rw [Progress.entities_of_finish h]
  exact hp.entities

end Entity

/-! ## Documents -/

namespace Document

/-- A part of a snippet stands on the line. -/
def PartLine (d : Document) (n : Nat) : Prop :=
  ∃ s ∈ d.snippets, ∃ e ∈ s.elements, e.properties.line = n

/-- A patch stands on the line. -/
def PatchLine (d : Document) (n : Nat) : Prop := ∃ patch, Entity.config n patch ∈ d.entities

/-- A line mod stands on the line. -/
def LineModLine (d : Document) (n : Nat) : Prop := ∃ m, Entity.lineMod m ∈ d.entities ∧ m.line = n

theorem partLine_of_mem {d : Document} {s : Snippet} (hs : s ∈ d.snippets) : d.PartLine s.line := by
  refine ⟨s, hs, s.first, ?_, rfl⟩
  cases s with
  | single element => exact List.mem_cons_self
  | sequence first rest => exact List.mem_cons_self

variable {source : String} {d : Document}

theorem tokens_of_parse (h : parse source = .ok d) :
    ∃ tokens es, Token.ofSource source = .ok tokens ∧ Entity.ofTokens tokens = .ok es ∧
      d = ofEntities es := by
  obtain ⟨tokens, htokens, h⟩ := bind_eq_ok.mp h
  obtain ⟨es, hes, h⟩ := bind_eq_ok.mp h
  exact ⟨tokens, es, htokens, hes, (Except.ok.inj h).symm⟩

/-- The faults of a text that is no document. -/
theorem faults_of_parse {faults : List Fault} (h : parse source = .error faults) :
    ∀ f ∈ faults, f.On (Source.HasLine source.toList) := by
  rcases bind_eq_error.mp h with h | ⟨tokens, htokens, h⟩
  · exact Token.faults_of_ofBlocks h
  · rcases bind_eq_error.mp h with h | ⟨es, -, h⟩
    · exact Entity.faults_of_ofTokens (Token.hasLine_of_ofBlocks htokens) h
    · cases h

/-- All entities of a document stand on its lines. -/
theorem hasLine_of_parse (h : parse source = .ok d) :
    ∀ e ∈ d.entities, e.On (Source.HasLine source.toList) := by
  obtain ⟨tokens, es, htokens, hes, rfl⟩ := tokens_of_parse h
  rw [entities_ofEntities]
  exact Entity.on_of_ofTokens (Token.hasLine_of_ofBlocks htokens) hes

theorem hasLine_of_partLine (h : parse source = .ok d) {n : Nat} (hn : d.PartLine n) :
    Source.HasLine source.toList n := by
  obtain ⟨s, hs, e, he, rfl⟩ := hn
  exact (hasLine_of_parse h _ (mem_snippets.mp hs)).2 e he

theorem hasLine_of_patchLine (h : parse source = .ok d) {n : Nat} (hn : d.PatchLine n) :
    Source.HasLine source.toList n := by
  obtain ⟨patch, hpatch⟩ := hn
  exact (hasLine_of_parse h _ hpatch).1

theorem hasLine_of_lineModLine (h : parse source = .ok d) {n : Nat} (hn : d.LineModLine n) :
    Source.HasLine source.toList n := by
  obtain ⟨m, hm, rfl⟩ := hn
  exact (hasLine_of_parse h _ hm).1

/-! ## The index -/

/-- An entity adds at most the fault that its own ID is declared again. -/
theorem mem_indexFaults_add {e : Entity} {f : Fault} (h : f ∈ (d.add e).indexFaults) :
    f ∈ d.indexFaults ∨ PlacedOn e.line f ∧ ((∃ s, e = .snippet s) ∨ ∃ m, e = .lineMod m) := by
  cases e with
  | config line patch => exact .inl h
  | heading heading => exact .inl h
  | lineMod m =>
    simp only [add] at h
    cases hid : m.id? with
    | none =>
      rw [hid] at h
      exact .inl h
    | some id =>
      rw [hid, Option.elim_some] at h
      unfold indexLineMod at h
      split at h
      · exact .inl h
      · rcases List.mem_append.mp h with h | h
        · exact .inl h
        · obtain rfl := List.mem_singleton.mp h
          exact .inr ⟨rfl, .inr ⟨m, rfl⟩⟩
  | snippet s =>
    simp only [add] at h
    cases hid : s.id with
    | none =>
      rw [hid] at h
      exact .inl h
    | some id =>
      rw [hid, Option.elim_some] at h
      unfold indexSnippet at h
      split at h
      · exact .inl h
      · rcases List.mem_append.mp h with h | h
        · exact .inl h
        · obtain rfl := List.mem_singleton.mp h
          exact .inr ⟨rfl, .inl ⟨s, rfl⟩⟩

/-- **The faults of the index.** They stand on lines of snippets and of line mods. -/
theorem indexFaults_on (es : List Entity) :
    ∀ f ∈ (ofEntities es).indexFaults,
      f.On fun n => (ofEntities es).PartLine n ∨ (ofEntities es).LineModLine n := by
  induction es using List.reverseRecOn with
  | nil => exact fun _ hf => by cases hf
  | append_singleton es e ih =>
    rw [ofEntities_concat]
    have hpart (n : Nat) (hn : (ofEntities es).PartLine n) : ((ofEntities es).add e).PartLine n := by
      obtain ⟨s, hs, rest⟩ := hn
      exact ⟨s, snippets_add _ e ▸ List.mem_append_left _ hs, rest⟩
    have hlineMod (n : Nat) (hn : (ofEntities es).LineModLine n) :
        ((ofEntities es).add e).LineModLine n := by
      obtain ⟨m, hm, rest⟩ := hn
      exact ⟨m, entities_add _ e ▸ List.mem_append_left _ hm, rest⟩
    have hlast : e ∈ ((ofEntities es).add e).entities := by
      rw [entities_add]
      exact List.mem_concat_self
    intro f hf
    rcases mem_indexFaults_add hf with hf | ⟨hplace, ⟨s, rfl⟩ | ⟨m, rfl⟩⟩
    · exact (ih f hf).mono fun n hn => hn.imp (hpart n) (hlineMod n)
    · exact ⟨_, hplace, .inl (partLine_of_mem (mem_snippets.mpr hlast))⟩
    · exact ⟨_, hplace, .inr ⟨m, hlast, rfl⟩⟩

end Document

end Doctest
