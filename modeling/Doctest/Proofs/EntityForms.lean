import Doctest.Proofs.DeclaredLineMods
import Doctest.Proofs.FaultPlaces

/-!
# The form of what a document declares

What putting snippets together relies on is checked in many places, when the attributes of a directive
are read, when it is classified and when the parts of sequences are collected. Here all of it is said of
every entity of a document.

* `Properties.WellFormed`, `Snippet.Numbered`, `Entity.WellFormed`: the form. It names the directive
  that an entity comes from, and the attributes that this directive may have.
* `Declaration.wellFormed_of_ofDirective`: what one directive declares has it.
* `Progress.WellFormed`: so has all that was found so far and all that is still open; an open sequence
  has its first positions.
* `parse_wellFormed`: every entity of a document has it.
-/

namespace Doctest

/-! ## The form -/

/-- The directive has no attributes but these. -/
def Directive.AtMost (d : Directive) (allowed : List String) : Prop :=
  ∀ key ∈ d.attributes.keys, key ∈ allowed

/-- What is said about a snippet, but for its language, is read from the directive. -/
structure Properties.DeclaredBy (d : Directive) (p : Properties) : Prop where
  attributes : d.AtMost Declaration.snippetAttributes
  read : ∃ p₀ lang, Properties.ofDirective d "" = .ok p₀ ∧ p = { p₀ with lang }
  lineMod : ∀ m, p.lineMod = some m → m.DeclaredBy d

structure Properties.WellFormed (directives : List Directive) (p : Properties) : Prop where
  number : ∀ n, p.sequence = some n → 1 ≤ n.position ∧ n.position ≤ n.total
  body : p.applyToBody = none ∨ p.lineMod = none
  lineMod : ∀ m, p.lineMod = some m → m.kind = .internal
  /-- A code block without a directive, or one of the directives. -/
  origin : p = .bare p.line p.lang ∨ ∃ d ∈ directives, p.DeclaredBy d

/-- A snippet of one part has no number. The parts of a sequence have the numbers from one to their
total, which is how many they are. -/
def Snippet.Numbered : Snippet → Prop
  | .single e => e.properties.sequence = none
  | .sequence first rest => ∃ total, 1 ≤ total ∧ (first :: rest).length = total ∧
      (first :: rest).map (·.properties.sequence) = numbered 1 total total

/-- A line mod for a language only wraps, every other line mod of a document has an ID that is not
empty. -/
def LineMod.Standalone (d : Directive) (m : LineMod) : Prop :=
  (∃ lang, m.kind = .language lang ∧ d.AtMost ["each"] ∧
    m.ignored = [] ∧ m.substitution = none ∧ m.insertions = []) ∨
  ∃ id, m.kind = .appliable id ∧ d.AtMost Declaration.lineModAttributes ∧ id ≠ ""

def Entity.WellFormed (directives : List Directive) : Entity → Prop
  | .config line _ => ∃ d ∈ directives, d.line = line ∧ d.AtMost []
  | .heading _ => True
  | .lineMod m => ∃ d ∈ directives, m.DeclaredBy d ∧ m.Standalone d
  | .snippet s => (∀ e ∈ s.elements, e.properties.WellFormed directives) ∧ s.Numbered

/-! ## One directive -/

section Directive

variable {d : Directive}

theorem Directive.atMost_of_checkAttributes {kind : String} {allowed : List String}
    (h : d.checkAttributes kind allowed = .ok ()) : d.AtMost allowed := by
  unfold Directive.checkAttributes at h
  split at h
  · next hnone =>
    intro key hkey
    simpa using List.filter_eq_nil_iff.mp hnone key hkey
  · cases h

theorem Directive.value?_of_atMost {allowed : List String} (h : d.AtMost allowed) {key : String}
    (hkey : key ∉ allowed) : d.value? key = .ok none := by
  unfold Directive.value?
  cases hget : d.attributes.get? key with
  | none => rfl
  | some value => exact absurd (h key (Keyed.mem_keys_of_get? hget)) hkey

theorem SequenceNumber.bounds_of_parse {text : String} {n : SequenceNumber}
    (h : SequenceNumber.parse text = .ok n) : 1 ≤ n.position ∧ n.position ≤ n.total := by
  unfold SequenceNumber.parse at h
  dsimp only at h
  split at h
  · cases h
  · next position total _ =>
    split at h
    · cases h
    · next hbounds =>
      cases h
      simp only [Bool.or_eq_true, decide_eq_true_eq, not_or] at hbounds
      dsimp only
      omega

namespace Properties

theorem readLineMod_eq_ok {applyToBody : Option String} {m? : Option LineMod}
    (h : readLineMod d applyToBody = .ok m?) :
    (applyToBody = none ∨ m? = none) ∧
      ∀ m, m? = some m → LineMod.ofDirective d .internal = .ok m := by
  unfold readLineMod at h
  split at h
  · cases h
    simp
  · split at h
    · cases h
    · next hbody =>
      cases hm : LineMod.ofDirective d .internal with
      | error fault =>
        rw [hm] at h
        cases h
      | ok m =>
        rw [hm] at h
        cases h
        refine ⟨.inl (by simpa using hbody), ?_⟩
        rintro _ ⟨⟩
        rfl

theorem ofDirective_eq_ok {lang : String} {p : Properties}
    (h : Properties.ofDirective d lang = .ok p) :
    d.read? "sequence" SequenceNumber.parse = .ok p.sequence ∧
      readLineMod d p.applyToBody = .ok p.lineMod := by
  obtain ⟨id, -, h⟩ := bind_eq_ok.mp h
  obtain ⟨mode, -, h⟩ := bind_eq_ok.mp h
  obtain ⟨sequence, hsequence, h⟩ := bind_eq_ok.mp h
  obtain ⟨includes, -, h⟩ := bind_eq_ok.mp h
  obtain ⟨externals, -, h⟩ := bind_eq_ok.mp h
  obtain ⟨localExternals, -, h⟩ := bind_eq_ok.mp h
  obtain ⟨exitStatus, -, h⟩ := bind_eq_ok.mp h
  obtain ⟨stdout, -, h⟩ := bind_eq_ok.mp h
  obtain ⟨stderr, -, h⟩ := bind_eq_ok.mp h
  obtain ⟨applyToBody, -, h⟩ := bind_eq_ok.mp h
  obtain ⟨lineMod, hlineMod, h⟩ := bind_eq_ok.mp h
  obtain ⟨applyToOuter, -, h⟩ := bind_eq_ok.mp h
  obtain ⟨runLocalLines, -, h⟩ := bind_eq_ok.mp h
  obtain ⟨runFileName, -, h⟩ := bind_eq_ok.mp h
  obtain ⟨sameAs, -, h⟩ := bind_eq_ok.mp h
  obtain ⟨containedInFile, -, h⟩ := bind_eq_ok.mp h
  obtain ⟨write, -, h⟩ := bind_eq_ok.mp h
  obtain ⟨writeLocal, -, h⟩ := bind_eq_ok.mp h
  cases h
  exact ⟨hsequence, hlineMod⟩

theorem wellFormed_of_ofDirective {directives : List Directive} (hd : d ∈ directives)
    (hattributes : d.AtMost Declaration.snippetAttributes) {p : Properties}
    (h : Properties.ofDirective d "" = .ok p) : p.WellFormed directives := by
  obtain ⟨hsequence, hlineMod⟩ := ofDirective_eq_ok h
  obtain ⟨hbody, hinternal⟩ := readLineMod_eq_ok hlineMod
  refine ⟨fun n hn => ?_, hbody, fun m hm => LineMod.kind_of_ofDirective (hinternal m hm),
    .inr ⟨d, hd, hattributes, ⟨p, p.lang, h, rfl⟩,
      fun m hm => LineMod.declaredBy_of_ofDirective (hinternal m hm)⟩⟩
  rcases Directive.read?_eq_ok hsequence with ⟨-, hnone⟩ | ⟨text, n', -, hparse, hsome⟩
  · rw [hnone] at hn
    cases hn
  · rw [hsome] at hn
    cases hn
    exact SequenceNumber.bounds_of_parse hparse

theorem wellFormed_bare (directives : List Directive) (line : Nat) (lang : String) :
    (Properties.bare line lang).WellFormed directives where
  number := by simp [bare]
  body := .inl rfl
  lineMod := by simp [bare]
  origin := .inl rfl

/-- The language is settled by the code block. -/
theorem WellFormed.withLang {directives : List Directive} {p : Properties}
    (h : p.WellFormed directives) (lang : String) :
    Properties.WellFormed directives { p with lang } where
  number := h.number
  body := h.body
  lineMod := h.lineMod
  origin := by
    rcases h.origin with hbare | ⟨d, hd, hattributes, ⟨p₀, lang₀, hread, hp⟩, hlineMod⟩
    · left
      rw [hbare]
      rfl
    · exact .inr ⟨d, hd, hattributes, ⟨p₀, lang, hread, by rw [hp]⟩, hlineMod⟩

end Properties

/-- The form of what is declared; a snippet may still wait for its code. -/
def Declaration.WellFormed (directives : List Directive) : Declaration → Prop
  | .config line patch => (Entity.config line patch).WellFormed directives
  | .lineMod m => (Entity.lineMod m).WellFormed directives
  | .opened s => s.properties.WellFormed directives
  | .closed e => e.properties.WellFormed directives

namespace Declaration

variable {directives : List Directive} {declaration : Declaration}

theorem wellFormed_of_readConfig (hd : d ∈ directives) (h : readConfig d = .ok declaration) :
    declaration.WellFormed directives := by
  obtain ⟨_, hattributes, h⟩ := bind_eq_ok.mp h
  obtain ⟨patch, -, h⟩ := bind_eq_ok.mp h
  cases h
  exact ⟨d, hd, rfl, Directive.atMost_of_checkAttributes hattributes⟩

theorem wellFormed_of_readLanguageLineMod (hd : d ∈ directives)
    (h : readLanguageLineMod d = .ok declaration) : declaration.WellFormed directives := by
  obtain ⟨_, hattributes, h⟩ := bind_eq_ok.mp h
  obtain ⟨lang, -, h⟩ := bind_eq_ok.mp h
  obtain ⟨m, hm, h⟩ := bind_eq_ok.mp h
  cases h
  have hmost := Directive.atMost_of_checkAttributes hattributes
  have hnone (key : String) (hkey : key ∉ ["each"]) : d.value? key = .ok none :=
    Directive.value?_of_atMost hmost hkey
  have hplain := LineMod.plain_of_ofDirective hm (hnone _ (by decide)) (hnone _ (by decide))
    (hnone _ (by decide))
  exact ⟨d, hd, LineMod.declaredBy_of_ofDirective hm,
    .inl ⟨_, LineMod.kind_of_ofDirective hm, hmost, hplain⟩⟩

theorem wellFormed_of_readAppliableLineMod (hd : d ∈ directives)
    (h : readAppliableLineMod d = .ok declaration) : declaration.WellFormed directives := by
  obtain ⟨_, hattributes, h⟩ := bind_eq_ok.mp h
  obtain ⟨id, -, h⟩ := bind_eq_ok.mp h
  split at h
  · cases h
  · next hid =>
    obtain ⟨m, hm, h⟩ := bind_eq_ok.mp h
    cases h
    exact ⟨d, hd, LineMod.declaredBy_of_ofDirective hm,
      .inr ⟨_, LineMod.kind_of_ofDirective hm, Directive.atMost_of_checkAttributes hattributes, hid⟩⟩

theorem wellFormed_of_readSnippet (hd : d ∈ directives) {s : OpenSnippet}
    (h : readSnippet d = .ok s) : s.properties.WellFormed directives := by
  obtain ⟨_, hattributes, h⟩ := bind_eq_ok.mp h
  obtain ⟨p, hp, h⟩ := bind_eq_ok.mp h
  obtain ⟨lang, -, h⟩ := bind_eq_ok.mp h
  cases h
  exact Properties.wellFormed_of_ofDirective hd (Directive.atMost_of_checkAttributes hattributes) hp

/-- **One directive.** -/
theorem wellFormed_of_ofDirective (hd : d ∈ directives) (h : ofDirective d = .ok declaration) :
    declaration.WellFormed directives := by
  unfold ofDirective at h
  split at h
  · cases h
  · exact wellFormed_of_readConfig hd h
  · cases h
  · cases h
  · exact wellFormed_of_readLanguageLineMod hd h
  · cases h
  · exact wellFormed_of_readAppliableLineMod hd h
  · cases hs : readSnippet d with
    | error fault =>
      rw [hs] at h
      cases h
    | ok s =>
      rw [hs] at h
      cases h
      exact (wellFormed_of_readSnippet hd hs).withLang _
  · cases hs : readSnippet d with
    | error fault =>
      rw [hs] at h
      cases h
    | ok s =>
      rw [hs] at h
      cases h
      exact wellFormed_of_readSnippet hd hs

end Declaration

end Directive

/-! ## Sequences that are open -/

/-- The parts so far have the form, and the positions from one on. -/
structure OpenSequence.WellFormed (directives : List Directive) (s : OpenSequence) : Prop where
  parts : ∀ e ∈ s.elements, e.properties.WellFormed directives
  numbers : s.elements.map (·.properties.sequence) = numbered 1 s.size s.total

section OpenSequence

variable {directives : List Directive} {e : Element} {s : OpenSequence}

theorem OpenSequence.wellFormed_of_start (he : e.properties.WellFormed directives)
    {number : SequenceNumber} (hnumber : e.properties.sequence = some number)
    (h : OpenSequence.start e number = .ok s) : s.WellFormed directives := by
  unfold OpenSequence.start at h
  split at h
  · next hposition =>
    cases h
    refine ⟨List.forall_mem_singleton.mpr he, ?_⟩
    obtain ⟨position, total⟩ := number
    cases hposition
    exact congrArg (fun n => [n]) hnumber
  · cases h

theorem OpenSequence.WellFormed.add (hs : s.WellFormed directives)
    (he : e.properties.WellFormed directives) {s' : OpenSequence} (h : s.add e = .ok s') :
    s'.WellFormed directives := by
  unfold OpenSequence.add at h
  dsimp only at h
  split at h
  · next number hnumber =>
    split at h
    · next hnext =>
      cases h
      have helements : OpenSequence.elements { s with rest := s.rest ++ [e] } = s.elements ++ [e] :=
        rfl
      have hsize : OpenSequence.size { s with rest := s.rest ++ [e] } = s.size + 1 := by
        simp [OpenSequence.size]
      constructor
      · rw [helements]
        exact List.forall_mem_append.mpr ⟨hs.parts, List.forall_mem_singleton.mpr he⟩
      · rw [helements, hsize, List.map_append, hs.numbers, numbered_concat, List.map_singleton,
          hnumber, hnext]
    · cases h
  · cases h

theorem wellFormed_of_next? {sequence : Option OpenSequence}
    (hsequence : ∀ s, sequence = some s → s.WellFormed directives)
    (he : e.properties.WellFormed directives) (h : next? sequence e = some (.ok s)) :
    s.WellFormed directives := by
  cases sequence with
  | none =>
    obtain ⟨number, hnumber, hstart⟩ := Option.map_eq_some_iff.mp h
    exact OpenSequence.wellFormed_of_start he hnumber hstart
  | some s₀ => exact (hsequence s₀ rfl).add he (Option.some.inj h)

end OpenSequence

/-! ## The machine -/

namespace Entity.Progress

/-- All that was found and all that is still open has the form. -/
structure WellFormed (directives : List Directive) (p : Progress) : Prop where
  entities : ∀ e ∈ p.entities, e.WellFormed directives
  waiting : ∀ s, p.waiting = some s → s.properties.WellFormed directives
  sequence : ∀ s, p.sequence = some s → s.WellFormed directives

namespace WellFormed

variable {directives : List Directive} {p : Progress}

theorem start (directives : List Directive) : Progress.start.WellFormed directives where
  entities := by simp [Progress.start]
  waiting := by simp [Progress.start]
  sequence := by simp [Progress.start]

theorem withFault (h : p.WellFormed directives) (fault : Fault) :
    (p.withFault fault).WellFormed directives := ⟨h.entities, h.waiting, h.sequence⟩

theorem withEntity (h : p.WellFormed directives) {e : Entity} (he : e.WellFormed directives) :
    (p.withEntity e).WellFormed directives :=
  ⟨List.forall_mem_append.mpr ⟨h.entities, List.forall_mem_singleton.mpr he⟩, h.waiting, h.sequence⟩

theorem withoutWaiting (h : p.WellFormed directives) :
    WellFormed directives { p with waiting := none } := ⟨h.entities, by simp, h.sequence⟩

theorem withoutSequence (h : p.WellFormed directives) :
    WellFormed directives { p with sequence := none } := ⟨h.entities, h.waiting, by simp⟩

theorem flushHeading (h : p.WellFormed directives) : p.flushHeading.WellFormed directives := by
  unfold Progress.flushHeading
  split
  · next heading _ =>
    have hmore := h.withEntity (e := .heading heading) trivial
    exact ⟨hmore.entities, hmore.waiting, hmore.sequence⟩
  · exact h

theorem dropWaiting (h : p.WellFormed directives) : p.dropWaiting.WellFormed directives := by
  unfold Progress.dropWaiting
  split
  · exact (h.withFault _).withoutWaiting
  · exact h

theorem withSequence (h : p.WellFormed directives) {s : OpenSequence}
    (hs : s.WellFormed directives) : (p.withSequence s).WellFormed directives := by
  unfold Progress.withSequence
  split
  · next hsize =>
    refine h.withEntity ⟨hs.parts, s.total, hsize ▸ s.size_pos, hsize, ?_⟩
    exact hs.numbers.trans (by rw [hsize])
  · refine ⟨h.entities, h.waiting, ?_⟩
    rintro _ ⟨⟩
    exact hs

theorem withElement (h : p.WellFormed directives) {e : Element}
    (he : e.properties.WellFormed directives) : (p.withElement e).WellFormed directives := by
  have hflushed := h.flushHeading.withoutSequence
  rw [withElement_eq]
  dsimp only
  split
  · next hnext =>
    obtain ⟨hsequence, -⟩ := completes?_single hnext []
    rw [hsequence] at hnext
    have hnumber : e.properties.sequence = none := Option.map_eq_none_iff.mp hnext
    exact hflushed.withEntity ⟨List.forall_mem_singleton.mpr he, hnumber⟩
  · next s hnext => exact hflushed.withSequence (wellFormed_of_next? h.sequence he hnext)
  · exact hflushed.withFault _

theorem withDeclaration (h : p.WellFormed directives) {declaration : Declaration}
    (hdeclared : declaration.WellFormed directives) :
    (p.withDeclaration declaration).WellFormed directives := by
  cases declaration with
  | config line patch => exact h.withEntity hdeclared
  | lineMod m => exact h.withEntity hdeclared
  | opened s =>
    refine ⟨h.entities, ?_, h.sequence⟩
    rintro _ ⟨⟩
    exact hdeclared
  | closed e => exact h.withElement hdeclared

/-- **One more token.** -/
theorem step (h : p.WellFormed directives) {t : Token}
    (ht : ∀ d, t.directive? = some d → d ∈ directives) : (p.step t).WellFormed directives := by
  cases t with
  | heading line content => exact ⟨h.entities, h.waiting, h.sequence⟩
  | codeBlock line lang lines =>
    simp only [Progress.step]
    split
    · next s hs => exact h.withoutWaiting.withElement ((h.waiting s hs).withLang _)
    · exact h.withElement (Properties.wellFormed_bare directives line lang)
  | comment line text =>
    simp only [Progress.step]
    split
    · exact h.withFault _
    · exact h
    · next d hparse =>
      split
      · exact h.dropWaiting.withFault _
      · next declaration hdeclared =>
        refine h.dropWaiting.withDeclaration (Declaration.wellFormed_of_ofDirective ?_ hdeclared)
        exact ht d (Token.directive?_comment hparse)

theorem foldl (tokens : List Token) :
    (tokens.foldl Progress.step .start).WellFormed (tokens.filterMap Token.directive?) :=
  List.foldlRecOn tokens _ (start _) fun _ h t ht =>
    h.step fun _ hd => List.mem_filterMap.mpr ⟨t, ht, hd⟩

end WellFormed

end Entity.Progress

/-! ## Documents -/

namespace Document

variable {source : String} {d : Document}

/-- **The form of a document.** Every entity comes from directives of the text, which have no
attributes but those of its kind, or from code blocks without one. A line mod for a language only
wraps, every other one in the document has an ID that is not empty. Line mods insert groups of lines
only where a body with the label `insert:` says so and never at a locator that is zero. No part of a
snippet has a line mod both of its own and by ID. The parts of a sequence are numbered one by one up to
their total; other snippets have no number. -/
theorem parse_wellFormed (h : parse source = .ok d) :
    ∃ tokens, Token.ofSource source = .ok tokens ∧
      ∀ e ∈ d.entities, e.WellFormed (tokens.filterMap Token.directive?) := by
  obtain ⟨tokens, es, htokens, hes, rfl⟩ := tokens_of_parse h
  refine ⟨tokens, htokens, ?_⟩
  rw [entities_ofEntities, Entity.Progress.entities_of_finish hes]
  exact (Entity.Progress.WellFormed.foldl tokens).entities

/-- A line mod with an ID that inserts a line, and a sequence with a line mod of each kind. -/
def everyForm : String :=
  "<!--markcheck lineModId=\"m\" at=\"after:-1\" insert:\nz\n-->\n" ++
  "<!--markcheck sequence=\"1/2\" ignoreLines=\"1\"-->\n```\na\n```\n" ++
  "<!--markcheck sequence=\"2/2\" applyToBody=\"m\" body:\nb\n-->\n"

theorem parse_everyForm :
    ∃ d tokens, parse everyForm = .ok d ∧ Token.ofSource everyForm = .ok tokens ∧
      d.entities.map Entity.line = [1, 4] ∧
      ∀ e ∈ d.entities, e.WellFormed (tokens.filterMap Token.directive?) := by
  have hlines : (parse everyForm).toOption.map (fun d => d.entities.map Entity.line) =
      some [1, 4] := by
    decide +kernel
  cases hparse : parse everyForm with
  | error faults =>
    rw [hparse] at hlines
    cases hlines
  | ok d =>
    obtain ⟨tokens, htokens, hforms⟩ := parse_wellFormed hparse
    rw [hparse] at hlines
    exact ⟨d, tokens, rfl, htokens, Option.some.inj hlines, hforms⟩

end Document

end Doctest
