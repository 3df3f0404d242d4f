import Doctest.Proofs.Acceptance
import Doctest.Proofs.Result
import Doctest.Proofs.TokenContext

/-!
# Every token is accounted for

Nothing of a document that is accepted gets lost, comes twice or changes its place.

* `Accounts`: what the machine has found so far and what it holds open is what the tokens read so far
  say when one looks back from each of them.
* `accounts_step`: one more token without a fault keeps this.
* `ofTokens_accounted`: the entities of an accepted document are those that its tokens add, in their
  order.
-/

namespace Doctest

/-! ## What directives declare -/

/-- What a directive can declare, with the label `body:` and without it. -/
inductive Declares (d : Directive) : Declaration → Prop
  | config {patch : ConfigPatch} (h : d.bodyLabel ≠ some .body) : Declares d (.config d.line patch)
  | lineMod {m : LineMod} (h : d.bodyLabel ≠ some .body) : Declares d (.lineMod m)
  | opened {s : OpenSnippet} (h : d.bodyLabel ≠ some .body) (hs : OpenSnippet.ofDirective d = .ok s) :
      Declares d (.opened s)
  | closed {s : OpenSnippet} (h : d.bodyLabel = some .body) (hs : OpenSnippet.ofDirective d = .ok s) :
      Declares d (.closed (s.close "" d.body))

namespace Declares

variable {d : Directive} {declaration : Declaration}

theorem of_readConfig (h : d.bodyLabel ≠ some .body)
    (hread : Declaration.readConfig d = .ok declaration) : Declares d declaration := by
  obtain ⟨_, -, hread⟩ := bind_eq_ok.mp hread
  obtain ⟨patch, -, hread⟩ := bind_eq_ok.mp hread
  cases hread
  exact .config h

theorem of_readLanguageLineMod (h : d.bodyLabel ≠ some .body)
    (hread : Declaration.readLanguageLineMod d = .ok declaration) : Declares d declaration := by
  obtain ⟨_, -, hread⟩ := bind_eq_ok.mp hread
  obtain ⟨lang, -, hread⟩ := bind_eq_ok.mp hread
  obtain ⟨m, -, hread⟩ := bind_eq_ok.mp hread
  cases hread
  exact .lineMod h

theorem of_readAppliableLineMod (h : d.bodyLabel ≠ some .body)
    (hread : Declaration.readAppliableLineMod d = .ok declaration) : Declares d declaration := by
  obtain ⟨_, -, hread⟩ := bind_eq_ok.mp hread
  obtain ⟨id, -, hread⟩ := bind_eq_ok.mp hread
  split at hread
  · cases hread
  · obtain ⟨m, -, hread⟩ := bind_eq_ok.mp hread
    cases hread
    exact .lineMod h

theorem ofDirective_of_readSnippet {s : OpenSnippet} (h : Declaration.readSnippet d = .ok s) :
    OpenSnippet.ofDirective d = .ok s := by
  obtain ⟨_, -, h⟩ := bind_eq_ok.mp h
  exact h

/-- Every declaration is one of these. -/
theorem of_ofDirective (h : Declaration.ofDirective d = .ok declaration) :
    Declares d declaration := by
  unfold Declaration.ofDirective at h
  split at h
  · cases h
  · next hlabel _ => exact of_readConfig (by simp [hlabel]) h
  · cases h
  · cases h
  · next hbody _ => exact of_readLanguageLineMod hbody h
  · cases h
  · next hbody => exact of_readAppliableLineMod hbody h
  · next hlabel _ _ =>
    cases hs : Declaration.readSnippet d with
    | error fault => rw [hs] at h; cases h
    | ok s =>
      rw [hs] at h
      cases h
      exact .closed hlabel (ofDirective_of_readSnippet hs)
  · next hbody =>
    cases hs : Declaration.readSnippet d with
    | error fault => rw [hs] at h; cases h
    | ok s =>
      rw [hs] at h
      cases h
      exact .opened hbody (ofDirective_of_readSnippet hs)

/-- The code of a declaration is the body of its directive, which then has the label `body:`. -/
theorem map_body_element? (h : Declares d declaration) :
    declaration.element?.map Element.body =
      if d.bodyLabel = some .body then some d.body else none := by
  cases h with
  | config h => rw [if_neg h]; rfl
  | lineMod h => rw [if_neg h]; rfl
  | opened h hs => rw [if_neg h]; rfl
  | closed h hs => rw [if_pos h]; rfl

/-- A snippet that waits has the properties of its directive, which sets the language with the
attribute `lang`. -/
theorem properties_of_opened {s : OpenSnippet} (h : Declares d (.opened s)) :
    Properties.ofDirective d "" = .ok s.properties ∧ d.value? "lang" = .ok s.lang := by
  cases h with
  | opened h hs =>
    obtain ⟨p, hp, hs⟩ := bind_eq_ok.mp hs
    obtain ⟨lang, hlang, hs⟩ := bind_eq_ok.mp hs
    cases hs
    exact ⟨hp, hlang⟩

end Declares

/-- What waits for a code block comes from a directive in front of it. -/
theorem Token.directive_of_awaiting {before : List Token} {s : OpenSnippet}
    (h : awaiting before = some s) :
    ∃ t ∈ before, ∃ d, t.directive? = some d ∧
      Properties.ofDirective d "" = .ok s.properties ∧ d.value? "lang" = .ok s.lang := by
  obtain ⟨t, hfind, hwaiting⟩ := Option.bind_eq_some_iff.mp h
  obtain ⟨declaration, hdeclared, hwaiting⟩ := Option.bind_eq_some_iff.mp hwaiting
  obtain ⟨d, hdirective, hd⟩ := Option.bind_eq_some_iff.mp hdeclared
  refine ⟨t, List.mem_reverse.mp (List.mem_of_find?_eq_some hfind), d, hdirective, ?_⟩
  cases hresult : Declaration.ofDirective d with
  | error fault => rw [hresult] at hd; cases hd
  | ok declaration' =>
    rw [hresult] at hd
    cases hd
    cases declaration with
    | opened s' =>
      cases hwaiting
      exact (Declares.of_ofDirective hresult).properties_of_opened
    | config line patch => cases hwaiting
    | lineMod m => cases hwaiting
    | closed e => cases hwaiting

/-- A token that can be read gives its own code to a snippet. -/
theorem Token.map_body_part? {before : List Token} {t : Token} (h : t.Readable) :
    (t.part? before).map Element.body = t.code? := by
  unfold part?
  cases t with
  | heading line content => rfl
  | codeBlock line lang lines =>
    rw [closed?_codeBlock]
    cases awaiting before <;> rfl
  | comment line text =>
    obtain ⟨d?, hparse, hdeclared⟩ := h
    rw [closed?_of_not_code rfl, declaration?, code?, directive?_comment hparse]
    cases d? with
    | none => rfl
    | some d =>
      obtain ⟨declaration, hd⟩ := hdeclared d rfl
      rw [Option.bind_some, Option.bind_some, hd]
      exact (Declares.of_ofDirective hd).map_body_element?

theorem Token.map_body_elements {tokens : List Token} (h : ∀ t ∈ tokens, t.Readable) :
    (elements none tokens).map Element.body = tokens.filterMap code? := by
  rw [elements_eq, List.map_filterMap]
  conv_rhs => rw [← map_snd_inContext tokens, List.filterMap_map]
  refine List.filterMap_congr fun x hx => ?_
  exact map_body_part? (h x.2 (map_snd_inContext tokens ▸ List.mem_map_of_mem hx))

/-! ## Sequences -/

/-- The parts of the sequence that is open. -/
def openParts (sequence : Option OpenSequence) : List Element :=
  sequence.elim [] OpenSequence.elements

/-- A snippet without a number is complete. -/
theorem completes?_single {sequence : Option OpenSequence} {e : Element}
    (h : next? sequence e = none) (parts : List Element) :
    sequence = none ∧ e.completes? parts = some (.single e) := by
  cases sequence with
  | some s => cases h
  | none =>
    have hnumber : e.properties.sequence = none := Option.map_eq_none_iff.mp h
    unfold Element.completes?
    rw [hnumber]
    exact ⟨rfl, rfl⟩

/-- A part that goes on with the open sequence becomes its last one, and its number says so. -/
theorem elements_of_next? {sequence : Option OpenSequence} {e : Element} {s : OpenSequence}
    (h : next? sequence e = some (.ok s)) :
    s.elements = openParts sequence ++ [e] ∧ e.properties.sequence = some ⟨s.size, s.total⟩ := by
  cases sequence with
  | none =>
    obtain ⟨⟨position, total⟩, hnumber, hstart⟩ := Option.map_eq_some_iff.mp h
    unfold OpenSequence.start at hstart
    split at hstart
    · next hposition =>
      cases hposition
      cases hstart
      exact ⟨rfl, hnumber⟩
    · cases hstart
  | some s₀ =>
    have hadd : s₀.add e = .ok s := Option.some.inj h
    unfold OpenSequence.add at hadd
    dsimp only at hadd
    split at hadd
    · next number hnumber =>
      split at hadd
      · next hnext =>
        cases hadd
        refine ⟨rfl, ?_⟩
        rw [hnumber, hnext]
        simp [OpenSequence.size]
      · cases hadd
    · cases hadd

/-- The last part of a sequence completes it. -/
theorem completes?_sequence {parts front : List Element} {sequence : Option OpenSequence}
    {e : Element} {s : OpenSequence} (hparts : front ++ openParts sequence = parts)
    (h : next? sequence e = some (.ok s)) :
    e.completes? parts = if s.size = s.total then some (.sequence s.first s.rest) else none := by
  obtain ⟨helements, hnumber⟩ := elements_of_next? h
  have hsize : (openParts sequence).length + 1 = s.size := by
    have hlength := congrArg List.length helements
    simp only [OpenSequence.elements, List.length_cons, List.length_append, List.length_nil] at hlength
    simp only [OpenSequence.size]
    omega
  unfold Element.completes?
  rw [hnumber]
  dsimp only
  split
  · next htotal =>
    have hlast : parts.rtake (s.total - 1) = openParts sequence := by
      rw [← hparts, List.rtake]
      refine List.drop_left' ?_
      rw [List.length_append]
      omega
    rw [hlast]
    unfold OpenSequence.elements at helements
    cases hopen : openParts sequence with
    | nil =>
      rw [hopen] at helements
      obtain ⟨hfirst, hrest⟩ := List.cons.inj helements
      rw [hfirst, hrest]
    | cons first rest =>
      rw [hopen] at helements
      obtain ⟨hfirst, hrest⟩ := List.cons.inj helements
      rw [hfirst, hrest]
      rfl
  · rfl

/-! ## The machine -/

namespace Entity.Progress

/-- What has been found and what is open is what the tokens say. -/
structure Accounts (before : List Token) (p : Progress) : Prop where
  waiting : p.waiting = Token.awaiting before
  heading : p.heading = Token.newHeading? before
  entities : p.entities = Token.allEntities before
  parts : p.entities.flatMap Entity.elements ++ openParts p.sequence = Token.elements none before

variable {p : Progress} {before : List Token}

theorem accounts_start : Accounts [] .start := ⟨rfl, rfl, rfl, rfl⟩

/-- What has been found once the last heading is written, if it is new. -/
theorem flushHeading_found (p : Progress) :
    p.flushHeading.heading = none ∧
      p.flushHeading.entities = p.entities ++ p.heading.toList.map .heading ∧
      p.flushHeading.entities.flatMap Entity.elements = p.entities.flatMap Entity.elements := by
  unfold flushHeading
  split
  · next h hheading =>
    rw [hheading]
    refine ⟨rfl, rfl, ?_⟩
    show (p.entities ++ [Entity.heading h]).flatMap Entity.elements = _
    rw [List.flatMap_append]
    exact List.append_nil _
  · next hheading =>
    rw [hheading]
    exact ⟨rfl, (List.append_nil _).symm, rfl⟩

theorem flatMap_elements_withEntity (p : Progress) (s : Snippet) :
    (p.withEntity (.snippet s)).entities.flatMap Entity.elements =
      p.entities.flatMap Entity.elements ++ s.elements := by
  show (p.entities ++ [Entity.snippet s]).flatMap Entity.elements = _
  rw [List.flatMap_append, List.flatMap_singleton]
  rfl

/-- **A snippet or a part of one.** It comes behind the heading, and what it completes comes behind
that. -/
theorem withElement_found {e : Element} {parts : List Element}
    (hparts : p.entities.flatMap Entity.elements ++ openParts p.sequence = parts)
    (hfaults : (p.withElement e).faults = []) :
    (p.withElement e).waiting = p.waiting ∧ (p.withElement e).heading = none ∧
      (p.withElement e).entities = p.entities ++
        (p.heading.toList.map .heading ++ (e.completes? parts).toList.map .snippet) ∧
      (p.withElement e).entities.flatMap Entity.elements ++ openParts (p.withElement e).sequence =
        parts ++ [e] := by
  obtain ⟨hwaiting, -, -⟩ := flushHeading_eq p
  obtain ⟨hheading, hentities, helements⟩ := flushHeading_found p
  rw [withElement_eq] at hfaults ⊢
  dsimp only at hfaults ⊢
  rw [← List.append_assoc, ← hentities]
  cases hnext : next? p.sequence e with
  | none =>
    obtain ⟨hsequence, hcompletes⟩ := completes?_single hnext parts
    rw [hsequence, ← helements] at hparts
    refine ⟨hwaiting, hheading, by rw [hcompletes]; rfl, ?_⟩
    dsimp only
    rw [flatMap_elements_withEntity, ← hparts]
    simp [openParts, withEntity, Snippet.elements]
  | some result =>
    cases result with
    | error fault =>
      rw [hnext] at hfaults
      exact absurd hfaults (faults_withFault _ fault)
    | ok s =>
      have hlast : openParts p.sequence ++ [e] = s.elements := (elements_of_next? hnext).1.symm
      rw [completes?_sequence hparts hnext, ← hparts, ← helements, List.append_assoc, hlast]
      dsimp only
      unfold withSequence
      split
      · refine ⟨hwaiting, hheading, rfl, ?_⟩
        rw [flatMap_elements_withEntity]
        exact List.append_nil _
      · exact ⟨hwaiting, hheading, (List.append_nil _).symm, rfl⟩

/-- A token that gives no code to a snippet: what it says is found, and what it opens waits. -/
theorem accounts_withoutCode (h : Accounts before p) {t : Token} (hcode : t.isCode = false)
    (helement : t.declaration?.bind Declaration.element? = none) {q : Progress}
    (hwaiting : q.waiting = t.waitingAfter p.waiting) (hheading : q.heading = t.heading?.or p.heading)
    (hentities : q.entities = p.entities ++ (t.declaration?.bind Declaration.entity?).toList)
    (hsequence : q.sequence = p.sequence) : Accounts (before ++ [t]) q := by
  have hpart : t.part? before = none := by
    rw [Token.part?, Token.closed?_of_not_code hcode, helement]
  have hnoElements : ((t.declaration?.bind Declaration.entity?).toList).flatMap Entity.elements = [] := by
    cases t.declaration? with
    | none => rfl
    | some d => cases d <;> rfl
  constructor
  · rw [hwaiting, Token.awaiting_concat, h.waiting]
  · rw [hheading, Token.newHeading?_concat, hpart, h.heading]
    cases t.heading? <;> rfl
  · rw [hentities, Token.allEntities_concat, Token.entities, hpart, h.entities]
  · rw [hentities, hsequence, List.flatMap_append, hnoElements, List.append_nil, h.parts,
      Token.elements_concat, hpart]
    exact (List.append_nil _).symm

/-- A token that gives code to a snippet or a part of one. -/
theorem accounts_withElement (h : Accounts before p) {t : Token} {e : Element}
    (hpart : t.part? before = some e) (hheading : t.heading? = none)
    (hwaiting : t.waitingAfter p.waiting = none)
    (hfaults : ({ p with waiting := none }.withElement e).faults = []) :
    Accounts (before ++ [t]) ({ p with waiting := none }.withElement e) := by
  obtain ⟨hnothing, hnew, hentities, hparts⟩ :=
    withElement_found (p := { p with waiting := none }) h.parts hfaults
  constructor
  · rw [hnothing, Token.awaiting_concat, ← h.waiting, hwaiting]
  · rw [Token.newHeading?_concat, hpart, hheading]
    exact hnew
  · rw [hentities, Token.allEntities_concat, Token.entities, hpart, h.entities, h.heading]
  · rw [hparts, Token.elements_concat, hpart]
    rfl

/-- A directive that declares something where nothing waits. -/
theorem accounts_withDeclaration (h : Accounts before p) (hnone : p.waiting = none) {line : Nat}
    {text : String} {declaration : Declaration}
    (hdeclared : (Token.comment line text).declaration? = some declaration)
    (hfaults : (p.withDeclaration declaration).faults = []) :
    Accounts (before ++ [.comment line text]) (p.withDeclaration declaration) := by
  have hwaiting : (Token.comment line text).waitingAfter p.waiting = declaration.waiting? := by
    rw [Token.waitingAfter, hdeclared]
    rfl
  have helement : (Token.comment line text).declaration?.bind Declaration.element? =
      declaration.element? := by
    rw [hdeclared]
    rfl
  have hentity : (Token.comment line text).declaration?.bind Declaration.entity? =
      declaration.entity? := by
    rw [hdeclared]
    rfl
  cases declaration with
  | config line' patch =>
    refine accounts_withoutCode h rfl helement (hnone.trans hwaiting.symm) rfl ?_ rfl
    rw [hentity]
    rfl
  | lineMod m =>
    refine accounts_withoutCode h rfl helement (hnone.trans hwaiting.symm) rfl ?_ rfl
    rw [hentity]
    rfl
  | opened s =>
    refine accounts_withoutCode h rfl helement hwaiting.symm rfl ?_ rfl
    rw [hentity]
    exact (List.append_nil _).symm
  | closed e =>
    have hp : { p with waiting := none } = p := by rw [← hnone]
    have hpart : (Token.comment line text).part? before = some e := by
      rw [Token.part?, Token.closed?_of_not_code rfl, helement]
      rfl
    have haccounts := accounts_withElement h hpart rfl hwaiting
    rw [hp] at haccounts
    exact haccounts hfaults

/-- **One step of the machine.** What a token says is accounted for unless it gives a fault. -/
theorem accounts_step (h : Accounts before p) {t : Token} (hfaults : (p.step t).faults = []) :
    Accounts (before ++ [t]) (p.step t) := by
  cases t with
  | heading line content =>
    exact accounts_withoutCode h rfl rfl rfl rfl (List.append_nil _).symm rfl
  | codeBlock line lang lines =>
    have hstep : p.step (.codeBlock line lang lines) = { p with waiting := none }.withElement
        (p.waiting.elim ⟨.bare line lang, lines⟩ (·.close lang lines)) := by
      obtain ⟨entities, waiting, sequence, heading, faults⟩ := p
      cases waiting <;> rfl
    rw [hstep] at hfaults ⊢
    refine accounts_withElement h ?_ rfl rfl hfaults
    rw [Token.part?, Token.closed?_codeBlock, h.waiting]
  | comment line text =>
    cases hparse : Directive.parse line text with
    | error fault =>
      simp only [step, hparse] at hfaults
      exact absurd hfaults (faults_withFault p fault)
    | ok d? =>
      have hdirective := Token.directive?_comment hparse
      cases d? with
      | none =>
        have hsilent := Token.declaration?_of_silent hdirective
        have hstep : p.step (.comment line text) = p := by simp only [step, hparse]
        rw [hstep]
        refine accounts_withoutCode h rfl ?_ ?_ rfl ?_ rfl
        · rw [hsilent]; rfl
        · rw [Token.waitingAfter, hsilent]; rfl
        · rw [hsilent]; exact (List.append_nil _).symm
      | some d =>
        cases hwaiting : p.waiting with
        | some s => exact absurd hfaults (faults_step_of_waiting hwaiting hparse)
        | none =>
          cases hd : Declaration.ofDirective d with
          | error fault =>
            simp only [step, hparse, hd, dropWaiting_of_none hwaiting] at hfaults
            exact absurd hfaults (faults_withFault p fault)
          | ok declaration =>
            have hstep : p.step (.comment line text) = p.withDeclaration declaration := by
              simp only [step, hparse, hd, dropWaiting_of_none hwaiting]
            have hdeclared : (Token.comment line text).declaration? = some declaration := by
              rw [Token.declaration?, hdirective, Option.bind_some, hd]
              rfl
            rw [hstep] at hfaults ⊢
            exact accounts_withDeclaration h hwaiting hdeclared hfaults

/-- **All tokens.** What has been found behind them is accounted for unless there is a fault. -/
theorem accounts_foldl {tokens : List Token} (hfaults : (tokens.foldl step .start).faults = []) :
    Accounts tokens (tokens.foldl step .start) := by
  induction tokens using List.reverseRecOn with
  | nil => exact accounts_start
  | append_singleton before t ih =>
    rw [List.foldl_concat] at hfaults ⊢
    refine accounts_step (ih ?_) hfaults
    exact List.prefix_nil.mp (hfaults ▸ prefix_step _ t)

theorem entities_of_finish {es : List Entity} (h : p.finish = .ok es) : es = p.entities := by
  obtain ⟨hfaults, hwaiting, hsequence⟩ := finish_iff.mp ⟨es, h⟩
  unfold finish at h
  dsimp only at h
  rw [dropWaiting_of_none hwaiting, hfaults, hsequence] at h
  exact (Except.ok.inj h).symm

end Entity.Progress

/-- **Every token is accounted for.** The entities of an accepted document are those that its tokens
add, each where it is complete. The parts of its snippets are those that get code, one for each code
block and each directive with the label `body:`, in the order of the tokens and with their code. What
waits for a code block is what a directive in front of it says. Headings come in their order and at
most once, each of them being the last one when some snippet, or part of one, gets its code. -/
theorem ofTokens_accounted {tokens : List Token} {es : List Entity}
    (h : Entity.ofTokens tokens = .ok es) :
    es = (Token.inContext tokens).flatMap (fun (before, t) => t.entities before) ∧
      es.flatMap Entity.elements =
        (Token.inContext tokens).filterMap (fun (before, t) => t.part? before) ∧
      (es.flatMap Entity.elements).map Element.body = tokens.filterMap Token.code? ∧
      (∀ before s, before <+: tokens → Token.awaiting before = some s →
        ∃ t ∈ before, ∃ d, t.directive? = some d ∧
          Properties.ofDirective d "" = .ok s.properties ∧ d.value? "lang" = .ok s.lang) ∧
      (es.filterMap Entity.heading?).Sublist (tokens.filterMap Token.heading?) ∧
      ∀ heading ∈ es.filterMap Entity.heading?, ∃ before t, before ++ [t] <+: tokens ∧
        (t.part? before).isSome ∧ (before.filterMap Token.heading?).getLast? = some heading := by
  obtain ⟨hfaults, hwaiting, hsequence⟩ := Entity.Progress.finish_iff.mp ⟨es, h⟩
  have haccounts := Entity.Progress.accounts_foldl hfaults
  have hes : es = Token.allEntities tokens :=
    (Entity.Progress.entities_of_finish h).trans haccounts.entities
  have hparts : es.flatMap Entity.elements = Token.elements none tokens := by
    rw [← haccounts.parts, hsequence, Entity.Progress.entities_of_finish h]
    exact (List.append_nil _).symm
  have hreadable : ∀ t ∈ tokens, t.Readable :=
    ((Entity.Progress.accepted_iff rfl incomplete_none tokens).mp ⟨es, h⟩).readable
  refine ⟨hes, hparts.trans (Token.elements_eq tokens), ?_, ?_, ?_, ?_⟩
  · rw [hparts]
    exact Token.map_body_elements hreadable
  · intro before s _ hs
    exact Token.directive_of_awaiting hs
  · rw [hes]
    exact (List.sublist_append_left _ _).trans (Token.headings_sublist tokens)
  · intro heading hmem
    rw [hes] at hmem
    exact Token.exists_of_heading_mem hmem

/-- A sequence in two parts with a line mod and a heading between them, and a snippet behind it. -/
def interruptedSequence : List Token := [
  .heading 1 "First",
  .comment 3 " markcheck sequence=\"1/2\" lang=\"js\" ",
  .codeBlock 4 "text" ["a"],
  .comment 8 " markcheck each=\"js\" before:\nuse\n",
  .heading 12 "Second",
  .comment 14 " markcheck sequence=\"2/2\" body:\nb\n",
  .codeBlock 18 "sh" ["c"]]

theorem ofTokens_interruptedSequence :
    ∃ es, Entity.ofTokens interruptedSequence = .ok es ∧ es.map Entity.line = [1, 8, 12, 3, 18] ∧
      (es.flatMap Entity.elements).map (·.properties.lang) = ["js", "", "sh"] ∧
      (es.flatMap Entity.elements).map Element.body = [["a"], ["b"], ["c"]] := by
  have haccepted : (Entity.ofTokens interruptedSequence).toOption.isSome = true := by
    decide +kernel
  obtain ⟨es, hes⟩ : ∃ es, Entity.ofTokens interruptedSequence = .ok es := by
    cases h : Entity.ofTokens interruptedSequence with
    | ok es => exact ⟨es, rfl⟩
    | error faults => rw [h] at haccepted; cases haccepted
  obtain ⟨hentities, hparts, hbodies, -⟩ := ofTokens_accounted hes
  refine ⟨es, hes, ?_, ?_, ?_⟩
  · rw [hentities]
    decide +kernel
  · rw [hparts]
    decide +kernel
  · rw [hbodies]
    decide +kernel

end Doctest
