import Doctest.Proofs.Sequences
import Doctest.Proofs.TokenOrder

/-!
# Which documents are accepted

The tokens of a document are read by a machine that remembers an open directive, an open sequence,
the last heading and the faults so far. Here it is compared with a description of well-formed
documents that has none of these.

* `Fits`: what the tokens have to be so that a document ends well, given what is open in front of
  them.
* `fits_step`: one step of the machine keeps this, or it gives a fault.
* `ofTokens_ok_iff`: the tokens of a document are accepted if and only if every directive can be
  read, every open directive is followed by its code block, and the parts of sequences stand
  together.
-/

namespace Doctest

/-! ## What fits -/

/-- What the tokens have to be so that a document ends well, given what is open in front of them. -/
structure Fits (waiting : Option OpenSnippet) (sequence : Option OpenSequence)
    (tokens : List Token) : Prop where
  readable : ∀ t ∈ tokens, t.Readable
  code : waiting.isSome → Token.CodeNext tokens
  answered : Token.Answered tokens
  runs : Runs (openNumbers sequence ++ Token.numbers waiting tokens)

namespace Fits

variable {waiting : Option OpenSnippet} {sequence : Option OpenSequence} {t : Token}
  {tokens : List Token}

theorem of_none (hreadable : ∀ t ∈ tokens, t.Readable) (hanswered : Token.Answered tokens)
    (hruns : Runs (openNumbers sequence ++ Token.numbers none tokens)) :
    Fits none sequence tokens := by
  refine ⟨hreadable, ?_, hanswered, hruns⟩
  intro hwaiting
  cases hwaiting

theorem nil_iff (h : Incomplete sequence) :
    Fits waiting sequence [] ↔ waiting = none ∧ sequence = none := by
  constructor
  · intro hfits
    constructor
    · cases waiting with
      | none => rfl
      | some s => exact absurd (hfits.code rfl) Token.not_codeNext_nil
    · cases sequence with
      | none => rfl
      | some s =>
        have hruns := hfits.runs
        rw [Token.numbers_nil, List.append_nil] at hruns
        exact absurd hruns (Runs.not_open s.size_pos (h s rfl))
  · rintro ⟨rfl, rfl⟩
    exact of_none (by simp) Token.answered_nil .nil

/-- Headings and ordinary comments change nothing. -/
theorem silent_iff (ht : t.Readable) (hsilent : t.directive? = none) (hcode : t.isCode = false) :
    Fits waiting sequence (t :: tokens) ↔ Fits waiting sequence tokens := by
  have hnext : Token.CodeNext (t :: tokens) ↔ Token.CodeNext tokens :=
    Token.codeNext_cons_silent hsilent hcode
  have hanswered : Token.Answered (t :: tokens) ↔ Token.Answered tokens :=
    Token.answered_cons_silent hsilent
  have hnumbers := Token.numbers_cons_silent hsilent hcode waiting tokens
  constructor
  · intro h
    refine ⟨(List.forall_mem_cons.mp h.readable).2, fun hw => hnext.mp (h.code hw),
      hanswered.mp h.answered, ?_⟩
    rw [← hnumbers]
    exact h.runs
  · intro h
    refine ⟨List.forall_mem_cons.mpr ⟨ht, h.readable⟩, fun hw => hnext.mpr (h.code hw),
      hanswered.mpr h.answered, ?_⟩
    rw [hnumbers]
    exact h.runs

/-- A directive cannot come where a code block has to. -/
theorem not_directive {s : OpenSnippet} (hdirective : t.directive?.isSome)
    (hcode : t.isCode = false) : ¬Fits (some s) sequence (t :: tokens) := by
  intro h
  exact Token.not_codeNext_cons hdirective hcode (h.code rfl)

/-- A code block ends the waiting. -/
theorem code_iff (line : Nat) (lang : String) (lines : Lines) :
    Fits waiting sequence (.codeBlock line lang lines :: tokens) ↔
      (∀ t ∈ tokens, t.Readable) ∧ Token.Answered tokens ∧
        Runs (openNumbers sequence ++
          [(waiting.elim ⟨.bare line lang, lines⟩ (·.close lang lines)).properties.sequence] ++
          Token.numbers none tokens) := by
  rw [← List.append_cons]
  constructor
  · intro h
    exact ⟨(List.forall_mem_cons.mp h.readable).2, (Token.answered_cons_code rfl).mp h.answered,
      h.runs⟩
  · rintro ⟨hreadable, hanswered, hruns⟩
    exact ⟨List.forall_mem_cons.mpr ⟨trivial, hreadable⟩, fun _ => Token.codeNext_cons rfl,
      (Token.answered_cons_code rfl).mpr hanswered, hruns⟩

/-- A directive without code, where no code block has to come. -/
theorem declared_iff (ht : t.Readable) (hcode : t.isCode = false) {d : Declaration}
    (h : t.declaration? = some d) (hd : d.element? = none) :
    Fits none sequence (t :: tokens) ↔ Fits d.waiting? sequence tokens := by
  have hnumbers : Token.numbers none (t :: tokens) = Token.numbers d.waiting? tokens := by
    unfold Token.numbers
    rw [Token.elements_cons hcode, h]
    simp [hd]
  have hanswered : Token.Answered (t :: tokens) ↔
      (d.waiting?.isSome → Token.CodeNext tokens) ∧ Token.Answered tokens := by
    rw [Token.answered_cons, Token.opens_iff h]
  constructor
  · intro hfits
    obtain ⟨hcode, hrest⟩ := hanswered.mp hfits.answered
    exact ⟨(List.forall_mem_cons.mp hfits.readable).2, hcode, hrest, hnumbers ▸ hfits.runs⟩
  · intro hfits
    exact of_none (List.forall_mem_cons.mpr ⟨ht, hfits.readable⟩)
      (hanswered.mpr ⟨hfits.code, hfits.answered⟩) (hnumbers ▸ hfits.runs)

/-- A directive with its code, where no code block has to come. -/
theorem closed_iff (ht : t.Readable) (hcode : t.isCode = false) {e : Element}
    (h : t.declaration? = some (.closed e)) :
    Fits none sequence (t :: tokens) ↔
      (∀ t ∈ tokens, t.Readable) ∧ Token.Answered tokens ∧
        Runs (openNumbers sequence ++ [e.properties.sequence] ++ Token.numbers none tokens) := by
  have hnumbers : Token.numbers none (t :: tokens) =
      e.properties.sequence :: Token.numbers none tokens := by
    unfold Token.numbers
    rw [Token.elements_cons hcode, h]
    rfl
  rw [← List.append_cons, ← hnumbers]
  constructor
  · intro hfits
    exact ⟨(List.forall_mem_cons.mp hfits.readable).2, (Token.answered_cons.mp hfits.answered).2,
      hfits.runs⟩
  · rintro ⟨hreadable, hanswered, hruns⟩
    refine of_none (List.forall_mem_cons.mpr ⟨ht, hreadable⟩) ?_ hruns
    refine Token.answered_cons.mpr ⟨fun hopens => ?_, hanswered⟩
    cases (Token.opens_iff h).mp hopens

end Fits

/-! ## The machine -/

namespace Entity.Progress

variable {p : Progress}

theorem flushHeading_eq (p : Progress) :
    p.flushHeading.waiting = p.waiting ∧ p.flushHeading.sequence = p.sequence ∧
      p.flushHeading.faults = p.faults := by
  unfold flushHeading
  split
  · exact ⟨rfl, rfl, rfl⟩
  · exact ⟨rfl, rfl, rfl⟩

/-- Faults are only added, behind those that are known. -/
theorem prefix_withElement (p : Progress) (e : Element) :
    p.faults <+: (p.withElement e).faults := by
  obtain ⟨-, -, hfaults⟩ := flushHeading_eq p
  unfold withElement
  rw [← hfaults]
  dsimp only
  split
  · exact List.prefix_rfl
  · unfold withSequence
    split <;> exact List.prefix_rfl
  · exact List.prefix_append _ _

theorem prefix_dropWaiting (p : Progress) : p.faults <+: p.dropWaiting.faults := by
  unfold dropWaiting
  split
  · exact List.prefix_append _ _
  · exact List.prefix_rfl

theorem prefix_withDeclaration (p : Progress) (d : Declaration) :
    p.faults <+: (p.withDeclaration d).faults := by
  cases d with
  | config line patch => exact List.prefix_rfl
  | lineMod m => exact List.prefix_rfl
  | opened s => exact List.prefix_rfl
  | closed e => exact p.prefix_withElement e

theorem prefix_step (p : Progress) (t : Token) : p.faults <+: (p.step t).faults := by
  cases t with
  | heading line content => exact List.prefix_rfl
  | codeBlock line lang lines =>
    simp only [step]
    split
    · next s _ => exact prefix_withElement { p with waiting := none } _
    · exact p.prefix_withElement _
  | comment line text =>
    simp only [step]
    split
    · exact List.prefix_append _ _
    · exact List.prefix_rfl
    · split
      · exact p.prefix_dropWaiting.trans (List.prefix_append _ _)
      · exact p.prefix_dropWaiting.trans (prefix_withDeclaration _ _)

/-- The document ends well if and only if nothing is wrong and nothing is open. -/
theorem finish_iff :
    (∃ es, p.finish = .ok es) ↔ p.faults = [] ∧ p.waiting = none ∧ p.sequence = none := by
  obtain ⟨entities, waiting, sequence, heading, faults⟩ := p
  cases waiting with
  | some s => simp [finish, dropWaiting, withFault]
  | none =>
    cases sequence with
    | some s => simp [finish, dropWaiting]
    | none => by_cases hfaults : faults = [] <;> simp [finish, dropWaiting, hfaults]

/-- A fault is never forgotten. -/
theorem faults_of_accepted {tokens : List Token}
    (h : ∃ es, (tokens.foldl step p).finish = .ok es) : p.faults = [] := by
  induction tokens generalizing p with
  | nil => exact (finish_iff.mp h).1
  | cons t tokens ih =>
    have hstep : (p.step t).faults = [] := ih h
    exact List.prefix_nil.mp (hstep ▸ p.prefix_step t)

/-- A snippet or a part of one goes on with what is open, and only with that. -/
theorem withElement_eq (p : Progress) (e : Element) :
    p.withElement e =
      let q := { p.flushHeading with sequence := none }
      match next? p.sequence e with
      | none => q.withEntity (.snippet (.single e))
      | some (.ok s) => q.withSequence s
      | some (.error fault) => q.withFault fault := by
  rw [← (flushHeading_eq p).2.1]
  rfl

theorem withSequence_spec (hnone : p.sequence = none) (s : OpenSequence) :
    (p.withSequence s).waiting = p.waiting ∧ (p.withSequence s).faults = p.faults ∧
      Incomplete (p.withSequence s).sequence ∧
      ∀ ns, Runs (openNumbers (p.withSequence s).sequence ++ ns) ↔
        Runs (numbered 1 s.size s.total ++ ns) := by
  unfold withSequence
  split
  · next hsize =>
    have hentity : (p.withEntity (.snippet (.sequence s.first s.rest))).sequence = none := hnone
    rw [hentity]
    refine ⟨rfl, rfl, incomplete_none, fun ns => ?_⟩
    have hpos : 0 < s.total := hsize ▸ s.size_pos
    rw [hsize, Runs.complete_iff hpos]
    rfl
  · next hsize =>
    refine ⟨rfl, rfl, ?_, fun ns => Iff.rfl⟩
    rintro s' ⟨⟩
    exact hsize

/-- **One more snippet or part of one.** Its number and those of what is open begin runs if and
only if there is no fault and what is open now begins runs. -/
theorem withElement_spec (hp : p.faults = []) (hopen : Incomplete p.sequence) (e : Element) :
    (p.withElement e).waiting = p.waiting ∧
      ∀ ns, Runs (openNumbers p.sequence ++ [e.properties.sequence] ++ ns) ↔
        (p.withElement e).faults = [] ∧ Runs (openNumbers (p.withElement e).sequence ++ ns) := by
  obtain ⟨hwaiting, -, hfaults⟩ := flushHeading_eq p
  have hnext := leadsTo_next? hopen e
  rw [withElement_eq]
  dsimp only
  cases h : next? p.sequence e with
  | none =>
    rw [h] at hnext
    refine ⟨hwaiting, fun ns => (hnext ns).trans ?_⟩
    exact ⟨fun hruns => ⟨hfaults.trans hp, hruns⟩, fun hruns => hruns.2⟩
  | some result =>
    rw [h] at hnext
    cases result with
    | ok s =>
      obtain ⟨hwaiting', hfaults', -, hruns⟩ :=
        withSequence_spec (p := { p.flushHeading with sequence := none }) rfl s
      refine ⟨hwaiting'.trans hwaiting, fun ns => ?_⟩
      rw [hnext ns, ← hruns ns]
      exact ⟨fun hruns => ⟨hfaults'.trans (hfaults.trans hp), hruns⟩, fun hruns => hruns.2⟩
    | error fault =>
      refine ⟨hwaiting, fun ns => ?_⟩
      constructor
      · intro hruns
        exact absurd hruns (hnext ns)
      · rintro ⟨hnil, -⟩
        exact absurd hnil (by simp [withFault])

theorem incomplete_withElement (p : Progress) (e : Element) :
    Incomplete (p.withElement e).sequence := by
  rw [withElement_eq]
  dsimp only
  split
  · exact incomplete_none
  · next s _ =>
    exact (withSequence_spec (p := { p.flushHeading with sequence := none }) rfl s).2.2.1
  · exact incomplete_none

theorem incomplete_step (hopen : Incomplete p.sequence) (t : Token) :
    Incomplete (p.step t).sequence := by
  have hdrop : p.dropWaiting.sequence = p.sequence := by
    unfold dropWaiting
    split <;> rfl
  cases t with
  | heading line content => exact hopen
  | codeBlock line lang lines =>
    simp only [step]
    split <;> exact incomplete_withElement _ _
  | comment line text =>
    simp only [step]
    split
    · exact hopen
    · exact hopen
    · split
      · exact hdrop ▸ hopen
      · next declaration _ =>
        cases declaration with
        | config line patch => exact hdrop ▸ hopen
        | lineMod m => exact hdrop ▸ hopen
        | opened s => exact hdrop ▸ hopen
        | closed e => exact incomplete_withElement _ e

/-- A code block, or a directive with its code. -/
theorem fits_withElement (hp : p.faults = []) (hopen : Incomplete p.sequence)
    (hwaiting : p.waiting = none) (e : Element) (tokens : List Token) :
    (∀ t ∈ tokens, t.Readable) ∧ Token.Answered tokens ∧
        Runs (openNumbers p.sequence ++ [e.properties.sequence] ++ Token.numbers none tokens) ↔
      (p.withElement e).faults = [] ∧
        Fits (p.withElement e).waiting (p.withElement e).sequence tokens := by
  obtain ⟨hwaiting', hruns⟩ := withElement_spec hp hopen e
  rw [hwaiting', hwaiting, hruns]
  constructor
  · rintro ⟨hreadable, hanswered, hfaults, hruns⟩
    exact ⟨hfaults, .of_none hreadable hanswered hruns⟩
  · rintro ⟨hfaults, hfits⟩
    exact ⟨hfits.readable, hfits.answered, hfaults, hfits.runs⟩

theorem faults_withFault (p : Progress) (fault : Fault) : (p.withFault fault).faults ≠ [] := by
  simp [withFault]

theorem dropWaiting_of_none (h : p.waiting = none) : p.dropWaiting = p := by
  unfold dropWaiting
  rw [h]

/-- A directive that waits in vain is a fault. -/
theorem faults_step_of_waiting {s : OpenSnippet} (h : p.waiting = some s) {line : Nat}
    {text : String} {d : Directive} (hparse : Directive.parse line text = .ok (some d)) :
    (p.step (.comment line text)).faults ≠ [] := by
  have hdrop : p.dropWaiting.faults ≠ [] := by
    unfold dropWaiting
    rw [h]
    exact faults_withFault p _
  simp only [step, hparse]
  split
  · exact faults_withFault _ _
  · next declaration _ =>
    intro hnil
    exact hdrop (List.prefix_nil.mp (hnil ▸ p.dropWaiting.prefix_withDeclaration declaration))

/-- A directive where nothing waits. -/
theorem fits_withDeclaration (hp : p.faults = []) (hopen : Incomplete p.sequence)
    (hwaiting : p.waiting = none) {line : Nat} {text : String} {d : Directive}
    (hparse : Directive.parse line text = .ok (some d)) {declaration : Declaration}
    (hd : Declaration.ofDirective d = .ok declaration) (tokens : List Token) :
    Fits none p.sequence (.comment line text :: tokens) ↔
      (p.withDeclaration declaration).faults = [] ∧
        Fits (p.withDeclaration declaration).waiting (p.withDeclaration declaration).sequence
          tokens := by
  have hdeclared : (Token.comment line text).declaration? = some declaration := by
    unfold Token.declaration?
    rw [Token.directive?_comment hparse, Option.bind_some, hd]
    rfl
  have hreadable : (Token.comment line text).Readable := by
    refine ⟨some d, hparse, ?_⟩
    rintro _ ⟨⟩
    exact ⟨declaration, hd⟩
  have hsame : Fits none p.sequence tokens ↔
      p.faults = [] ∧ Fits p.waiting p.sequence tokens := by
    rw [hwaiting]
    exact ⟨fun h => ⟨hp, h⟩, fun h => h.2⟩
  cases declaration with
  | config line patch =>
    rw [Fits.declared_iff hreadable rfl hdeclared rfl]
    exact hsame
  | lineMod m =>
    rw [Fits.declared_iff hreadable rfl hdeclared rfl]
    exact hsame
  | opened s =>
    rw [Fits.declared_iff hreadable rfl hdeclared rfl]
    exact ⟨fun h => ⟨hp, h⟩, fun h => h.2⟩
  | closed e =>
    rw [Fits.closed_iff hreadable rfl hdeclared]
    exact fits_withElement hp hopen hwaiting e tokens

/-- A comment that is a directive. -/
theorem fits_directive (hp : p.faults = []) (hopen : Incomplete p.sequence) {line : Nat}
    {text : String} {d : Directive} (hparse : Directive.parse line text = .ok (some d))
    (tokens : List Token) :
    Fits p.waiting p.sequence (.comment line text :: tokens) ↔
      (p.step (.comment line text)).faults = [] ∧
        Fits (p.step (.comment line text)).waiting (p.step (.comment line text)).sequence
          tokens := by
  -- Whatever the directive declares, it cannot come while a code block is awaited.
  cases hwaiting : p.waiting with
  | some s =>
    have hdirective := Option.isSome_of_eq_some (Token.directive?_comment hparse)
    constructor
    · exact fun h => absurd h (Fits.not_directive hdirective rfl)
    · exact fun h => absurd h.1 (faults_step_of_waiting hwaiting hparse)
  | none =>
    have hdrop := dropWaiting_of_none hwaiting
    cases hd : Declaration.ofDirective d with
    | error fault =>
      have hstep : p.step (.comment line text) = p.withFault fault := by
        simp only [step, hparse, hd, hdrop]
      have hunreadable : ¬(Token.comment line text).Readable := by
        rintro ⟨d?, hd?, hdeclared⟩
        rw [hparse] at hd?
        cases hd?
        obtain ⟨declaration, hdeclaration⟩ := hdeclared d rfl
        rw [hd] at hdeclaration
        cases hdeclaration
      constructor
      · exact fun h => absurd (List.forall_mem_cons.mp h.readable).1 hunreadable
      · exact fun h => absurd (hstep ▸ h.1) (faults_withFault p fault)
    | ok declaration =>
      have hstep : p.step (.comment line text) = p.withDeclaration declaration := by
        simp only [step, hparse, hd, hdrop]
      rw [hstep]
      exact fits_withDeclaration hp hopen hwaiting hparse hd tokens

/-- **One step of the machine.** The tokens fit what was open if and only if the first of them
gives no fault and the others fit what is open now. -/
theorem fits_step (hp : p.faults = []) (hopen : Incomplete p.sequence) (t : Token)
    (tokens : List Token) :
    Fits p.waiting p.sequence (t :: tokens) ↔
      (p.step t).faults = [] ∧ Fits (p.step t).waiting (p.step t).sequence tokens := by
  cases t with
  | heading line content =>
    rw [Fits.silent_iff (t := .heading line content) trivial rfl rfl]
    exact ⟨fun h => ⟨hp, h⟩, fun h => h.2⟩
  | codeBlock line lang lines =>
    have hstep : p.step (.codeBlock line lang lines) = { p with waiting := none }.withElement
        (p.waiting.elim ⟨.bare line lang, lines⟩ (·.close lang lines)) := by
      obtain ⟨entities, waiting, sequence, heading, faults⟩ := p
      cases waiting <;> rfl
    rw [Fits.code_iff, hstep]
    exact fits_withElement (p := { p with waiting := none }) hp hopen rfl _ tokens
  | comment line text =>
    cases hparse : Directive.parse line text with
    | error fault =>
      have hstep : p.step (.comment line text) = p.withFault fault := by simp only [step, hparse]
      have hunreadable : ¬(Token.comment line text).Readable := by
        rintro ⟨d?, hd?, -⟩
        rw [hparse] at hd?
        cases hd?
      constructor
      · exact fun h => absurd (List.forall_mem_cons.mp h.readable).1 hunreadable
      · exact fun h => absurd (hstep ▸ h.1) (faults_withFault p fault)
    | ok d? =>
      cases d? with
      | none =>
        have hstep : p.step (.comment line text) = p := by simp only [step, hparse]
        have hreadable : (Token.comment line text).Readable := ⟨none, hparse, by simp⟩
        rw [hstep, Fits.silent_iff hreadable (Token.directive?_comment hparse) rfl]
        exact ⟨fun h => ⟨hp, h⟩, fun h => h.2⟩
      | some d => exact fits_directive hp hopen hparse tokens

/-- The tokens that are still to come are accepted if and only if they fit what is open. -/
theorem accepted_iff (hp : p.faults = []) (hopen : Incomplete p.sequence) (tokens : List Token) :
    (∃ es, (tokens.foldl step p).finish = .ok es) ↔ Fits p.waiting p.sequence tokens := by
  induction tokens generalizing p with
  | nil =>
    rw [Fits.nil_iff hopen]
    exact finish_iff.trans ⟨fun h => h.2, fun h => ⟨hp, h⟩⟩
  | cons t tokens ih =>
    rw [fits_step hp hopen]
    constructor
    · intro h
      have hstep : (p.step t).faults = [] := faults_of_accepted h
      exact ⟨hstep, (ih hstep (incomplete_step hopen t)).mp h⟩
    · rintro ⟨hstep, hfits⟩
      exact (ih hstep (incomplete_step hopen t)).mpr hfits

end Entity.Progress

/-- **Which documents are accepted.** Every comment can be read and so can what directives declare,
every directive that waits for a code block gets one before the next directive, and the numbers of
snippets fall into runs. -/
theorem ofTokens_ok_iff (tokens : List Token) :
    (∃ es, Entity.ofTokens tokens = .ok es) ↔
      (∀ t ∈ tokens, t.Readable) ∧
        (∀ t rest, t :: rest <:+ tokens → t.Opens → Token.CodeNext rest) ∧
        Runs ((Token.elements none tokens).map (·.properties.sequence)) := by
  have haccepted := Entity.Progress.accepted_iff (p := .start) rfl incomplete_none tokens
  refine haccepted.trans ⟨fun h => ⟨h.readable, h.answered, h.runs⟩, ?_⟩
  rintro ⟨hreadable, hanswered, hruns⟩
  exact .of_none hreadable hanswered hruns

end Doctest
