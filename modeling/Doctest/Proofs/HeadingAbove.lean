import Doctest.Proofs.Log
import Doctest.Proofs.TokenLines
import Mathlib.Data.List.Pairwise

/-!
# The heading above an outcome

A heading is held back twice. The document keeps it until some code is found behind it, and the run
until there is an outcome to show. Both times a newer heading takes its place. So an outcome stands
under the last heading in front of what completes its snippet. This is the nearest heading above the
snippet unless there are headings inside the snippet, between its parts or between a directive and its
code.

* `Token.getLast?_headings_above`, `getLast?_of_pending?`: neither the document nor the run loses the
  last heading.
* `Token.line_of_mem_elements`: a part of a snippet stands on the line of a token that is no heading.
* `Token.HeadingsApart.nearest_iff`: when the last heading in front of a token is the nearest one above
  a line.
* `block_of_heading`: a heading in the log, with the snippet whose outcome follows it.
* `run_heading_nearest`: which heading this is, and when it is the nearest one above the snippet.
* `heading_inside_snippet`: a heading that stands below the snippet that is shown under it.
-/

namespace Doctest

/-! ## Places in lists -/

section Split

variable {α β : Type} {front rest before after : List β} {b : β}

/-- What does not occur in the front of a list occurs behind it. -/
theorem split_behind (hb : b ∉ front) (h : front ++ rest = before ++ b :: after) :
    ∃ between, before = front ++ between ∧ rest = between ++ b :: after := by
  obtain ⟨between, hbefore, hrest⟩ | ⟨between, hfront, hafter⟩ := List.append_eq_append_iff.mp h
  · exact ⟨between, hbefore, hrest⟩
  · obtain ⟨rfl, hrest⟩ | ⟨more, rfl, -⟩ := List.cons_eq_append_iff.mp hafter
    · exact ⟨[], by simpa using hfront.symm, hrest⟩
    · exact absurd (hfront ▸ List.mem_append_right before List.mem_cons_self) hb

/-- What does not occur at the end of a list occurs in front of it. -/
theorem split_before (hb : b ∉ rest) (h : front ++ rest = before ++ b :: after) :
    ∃ between, after = between ++ rest ∧ front = before ++ b :: between := by
  obtain ⟨between, -, rfl⟩ | ⟨between, hfront, hafter⟩ := List.append_eq_append_iff.mp h
  · exact absurd (List.mem_append_right between List.mem_cons_self) hb
  · obtain ⟨rfl, rfl⟩ | ⟨more, rfl, hmore⟩ := List.cons_eq_append_iff.mp hafter
    · exact absurd List.mem_cons_self hb
    · exact ⟨more, hmore, hfront⟩

theorem split_flatMap {as : List α} {f : α → List β} (h : as.flatMap f = before ++ b :: after) :
    ∃ as₁ a as₂ bs₁ bs₂, as = as₁ ++ a :: as₂ ∧ f a = bs₁ ++ b :: bs₂ ∧
      before = as₁.flatMap f ++ bs₁ ∧ after = bs₂ ++ as₂.flatMap f := by
  induction as generalizing before with
  | nil => simp at h
  | cons a as ih =>
    rw [List.flatMap_cons] at h
    obtain ⟨between, hbefore, hrest⟩ | ⟨between, hfront, hafter⟩ := List.append_eq_append_iff.mp h
    · obtain ⟨as₁, a', as₂, bs₁, bs₂, rfl, ha', rfl, rfl⟩ := ih hrest
      exact ⟨a :: as₁, a', as₂, bs₁, bs₂, rfl, ha', by rw [hbefore]; simp, rfl⟩
    · obtain ⟨rfl, hrest⟩ | ⟨bs₂, rfl, rfl⟩ := List.cons_eq_append_iff.mp hafter
      · obtain ⟨as₁, a', as₂, bs₁, bs₂, rfl, ha', hbs₁, rfl⟩ := @ih [] hrest
        refine ⟨a :: as₁, a', as₂, bs₁, bs₂, rfl, ha', ?_, rfl⟩
        rw [List.flatMap_cons, List.append_assoc, ← hbs₁, hfront, List.append_nil, List.append_nil]
      · exact ⟨[], a, as, before, bs₂, rfl, hfront, rfl, rfl⟩

end Split

/-! ## The last heading of some tokens -/

namespace Token

variable {front : List Token} {t : Token}

/-- What stands in front of a token in its context. -/
theorem of_inContext_eq {tokens : List Token} {contexts rest : List (List Token × Token)}
    (h : inContext tokens = contexts ++ (front, t) :: rest) :
    contexts = inContext front ∧ ∃ behind, tokens = front ++ t :: behind := by
  suffices hall : ∀ contexts front t rest, inContext tokens = contexts ++ (front, t) :: rest →
      contexts = inContext front ∧ ∃ behind, tokens = front ++ t :: behind from hall _ _ _ _ h
  clear h
  induction tokens using List.reverseRecOn with
  | nil => exact forall_split_nil
  | append_singleton tokens last ih =>
    rw [inContext_concat]
    refine forall_split_concat.mpr ⟨fun contexts front t rest h => ?_, rfl, [], rfl⟩
    obtain ⟨hcontexts, behind, hbehind⟩ := ih contexts front t rest h
    exact ⟨hcontexts, behind ++ [last], by rw [hbehind]; simp⟩

/-- A token adds a snippet last, behind the heading that was held back. -/
theorem entities_eq_snippet {es es' : List Entity} {s : Snippet}
    (h : t.entities front = es ++ .snippet s :: es') :
    es = (newHeading? front).toList.map .heading ∧
      ∃ e, t.part? front = some e ∧ e.completes? (elements none front) = some s := by
  unfold entities at h
  cases hpart : t.part? front with
  | none =>
    rw [hpart] at h
    dsimp only at h
    have hmem : Entity.snippet s ∈ (t.declaration?.bind Declaration.entity?).toList :=
      h ▸ List.mem_append_right es List.mem_cons_self
    obtain ⟨declaration, -, hentity⟩ := Option.bind_eq_some_iff.mp (Option.mem_toList.mp hmem)
    cases declaration <;> cases hentity
  | some e =>
    rw [hpart] at h
    obtain ⟨es, rfl, hlast⟩ := split_behind (by simp) h
    cases hcompletes : e.completes? (elements none front) with
    | none => simp [hcompletes] at hlast
    | some s' =>
      rw [hcompletes] at hlast
      obtain ⟨rfl, hsame⟩ | ⟨_, -, hnone⟩ := List.cons_eq_append_iff.mp hlast
      · cases hsame
        exact ⟨List.append_nil _, e, rfl, hcompletes⟩
      · simp at hnone

/-- The last heading in front of a snippet in the document is the last one in front of the token that
completes it. -/
theorem getLast?_headings_above {tokens : List Token} {es es' : List Entity} {s : Snippet}
    (h : allEntities tokens = es ++ .snippet s :: es') :
    ∃ front t behind e, tokens = front ++ t :: behind ∧ t.part? front = some e ∧
      e.completes? (elements none front) = some s ∧
      (es.filterMap Entity.heading?).getLast? = (front.filterMap heading?).getLast? := by
  obtain ⟨contexts, ⟨front, t⟩, rest, es₁, es₂, hcontext, hentities, rfl, -⟩ := split_flatMap h
  obtain ⟨rfl, behind, hbehind⟩ := of_inContext_eq hcontext
  obtain ⟨rfl, e, hpart, hcompletes⟩ := entities_eq_snippet hentities
  refine ⟨front, t, behind, e, hbehind, hpart, hcompletes, ?_⟩
  rw [← getLast?_headings, List.filterMap_append]
  cases newHeading? front <;> rfl

/-! ## The lines of snippets -/

theorem line_of_declaration? {declaration : Declaration} (h : t.declaration? = some declaration) :
    ¬ t.IsHeading ∧ t.line = declaration.line := by
  obtain ⟨d, hdirective, hd⟩ := Option.bind_eq_some_iff.mp h
  cases t with
  | heading line content => cases hdirective
  | codeBlock line lang lines => cases hdirective
  | comment line text =>
    refine ⟨nofun, ?_⟩
    cases hparse : Directive.parse line text with
    | error fault => rw [directive?, hparse] at hdirective; cases hdirective
    | ok d? =>
      rw [directive?, hparse] at hdirective
      cases hresult : Declaration.ofDirective d with
      | error fault => rw [hresult] at hd; cases hd
      | ok declaration' =>
        rw [hresult] at hd
        cases hd
        have hline := (Directive.parse_gives line text).2 d? hparse d hdirective
        rw [(Declaration.ofDirective_gives d).2 _ hresult, hline]
        rfl

theorem line_of_awaiting {s : OpenSnippet} (h : awaiting front = some s) :
    ∃ u ∈ front, ¬ u.IsHeading ∧ u.line = s.properties.line := by
  obtain ⟨u, hfind, hwaiting⟩ := Option.bind_eq_some_iff.mp h
  obtain ⟨declaration, hdeclared, hwaiting⟩ := Option.bind_eq_some_iff.mp hwaiting
  refine ⟨u, List.mem_reverse.mp (List.mem_of_find?_eq_some hfind), ?_⟩
  have hline := line_of_declaration? hdeclared
  cases declaration with
  | opened s' =>
    cases hwaiting
    exact hline
  | config line patch => cases hwaiting
  | lineMod m => cases hwaiting
  | closed e => cases hwaiting

/-- A snippet, or part of one, stands on the line of its directive, or else of its code. -/
theorem line_of_part? {e : Element} (h : t.part? front = some e) :
    ∃ u ∈ front ++ [t], ¬ u.IsHeading ∧ u.line = e.properties.line := by
  unfold part? at h
  cases t with
  | heading line content => cases h
  | codeBlock line lang lines =>
    rw [closed?_codeBlock] at h
    cases hwaiting : awaiting front with
    | none =>
      rw [hwaiting] at h
      cases h
      exact ⟨.codeBlock line lang lines, by simp, nofun, rfl⟩
    | some s =>
      rw [hwaiting] at h
      cases h
      obtain ⟨u, hu, hline⟩ := line_of_awaiting hwaiting
      exact ⟨u, List.mem_append_left _ hu, hline⟩
  | comment line text =>
    rw [closed?_of_not_code rfl] at h
    obtain ⟨declaration, hdeclared, hclosed⟩ := Option.bind_eq_some_iff.mp h
    refine ⟨.comment line text, by simp, ?_⟩
    have hline := line_of_declaration? hdeclared
    cases declaration with
    | closed e' =>
      cases hclosed
      exact hline
    | config line patch => cases hclosed
    | lineMod m => cases hclosed
    | opened s => cases hclosed

theorem line_of_mem_elements {tokens : List Token} {e : Element} (h : e ∈ elements none tokens) :
    ∃ u ∈ tokens, ¬ u.IsHeading ∧ u.line = e.properties.line := by
  rw [elements_eq] at h
  obtain ⟨⟨front, t⟩, hcontext, hpart⟩ := List.mem_filterMap.mp h
  obtain ⟨u, hu, hline⟩ := line_of_part? hpart
  exact ⟨u, (prefix_of_mem_inContext hcontext).subset hu, hline⟩

/-- The first part of what a part completes is one of those that are there. -/
theorem first_mem_of_completes? {parts : List Element} {e : Element} {s : Snippet}
    (h : e.completes? parts = some s) : s.first ∈ parts ++ [e] := by
  unfold Element.completes? at h
  split at h
  · cases h
    exact List.mem_append_right parts (List.mem_singleton.mpr rfl)
  · split at h
    · split at h
      · cases h
        exact List.mem_append_right parts (List.mem_singleton.mpr rfl)
      · next number hnumber htotal _ first rest hlast =>
        cases h
        have hmem : first ∈ parts.rtake (number.total - 1) := hlast ▸ List.mem_cons_self
        exact List.mem_append_left _ (List.mem_of_mem_drop hmem)
    · cases h

/-- A snippet stands on the line of a token up to the one that completes it. -/
theorem line_of_completes? {e : Element} {s : Snippet} (hpart : t.part? front = some e)
    (h : e.completes? (elements none front) = some s) :
    ∃ u ∈ front ++ [t], ¬ u.IsHeading ∧ u.line = s.line := by
  have hfirst := first_mem_of_completes? h
  have helements : elements none (front ++ [t]) = elements none front ++ [e] := by
    rw [elements_concat, hpart]
    rfl
  exact line_of_mem_elements (helements ▸ hfirst)

/-! ## Headings and line numbers -/

variable {behind tokens : List Token} {h k : Heading} {u : Token}

theorem exists_of_mem_headings (hk : k ∈ tokens.filterMap heading?) :
    ∃ a ∈ tokens, a.IsHeading ∧ a.line = k.line := by
  obtain ⟨a, ha, hak⟩ := List.mem_filterMap.mp hk
  refine ⟨a, ha, Option.isSome_of_eq_some hak, ?_⟩
  cases a with
  | heading line content =>
    cases hak
    rfl
  | comment line text => cases hak
  | codeBlock line lang lines => cases hak

/-- A heading shares its line with no other token. -/
theorem HeadingsApart.line_ne (h : HeadingsApart tokens) (ht : t ∈ tokens) (hu : u ∈ tokens)
    (hheading : t.IsHeading) (hnone : ¬ u.IsHeading) : t.line ≠ u.line := by
  have hsymm : Std.Symm fun a b : Token => a.IsHeading ∨ b.IsHeading → a.line ≠ b.line :=
    ⟨fun _ _ h halone => (h halone.symm).symm⟩
  have hne : tokens.Pairwise fun a b => a.IsHeading ∨ b.IsHeading → a.line ≠ b.line :=
    List.Pairwise.imp (fun hlt halone => (hlt halone).ne) h
  refine hne.forall ht hu ?_ (.inl hheading)
  rintro rfl
  exact hnone hheading

/-- The last heading has the greatest line number. -/
theorem HeadingsApart.le_last (horder : HeadingsApart tokens)
    (hlast : (tokens.filterMap heading?).getLast? = some h) (hk : k ∈ tokens.filterMap heading?) :
    k.line ≤ h.line := by
  have hascending : (tokens.filterMap heading?).Pairwise fun k k' => k.line < k'.line := by
    refine List.pairwise_filterMap.mpr (List.Pairwise.imp (fun {a b} hlt k hk k' hk' => ?_) horder)
    cases a <;> cases b <;> cases hk <;> cases hk'
    exact hlt (.inl rfl)
  obtain ⟨earlier, hheadings⟩ := List.getLast?_eq_some_iff.mp hlast
  rw [hheadings] at hascending hk
  rcases List.mem_append.mp hk with hk | hk
  · exact ((List.pairwise_append.mp hascending).2.2 k hk h (List.mem_singleton.mpr rfl)).le
  · rw [List.mem_singleton.mp hk]

/-- A heading is the last one in front of a token, or above that one, or below the token and all that
is in front of it. -/
theorem HeadingsApart.places (horder : HeadingsApart (front ++ t :: behind)) (ht : ¬ t.IsHeading)
    (hlast : (front.filterMap heading?).getLast? = some h)
    (hk : k ∈ (front ++ t :: behind).filterMap heading?) :
    k.line ≤ h.line ∨ ∀ u ∈ front ++ [t], u.line < k.line := by
  have hnone : t.heading? = none := Option.not_isSome_iff_eq_none.mp ht
  obtain ⟨hfront, -⟩ := List.pairwise_append.mp horder
  rw [List.filterMap_append, List.filterMap_cons_none hnone] at hk
  rcases List.mem_append.mp hk with hk | hk
  · exact .inl (HeadingsApart.le_last hfront hlast hk)
  · obtain ⟨a, ha, haheading, hline⟩ := exists_of_mem_headings hk
    rw [HeadingsApart, List.append_cons] at horder
    rw [← hline]
    exact .inr fun u hu => (List.pairwise_append.mp horder).2.2 u hu a ha (.inr haheading)

/-- Let `h` be the last heading in front of a token, and let `line` be that of a token up to this one.
The heading is the nearest one above the line if and only if no heading stands between the line and
the token. -/
theorem HeadingsApart.nearest_iff (horder : HeadingsApart (front ++ t :: behind))
    (ht : ¬ t.IsHeading) (hlast : (front.filterMap heading?).getLast? = some h) {line : Nat}
    (hline : ∃ u ∈ front ++ [t], ¬ u.IsHeading ∧ u.line = line) :
    (h.line < line ∧ ∀ k ∈ (front ++ t :: behind).filterMap heading?,
        ¬ (h.line < k.line ∧ k.line < line)) ↔
      ∀ k ∈ (front ++ t :: behind).filterMap heading?, ¬ (line < k.line ∧ k.line < t.line) := by
  obtain ⟨u, hu, hunone, rfl⟩ := hline
  have hplaces : ∀ k ∈ (front ++ t :: behind).filterMap heading?,
      k.line ≤ h.line ∨ t.line < k.line ∧ u.line < k.line := fun k hk =>
    (horder.places ht hlast hk).imp_right fun hbelow => ⟨hbelow t (by simp), hbelow u hu⟩
  have hh : h ∈ front.filterMap heading? := List.mem_of_getLast? hlast
  obtain ⟨a, ha, haheading, hah⟩ := exists_of_mem_headings hh
  have hlt : h.line < t.line := by
    rw [← hah]
    exact (List.pairwise_append.mp horder).2.2 a ha t List.mem_cons_self (.inl haheading)
  have hne : h.line ≠ u.line := by
    rw [← hah]
    refine horder.line_ne (List.mem_append_left _ ha) ?_ haheading hunone
    rw [List.append_cons]
    exact List.mem_append_left behind hu
  constructor
  · rintro ⟨habove, -⟩ k hk hbetween
    have hplace := hplaces k hk
    omega
  · intro hnone
    have hnot := hnone h (by rw [List.filterMap_append]; exact List.mem_append_left _ hh)
    refine ⟨by omega, fun k hk hbetween => ?_⟩
    have hplace := hplaces k hk
    omega

end Token

/-! ## The heading that is held back by the run -/

theorem getLast?_of_pending? {history : List (Entity × List Event)} {h : Heading}
    (hpending : pending? history = some h) :
    ((history.map Prod.fst).filterMap Entity.heading?).getLast? = some h := by
  induction history using List.reverseRecOn with
  | nil => cases hpending
  | append_singleton history last ih =>
    obtain ⟨e, block⟩ := last
    rw [pending?_concat, leftHeading] at hpending
    rw [List.map_append, List.filterMap_append, List.getLast?_append]
    cases he : e.heading? with
    | some h' =>
      rw [he] at hpending
      simpa [he] using hpending
    | none =>
      rw [he] at hpending
      split at hpending
      · cases hpending
      · simpa [he] using ih hpending

section Run

variable {σ : Type} {d : Document} {host : Host σ} {config : Config} {w₀ w : World σ}

/-- The event says what became of a snippet that was run, when the run got to it. -/
def OutcomeOf (d : Document) (host : Host σ) (config : Config) (w₀ : World σ) (s : Snippet)
    (event : Event) : Prop :=
  ∃ i st v, d.RunsTo host config w₀ i st v ∧ d.entities[i]? = some (.snippet s) ∧
    s.isRun d.hasOnly = true ∧
    Event.ofResult? s.line (((st.scope d).handle host s).run v).1 = some event

theorem OutcomeOf.line_of_success {s : Snippet} {line : Nat} {summary : String}
    (h : OutcomeOf d host config w₀ s (.success line summary)) : s.line = line := by
  obtain ⟨i, st, v, -, -, -, hevent⟩ := h
  unfold Event.ofResult? at hevent
  split at hevent <;> cases hevent
  rfl

/-- A heading that an entity adds is the one that was held back, above the outcome of a snippet. -/
theorem Adds.heading_eq {st : RunState} {heading : Option Heading} {e : Entity}
    {block before after : List Event} {h : Heading}
    (hadds : Adds d host st w heading e block) (hblock : block = before ++ .heading h :: after) :
    heading = some h ∧ before = [] ∧ ∃ s event, e = .snippet s ∧ after = [event] ∧
      s.isRun d.hasOnly = true ∧
      Event.ofResult? s.line (((st.scope d).handle host s).run w).1 = some event := by
  have hmem : .heading h ∈ block := hblock ▸ List.mem_append_right before List.mem_cons_self
  cases hadds with
  | heading _ | lineMod _ | accepted _ | notRun _ | idle _ _ => cases hmem
  | rejected _ _ => simp at hmem
  | @outcome s event hrun hevent =>
    have hnone : .heading h ≠ event := by
      rintro rfl
      exact Event.isOutcome_of_ofResult? hevent
    obtain ⟨_, rfl, hheading⟩ := split_before (by simpa using hnone) hblock
    cases heading with
    | none => simp at hheading
    | some h' =>
      obtain ⟨rfl, hsame⟩ | ⟨_, -, hempty⟩ := List.cons_eq_append_iff.mp hheading
      · cases hsame
        exact ⟨rfl, rfl, s, event, rfl, rfl, hrun, hevent⟩
      · simp at hempty

/-- **A heading in the log.** -/
theorem block_of_heading {report : Report} {before after : List Event} {h : Heading} {event : Event}
    (hrun : d.run host config w₀ = (.ok report, w))
    (hlog : report.events = before ++ .heading h :: event :: after) :
    ∃ es es' s, d.entities = es ++ .snippet s :: es' ∧ OutcomeOf d host config w₀ s event ∧
      (es.filterMap Entity.heading?).getLast? = some h := by
  obtain ⟨history, hentities, hevents, hhistory, -⟩ := run_log hrun
  rw [hlog] at hevents
  obtain ⟨between, hafter, hevents⟩ := split_before (by simp) hevents.symm
  obtain ⟨_, -, hadded⟩ := split_behind (by simp) hevents
  obtain ⟨front, ⟨e, block⟩, rest, bs₁, bs₂, rfl, hblock, -, rfl⟩ := split_flatMap hadded
  obtain ⟨st, v, hruns, hadds⟩ := hhistory front e block rest rfl
  obtain ⟨hpending, -, s, event', rfl, rfl, hrun, hevent⟩ := hadds.heading_eq hblock
  obtain ⟨rfl, -⟩ := List.cons.inj hafter
  rw [List.map_append, List.map_cons] at hentities
  refine ⟨_, _, s, hentities.symm, ⟨_, st, v, hruns, ?_, hrun, hevent⟩,
    getLast?_of_pending? hpending⟩
  rw [← hentities]
  simp

/-- **The heading above an outcome.** In the log of a document that was read from a source, the event
behind a heading is the outcome of a snippet. Some token completes this snippet, and the heading is the
last one in front of this token. Where every carriage return is part of a line end with a newline, it is
the nearest heading above the snippet, and stands above it, if and only if no heading stands between the
line of the snippet and this token. -/
theorem run_heading_nearest {source : String} {report : Report} {before after : List Event}
    {h : Heading} {event : Event} (hparse : Document.parse source = .ok d)
    (hrun : d.run host config w₀ = (.ok report, w))
    (hlog : report.events = before ++ .heading h :: event :: after) :
    ∃ tokens front t behind s, Token.ofSource source = .ok tokens ∧ tokens = front ++ t :: behind ∧
      Entity.snippet s ∈ t.entities front ∧ OutcomeOf d host config w₀ s event ∧
      (front.filterMap Token.heading?).getLast? = some h ∧
      (Source.NoLoneReturn source.toList →
        ((h.line < s.line ∧
            ∀ k ∈ tokens.filterMap Token.heading?, ¬ (h.line < k.line ∧ k.line < s.line)) ↔
          ∀ k ∈ tokens.filterMap Token.heading?, ¬ (s.line < k.line ∧ k.line < t.line))) := by
  obtain ⟨tokens, es, htokens, hes, rfl⟩ := Document.tokens_of_parse hparse
  obtain ⟨front, behind, s, hentities, houtcome, hlast⟩ := block_of_heading hrun hlog
  rw [Document.entities_ofEntities, (ofTokens_accounted hes).1] at hentities
  obtain ⟨front, t, behind, e, hsplit, hpart, hcompletes, habove⟩ :=
    Token.getLast?_headings_above hentities
  rw [hlast] at habove
  refine ⟨tokens, front, t, behind, s, htokens, hsplit, ?_, houtcome, habove.symm, fun hreturns => ?_⟩
  · simp [Token.entities, hpart, hcompletes]
  · have ht : ¬ t.IsHeading := fun hheading => by
      obtain ⟨k, hk⟩ := Option.isSome_iff_exists.mp hheading
      rw [Token.part?_of_heading hk] at hpart
      cases hpart
    have hapart := Token.headingsApart_of_ofSource htokens hreturns
    rw [hsplit] at hapart ⊢
    exact hapart.nearest_iff ht habove.symm (Token.line_of_completes? hpart hcompletes)

end Run

/-- A world in which commands succeed and put out nothing. -/
def quiet : World Script := ⟨⟨[], [], [], []⟩, []⟩

/-- The log of the document that a source is, run in the quiet world. -/
def quietLog? (source : String) : Option (List Event) :=
  (Document.parse source).toOption.bind fun d =>
    (d.run Script.host .builtin quiet).1.toOption.map (·.events)

theorem run_of_quietLog? {source : String} {log : List Event} (h : quietLog? source = some log) :
    ∃ d report w, Document.parse source = .ok d ∧
      d.run Script.host .builtin quiet = (.ok report, w) ∧ report.events = log := by
  obtain ⟨d, hd, h⟩ := Option.bind_eq_some_iff.mp h
  obtain ⟨report, hreport, hlog⟩ := Option.map_eq_some_iff.mp h
  cases hparse : Document.parse source with
  | error faults => rw [hparse] at hd; cases hd
  | ok d' =>
    rw [hparse] at hd
    cases hd
    cases hrun : d.run Script.host .builtin quiet with
    | mk result w =>
      rw [hrun] at hreport
      cases result with
      | error a => cases hreport
      | ok report' =>
        cases hreport
        exact ⟨d, report, w, rfl, hrun, hlog⟩

/-- A snippet and a sequence in two parts, each under a heading of its own. -/
def partsTogether : String :=
  "# One\n\n```sh\na\n```\n\n# Two\n\n<!--markcheck sequence=\"1/2\"-->\n```sh\nb\n```\n\n" ++
    "<!--markcheck sequence=\"2/2\"-->\n```sh\nc\n```\n"

theorem run_heading_nearest_partsTogether :
    ∃ d report w s, Document.parse partsTogether = .ok d ∧
      d.run Script.host .builtin quiet = (.ok report, w) ∧
      report.events = [.heading ⟨1, "One"⟩, .success 3 "ran main.sh"] ++
        .heading ⟨7, "Two"⟩ :: .success 9 "ran main.sh" :: [] ∧
      Source.NoLoneReturn partsTogether.toList ∧
      OutcomeOf d Script.host .builtin quiet s (.success 9 "ran main.sh") ∧ 7 < s.line ∧
      ∀ k ∈ [(⟨1, "One"⟩ : Heading), ⟨7, "Two"⟩], ¬ (7 < k.line ∧ k.line < s.line) := by
  have hquiet : quietLog? partsTogether = some ([.heading ⟨1, "One"⟩, .success 3 "ran main.sh"] ++
      .heading ⟨7, "Two"⟩ :: .success 9 "ran main.sh" :: []) := by
    decide +kernel
  have hreturns : Source.NoLoneReturn partsTogether.toList := fun place hplace =>
    absurd (List.mem_of_getElem? hplace) (by decide +kernel)
  have hheadings : (Token.ofSource partsTogether).toOption.map (·.filterMap Token.heading?) =
      some [⟨1, "One"⟩, ⟨7, "Two"⟩] := by
    decide +kernel
  obtain ⟨d, report, w, hparse, hrun, hlog⟩ := run_of_quietLog? hquiet
  obtain ⟨tokens, front, t, behind, s, htokens, -, -, houtcome, -, hiff⟩ :=
    run_heading_nearest hparse hrun hlog
  rw [htokens] at hheadings
  have hline := houtcome.line_of_success
  rw [show tokens.filterMap Token.heading? = _ from Option.some.inj hheadings] at hiff
  obtain ⟨habove, hnone⟩ := (hiff hreturns).mpr (by simp [hline])
  exact ⟨d, report, w, s, hparse, hrun, hlog, hreturns, houtcome, habove, hnone⟩

/-- A sequence in two parts with a heading between them. -/
def partsApart : String :=
  "# One\n\n<!--markcheck sequence=\"1/2\"-->\n```sh\na\n```\n\n# Two\n\n" ++
    "<!--markcheck sequence=\"2/2\"-->\n```sh\nb\n```\n"

/-- **A heading inside a snippet hides the one above it.** The outcome of the sequence stands under the
heading between its parts, which is below the line of the sequence. The nearest heading above that line
is another one. -/
theorem heading_inside_snippet :
    ∃ d report w s, Document.parse partsApart = .ok d ∧
      d.run Script.host .builtin quiet = (.ok report, w) ∧
      report.events = [.heading ⟨8, "Two"⟩, .success 3 "ran main.sh"] ∧
      OutcomeOf d Script.host .builtin quiet s (.success 3 "ran main.sh") ∧
      s.line = 3 ∧ ¬ 8 < s.line ∧
      (Token.ofSource partsApart).toOption.map (·.filterMap Token.heading?) =
        some [⟨1, "One"⟩, ⟨8, "Two"⟩] := by
  have hquiet : quietLog? partsApart =
      some ([] ++ .heading ⟨8, "Two"⟩ :: .success 3 "ran main.sh" :: []) := by
    decide +kernel
  obtain ⟨d, report, w, hparse, hrun, hlog⟩ := run_of_quietLog? hquiet
  obtain ⟨_, _, s, -, houtcome, -⟩ := block_of_heading hrun hlog
  have hline := houtcome.line_of_success
  exact ⟨d, report, w, s, hparse, hrun, hlog, houtcome, hline, by omega, by decide +kernel⟩

/-- A carriage return ends the line of a heading, but line numbers do not count it. -/
example : quietLog? "# One\r```sh\na\n```\n" =
    some [.heading ⟨1, "One"⟩, .success 1 "ran main.sh"] := by
  decide +kernel

end Doctest
