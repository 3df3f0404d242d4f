import Doctest.Proofs.DistinctIds
import Doctest.Proofs.References
import Mathlib.Data.List.Nodup

/-!
# Warnings about unused IDs

A document is searched for IDs that no attribute refers to before anything is known about its run. The
search is compared here with the declared IDs, with what the attributes refer to and with the IDs that
a run looks up.

* `mem_snippetReferences`, `mem_lineModReferences`: the search collects what `RefersTo` says.
* `mem_unusedIds_iff`: there are warnings for the declared IDs that nothing refers to, and no others.
* `notedRun_follows`: a run looks up only what some attribute refers to.
* `run_eq_of_lookups`: what a run notes decides it, so no lookup is missing from its notes.
* `unusedIds_exact`: all of it, for every document and every run of it.
-/

namespace Doctest

namespace IdKind

/-- What is said about an ID that nothing refers to. -/
def unusedText : IdKind → String → String
  | .snippet, id => s!"Unused snippet ID `{id}`"
  | .lineMod, id => s!"Unused `lineModId` `{id}`"

/-- The two texts differ in their eighth character, whatever the ID is. -/
theorem unusedText_mark (kind : IdKind) (id : String) :
    (kind.unusedText id).toList[7]? = some 's' ↔ kind = .snippet := by
  have hmark : ∀ label : String, 7 < label.toList.length →
      (label ++ id ++ "`").toList[7]? = label.toList[7]? := by
    intro label hlength
    rw [String.toList_append, String.toList_append, List.append_assoc,
      List.getElem?_append_left hlength]
  cases kind with
  | snippet =>
    have h := hmark "Unused snippet ID `" (by decide)
    exact iff_of_true (h.trans (by decide)) rfl
  | lineMod =>
    have h := hmark "Unused `lineModId` `" (by decide)
    refine iff_of_false (fun hs => ?_) (by decide)
    exact absurd (h.symm.trans hs) (by decide)

/-- The text says what ID it is about. -/
theorem unusedText_inj {kind kind' : IdKind} {id id' : String} :
    kind.unusedText id = kind'.unusedText id' ↔ kind = kind' ∧ id = id' := by
  constructor
  · intro h
    have hkind : kind = .snippet ↔ kind' = .snippet := by
      rw [← unusedText_mark kind id, ← unusedText_mark kind' id', h]
    have hid : ∀ label : String, label ++ id ++ "`" = label ++ id' ++ "`" → id = id' :=
      fun label heq => by simpa using heq
    cases kind <;> cases kind' <;> simp at hkind
    · exact ⟨rfl, hid "Unused snippet ID `" h⟩
    · exact ⟨rfl, hid "Unused `lineModId` `" h⟩
  · rintro ⟨rfl, rfl⟩
    rfl

end IdKind

/-! ## Reports without their warnings -/

def Event.isWarning : Event → Bool
  | .warning _ => true
  | .heading _ | .success .. | .failure _ | .fault _ => false

/-- The report as if there had been no warnings. -/
def Report.withoutWarnings (r : Report) : Report where
  events := r.events.filter fun e => !e.isWarning
  counts := { r.counts with warnings := 0 }

theorem Report.withoutWarnings_recordAll (r : Report) (ws : List Warning) :
    (r.recordAll (ws.map .warning)).withoutWarnings = r.withoutWarnings := by
  induction ws generalizing r with
  | nil => rfl
  | cons w ws ih =>
    refine (ih (r.record (.warning w))).trans ?_
    simp [withoutWarnings, record, Counts.record, List.filter_append, Event.isWarning]

namespace Document

/-! ## What is collected -/

theorem mem_snippetReferences {p : Properties} {id : String} :
    id ∈ snippetReferences p ↔ p.RefersTo .snippet id := by
  unfold snippetReferences
  simp only [List.mem_append, List.mem_filter, List.mem_filterMap, List.mem_map, Option.mem_toList,
    decide_eq_true_iff]
  constructor
  · rintro (((⟨h, hmark⟩ | h) | ⟨external, h, hid⟩) | ⟨content, h | h, rfl⟩)
    · exact .includes h hmark
    · exact .sameAs h
    · exact .external h hid
    · exact .stdout h
    · exact .stderr h
  · intro h
    cases h with
    | includes h hmark => exact .inl (.inl (.inl ⟨h, hmark⟩))
    | sameAs h => exact .inl (.inl (.inr h))
    | external h hid => exact .inl (.inr ⟨_, h, hid⟩)
    | stdout h => exact .inr ⟨_, .inl h, rfl⟩
    | stderr h => exact .inr ⟨_, .inr h, rfl⟩

theorem mem_lineModReferences {p : Properties} {id : String} :
    id ∈ lineModReferences p ↔ p.RefersTo .lineMod id := by
  unfold lineModReferences
  simp only [List.mem_append, List.mem_filterMap, Option.mem_toList]
  constructor
  · rintro ((h | h) | ⟨content, h | h, hid⟩)
    · exact .applyToBody h
    · exact .applyToOuter h
    · exact .editStdout h hid
    · exact .editStderr h hid
  · intro h
    cases h with
    | applyToBody h => exact .inl (.inl h)
    | applyToOuter h => exact .inl (.inr h)
    | editStdout h hid => exact .inr ⟨_, .inl h, hid⟩
    | editStderr h hid => exact .inr ⟨_, .inr h, hid⟩

variable {d : Document}

/-- What is collected from all parts of all snippets. -/
theorem mem_flatMap_allProperties {references : Properties → List String} {kind : IdKind}
    (href : ∀ p id, id ∈ references p ↔ p.RefersTo kind id) {id : String} :
    id ∈ d.allProperties.flatMap references ↔ d.RefersTo kind id := by
  unfold allProperties RefersTo Snippet.RefersTo
  simp only [List.mem_flatMap, List.mem_map, href]
  constructor
  · rintro ⟨p, ⟨s, hs, e, he, rfl⟩, h⟩
    exact ⟨s, hs, e, he, h⟩
  · rintro ⟨s, hs, e, he, h⟩
    exact ⟨_, ⟨s, hs, e, he, rfl⟩, h⟩

/-! ## The warnings -/

/-- The line of what an ID stands for. -/
def declaredLine? (d : Document) : IdKind → String → Option Nat
  | .snippet, id => (d.snippet? id).map Snippet.line
  | .lineMod, id => (d.lineMod? id).map LineMod.line

/-- The warnings for the entries of an index whose IDs are not used. -/
def warningsFor {α : Type} (kind : IdKind) (line : α → Nat) (index : Keyed α)
    (used : List String) : List Warning :=
  (index.entries.filter fun (id, _) => !used.contains id).map
    fun (id, a) => ⟨line a, kind.unusedText id⟩

theorem mem_warningsFor {α : Type} {kind : IdKind} {line : α → Nat} {index : Keyed α}
    {used : List String} {warning : Warning} :
    warning ∈ warningsFor kind line index used ↔
      ∃ id a, index.get? id = some a ∧ id ∉ used ∧ warning = ⟨line a, kind.unusedText id⟩ := by
  unfold warningsFor Keyed.get?
  simp only [List.mem_map, List.mem_filter, Prod.exists, Keyed.lookup_eq_some_iff index.ascending]
  constructor
  · rintro ⟨id, a, ⟨hmem, hunused⟩, rfl⟩
    exact ⟨id, a, hmem, by simpa using hunused, rfl⟩
  · rintro ⟨id, a, hmem, hunused, rfl⟩
    exact ⟨id, a, ⟨hmem, by simpa using hunused⟩, rfl⟩

theorem messages_warningsFor {α : Type} (kind : IdKind) (line : α → Nat) (index : Keyed α)
    (used : List String) :
    (warningsFor kind line index used).map (·.message) =
      (index.keys.filter fun id => !used.contains id).map kind.unusedText := by
  unfold warningsFor Keyed.keys
  rw [List.map_map, List.filter_map, List.map_map]
  rfl

theorem unusedIds_eq (d : Document) :
    d.unusedIds =
      (warningsFor .snippet Snippet.line d.snippetsById (d.allProperties.flatMap snippetReferences) ++
        warningsFor .lineMod LineMod.line d.lineModsById
          (d.allProperties.flatMap lineModReferences)).mergeSort fun a b => a.line ≤ b.line :=
  rfl

/-- **The warnings are about the unused IDs.** -/
theorem mem_unusedIds_iff {warning : Warning} :
    warning ∈ d.unusedIds ↔
      ∃ kind id line, d.declaredLine? kind id = some line ∧ ¬ d.RefersTo kind id ∧
        warning = ⟨line, kind.unusedText id⟩ := by
  rw [unusedIds_eq, List.mem_mergeSort, List.mem_append, mem_warningsFor, mem_warningsFor]
  simp only [mem_flatMap_allProperties fun _ _ => mem_snippetReferences,
    mem_flatMap_allProperties fun _ _ => mem_lineModReferences]
  constructor
  · rintro (⟨id, s, hs, hunused, rfl⟩ | ⟨id, m, hm, hunused, rfl⟩)
    · exact ⟨.snippet, id, _, congrArg (Option.map _) hs, hunused, rfl⟩
    · exact ⟨.lineMod, id, _, congrArg (Option.map _) hm, hunused, rfl⟩
  · rintro ⟨kind, id, line, hline, hunused, rfl⟩
    cases kind with
    | snippet =>
      obtain ⟨s, hs, rfl⟩ := Option.map_eq_some_iff.mp hline
      exact .inl ⟨id, s, hs, hunused, rfl⟩
    | lineMod =>
      obtain ⟨m, hm, rfl⟩ := Option.map_eq_some_iff.mp hline
      exact .inr ⟨id, m, hm, hunused, rfl⟩

/-- No ID is warned about twice. -/
theorem nodup_messages_unusedIds (d : Document) : (d.unusedIds.map (·.message)).Nodup := by
  have hperm := (List.mergeSort_perm (warningsFor .snippet Snippet.line d.snippetsById
      (d.allProperties.flatMap snippetReferences) ++
    warningsFor .lineMod LineMod.line d.lineModsById (d.allProperties.flatMap lineModReferences))
    fun a b => a.line ≤ b.line).map (·.message)
  have hkind : ∀ (kind : IdKind) {keys : List String}, keys.Nodup →
      (keys.map kind.unusedText).Nodup := fun kind keys hkeys =>
    hkeys.map fun id id' h => (IdKind.unusedText_inj.mp h).2
  rw [unusedIds_eq, hperm.nodup_iff, List.map_append, messages_warningsFor, messages_warningsFor]
  refine List.Nodup.append (hkind _ (d.snippetsById.nodup_keys.filter _))
    (hkind _ (d.lineModsById.nodup_keys.filter _)) ?_
  intro message hsnippet hlineMod
  obtain ⟨id, -, rfl⟩ := List.mem_map.mp hsnippet
  obtain ⟨id', -, h⟩ := List.mem_map.mp hlineMod
  cases (IdKind.unusedText_inj.mp h).1

theorem sorted_unusedIds (d : Document) : d.unusedIds.Pairwise fun a b => a.line ≤ b.line := by
  rw [unusedIds_eq]
  have hsorted := @List.pairwise_mergeSort _ (fun a b : Warning => decide (a.line ≤ b.line))
    (fun a b c hab hbc => by simpa using le_trans (of_decide_eq_true hab) (of_decide_eq_true hbc))
    (fun a b => by simpa using le_total a.line b.line)
    (warningsFor .snippet Snippet.line d.snippetsById (d.allProperties.flatMap snippetReferences) ++
      warningsFor .lineMod LineMod.line d.lineModsById (d.allProperties.flatMap lineModReferences))
  simpa only [decide_eq_true_eq] using hsorted

/-! ## What is looked up -/

/-- A document agrees with itself on what it refers to. -/
theorem agree_refersTo (es : List Entity) :
    (ofEntities es).Agree (fun _ _ => True) (ofEntities es).RefersTo (ofEntities es) where
  hasOnly := rfl
  alike _ _ := Alike.rfl
  closed _ ht _ _ href := ⟨_, (snippet?_spec ht).1, href⟩

variable {σ : Type}

/-- A run that notes its lookups is the run of the document, and all IDs that it looks up are referred
to by some attribute. -/
theorem notedRun_follows (es : List Entity) (host : Host σ) (config : Config) :
    NotedStep.Follows ((ofEntities es).notedRun host config) ((ofEntities es).run host config)
      (fun _ _ => True) (ofEntities es).RefersTo := by
  have hwithin : ∀ e ∈ (ofEntities es).entities, ∀ s ∈ entitySnippets e,
      s.Within (ofEntities es).RefersTo := by
    intro e he s hs kind id href
    rw [entities_ofEntities] at he
    refine ⟨s, ?_, href⟩
    rw [snippets_ofEntities]
    exact List.mem_flatMap_of_mem he hs
  refine NotedStep.Follows.bind (notedVisitAll_follows (agree_refersTo es) host hwithin _) ?_
  intro result
  cases result with
  | ok st => exact NotedStep.Follows.pure _
  | error a => exact NotedStep.Follows.pure _

/-! ## What decides a run -/

theorem run_of_visitAll {d : Document} {host : Host σ} {config : Config} {w v : World σ}
    {result : Except Abort RunState}
    (h : RunState.visitAll d host (.start d config) d.entities w = (result, v)) :
    d.run host config w =
      (result.map fun st => st.report.recordAll (d.unusedIds.map .warning), v) := by
  unfold run
  rw [bind_apply h]
  cases result <;> rfl

/-- Runs whose visits come to the same come to the same, whatever they warn about. -/
theorem run_eq_of_visitAll {d d' : Document} {host : Host σ} {config : Config} {w : World σ}
    (h : RunState.visitAll d' host (.start d' config) d'.entities w =
      RunState.visitAll d host (.start d config) d.entities w) :
    (d'.run host config w).2 = (d.run host config w).2 ∧
      (d'.run host config w).1.map Report.withoutWarnings =
        (d.run host config w).1.map Report.withoutWarnings := by
  cases hall : RunState.visitAll d host (.start d config) d.entities w with
  | mk result v =>
    rw [run_of_visitAll hall, run_of_visitAll (h.trans hall)]
    refine ⟨rfl, ?_⟩
    cases result with
    | error a => rfl
    | ok st =>
      exact congrArg Except.ok ((st.report.withoutWarnings_recordAll _).trans
        (st.report.withoutWarnings_recordAll _).symm)

theorem lookups_notedRun (d : Document) (host : Host σ) (config : Config) (w : World σ) :
    (d.notedRun host config w).lookups =
      (RunState.notedVisitAll d host (.start d config) d.entities w).lookups := by
  unfold notedRun
  change (RunState.notedVisitAll d host (.start d config) d.entities w).lookups ++ _ = _
  refine List.append_right_eq_self.mpr ?_
  -- Nothing is looked up behind the visits, whatever they came to.
  obtain ⟨⟨result, v⟩, lookups⟩ := RunState.notedVisitAll d host (.start d config) d.entities w
  cases result <;> rfl

/-- A run is decided by what it notes. An index in which all of that comes to the same leads to the same
run, whatever else is in it. -/
theorem run_eq_of_lookups (d d' : Document) (hentities : d'.entities = d.entities)
    (honly : d'.hasOnly = d.hasOnly) (hfaults : d'.indexFaults = d.indexFaults) (host : Host σ)
    (config : Config) (w : World σ)
    (halike : ∀ l ∈ (d.notedRun host config w).lookups, d'.Alike d l.kind l.id) :
    (d'.run host config w).2 = (d.run host config w).2 ∧
      (d'.run host config w).1.map Report.withoutWarnings =
        (d.run host config w).1.map Report.withoutWarnings := by
  have hagree : d'.Agree (d'.Alike d) (fun _ _ => True) d :=
    ⟨honly.symm, fun ha _ => ha, fun _ _ _ _ _ => trivial⟩
  have hwithin : ∀ e ∈ d.entities, ∀ s ∈ entitySnippets e, s.Within fun _ _ => True :=
    fun _ _ _ _ _ _ _ => trivial
  rw [lookups_notedRun] at halike
  have hother := (notedVisitAll_follows hagree host hwithin _ w halike).1
  rw [notedVisitAll_value] at hother
  have hstart : RunState.start d' config = .start d config := by
    unfold RunState.start
    rw [hfaults]
  refine run_eq_of_visitAll ?_
  rw [hentities, hstart, hother]

/-- **Unused IDs.** The warnings are sorted by line. There is one for each declared ID that no
attribute refers to, at the line of its declaration, and no other. A run notes its lookups without
changing anything, and it notes all of them: where these come to the same in another index, the run does,
its warnings aside. No ID that it looks up with success is warned about as one of its kind. -/
theorem unusedIds_exact (es : List Entity) :
    let d := ofEntities es
    (d.unusedIds.Pairwise fun a b => a.line ≤ b.line) ∧
      (d.unusedIds.map (·.message)).Nodup ∧
      (∀ warning, warning ∈ d.unusedIds ↔
        ∃ kind id line, d.declaredLine? kind id = some line ∧ ¬ d.RefersTo kind id ∧
          warning = ⟨line, kind.unusedText id⟩) ∧
      ∀ {σ : Type} (host : Host σ) (config : Config) (w : World σ),
        (d.notedRun host config w).value = d.run host config w ∧
        (∀ (snippets : Keyed Snippet) (lineMods : Keyed LineMod),
          let d' := { d with snippetsById := snippets, lineModsById := lineMods }
          (∀ l ∈ (d.notedRun host config w).lookups, d'.Alike d l.kind l.id) →
          (d'.run host config w).2 = (d.run host config w).2 ∧
            (d'.run host config w).1.map Report.withoutWarnings =
              (d.run host config w).1.map Report.withoutWarnings) ∧
        ∀ l ∈ (d.notedRun host config w).lookups, l.found = true →
          ∀ warning ∈ d.unusedIds, warning.message ≠ l.kind.unusedText l.id := by
  intro d
  refine ⟨sorted_unusedIds d, nodup_messages_unusedIds d, fun _ => mem_unusedIds_iff, ?_⟩
  intro σ host config w
  obtain ⟨hvalue, hlookups⟩ := notedRun_follows es host config w fun _ _ => trivial
  refine ⟨hvalue, fun snippets lineMods => ?_, ?_⟩
  · intro d'
    exact run_eq_of_lookups d d' rfl rfl rfl host config w
  · intro l hl _ warning hwarning hmessage
    obtain ⟨kind, id, line, -, hunused, rfl⟩ := mem_unusedIds_iff.mp hwarning
    obtain ⟨rfl, rfl⟩ := IdKind.unusedText_inj.mp hmessage
    exact hunused (hlookups l hl)

/-- A snippet that is never run, one that includes it and edits its own lines, and one that nothing
refers to. -/
def unusedExample : List Entity := [
  .lineMod { LineMod.plain 1 (.appliable "indent") with before := ["begin"] },
  .snippet (.single ⟨{ Properties.bare 5 "sh" with id := some "setup", mode := .skip }, ["cd /"]⟩),
  .snippet (.single ⟨{ Properties.bare 9 "sh" with id := some "old", mode := .skip }, []⟩),
  .snippet (.single ⟨{ Properties.bare 13 "sh" with
    includes := ["setup"], applyToBody := some "indent" }, ["ls"]⟩)]

/-- The run looks up what it includes and what edits its lines, so the index needs no other entries. -/
theorem unusedIds_exact_unusedExample :
    let d := ofEntities unusedExample
    let w : World Script := ⟨⟨[], [], [], []⟩, []⟩
    let run := d.notedRun Script.host .builtin w
    let setup := Keyed.ofList [("setup", .single ⟨{ Properties.bare 5 "sh" with
      id := some "setup", mode := .skip }, ["cd /"]⟩)]
    let d' := { d with snippetsById := setup }
    d.unusedIds = [⟨9, "Unused snippet ID `old`"⟩] ∧ d'.unusedIds = [] ∧
      run.lookups = [⟨.lineMod, "indent", true⟩, ⟨.snippet, "setup", true⟩] ∧
      (∀ l ∈ run.lookups, d'.Alike d l.kind l.id) ∧
      (d'.run Script.host .builtin w).1.map Report.withoutWarnings =
        (d.run Script.host .builtin w).1.map Report.withoutWarnings ∧
      ∀ warning ∈ d.unusedIds, warning.message ≠ IdKind.unusedText .snippet "setup" := by
  intro d w run setup d'
  have hlookups : run.lookups = [⟨.lineMod, "indent", true⟩, ⟨.snippet, "setup", true⟩] := by
    decide +kernel
  have hsetup : ⟨.snippet, "setup", true⟩ ∈ run.lookups := by
    rw [hlookups]
    exact List.mem_cons_of_mem _ List.mem_cons_self
  have halike : ∀ l ∈ run.lookups, d'.Alike d l.kind l.id := by
    rw [hlookups]
    have hsame : d.snippet? "setup" = d'.snippet? "setup" := by rfl
    have hsome : d'.snippet? "setup" ≠ none := Option.some_ne_none _
    exact List.forall_mem_cons.mpr ⟨⟨rfl, fun _ => rfl⟩,
      List.forall_mem_singleton.mpr ⟨hsame, fun hnone => absurd hnone hsome⟩⟩
  obtain ⟨-, -, -, hruns⟩ := unusedIds_exact unusedExample
  obtain ⟨-, hdecided, hfound⟩ := hruns Script.host .builtin w
  exact ⟨by decide +kernel, by decide +kernel, hlookups, halike,
    (hdecided setup d.lineModsById halike).2, hfound _ hsetup rfl⟩

end Document

end Doctest
