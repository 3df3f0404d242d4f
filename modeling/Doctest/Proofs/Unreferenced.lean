import Doctest.Proofs.UnusedIds

/-!
# Snippets that nothing refers to

A snippet that is never run on its own and that no other snippet refers to does nothing. Without it
the entities behind it move up and the index is filled anew. Still every lookup of the other snippets
comes to the same, and so does the run.

* `agree_of_unreferenced`: all IDs but the snippet's own stand for the same without it.
* `visitAll_eq_of_agree`: documents that agree are run alike.
* `run_without_unreferenced`: the same calls and the same report, its warnings aside.
-/

namespace Doctest

namespace Document

/-! ## Documents that agree -/

section Agree

variable {σ : Type} {P : IdKind → String → Prop} {d d' : Document}

/-- Documents that agree are run alike: a run of the second one that notes its lookups follows the
runs of both. -/
theorem visitAll_eq_of_agree (h : d.Agree (fun _ _ => True) P d') (host : Host σ) {es : List Entity}
    (hes : ∀ e ∈ es, ∀ s ∈ entitySnippets e, s.Within P) (st : RunState) :
    st.visitAll d' host es = st.visitAll d host es := by
  funext w
  have hother := (notedVisitAll_follows h host hes st w fun _ _ => trivial).1
  exact (notedVisitAll_value d' host es st w).symm.trans hother

end Agree

/-! ## A snippet that is left out -/

section Without

variable {σ : Type} {before after : List Entity} {s : Snippet} {x : String}

theorem snippets_insert (before after : List Entity) (s : Snippet) :
    (ofEntities (before ++ .snippet s :: after)).snippets =
      (ofEntities before).snippets ++ s :: (ofEntities after).snippets := by
  simp only [snippets_ofEntities, List.flatMap_append, List.flatMap_cons, entitySnippets,
    List.singleton_append]

theorem snippets_append (before after : List Entity) :
    (ofEntities (before ++ after)).snippets =
      (ofEntities before).snippets ++ (ofEntities after).snippets := by
  simp only [snippets_ofEntities, List.flatMap_append]

/-- An ID that is not the snippet's own stands for the same without it. -/
theorem snippet?_without (hid : s.id = some x) {id : String} (hne : id ≠ x) :
    (ofEntities (before ++ after)).snippet? id =
      (ofEntities (before ++ .snippet s :: after)).snippet? id := by
  have hs : ¬ s.id = some id := by
    rw [hid]
    rintro ⟨⟩
    exact hne rfl
  rw [snippet?_ofEntities, snippet?_ofEntities, snippets_insert, snippets_append,
    List.find?_append, List.find?_append, List.find?_cons_of_neg (by simpa using hs)]

theorem lineMod?_without (id : String) :
    (ofEntities (before ++ after)).lineMod? id =
      (ofEntities (before ++ .snippet s :: after)).lineMod? id := by
  simp only [lineMod?_ofEntities, List.flatMap_append, List.flatMap_cons, entityLineMods,
    List.nil_append]

theorem hasOnly_without (hmode : s.mode = .skip) :
    (ofEntities (before ++ after)).hasOnly =
      (ofEntities (before ++ .snippet s :: after)).hasOnly := by
  rw [hasOnly_ofEntities, hasOnly_ofEntities, snippets_insert, snippets_append]
  simp [hmode]

/-- No other snippet refers to the ID, so what is looked up refers to other IDs only. -/
theorem agree_of_unreferenced (hid : s.id = some x) (hmode : s.mode = .skip)
    (hunused : ∀ t, Entity.snippet t ∈ before ++ after → ∀ kind, ¬ t.RefersTo kind x) :
    (ofEntities (before ++ .snippet s :: after)).Agree (fun _ _ => True) (fun _ id => id ≠ x)
      (ofEntities (before ++ after)) where
  hasOnly := hasOnly_without hmode
  alike {kind id} _ hne := by
    have hsnippet : (ofEntities (before ++ after)).snippet? id =
        (ofEntities (before ++ .snippet s :: after)).snippet? id := snippet?_without hid hne
    have hlineMod : (ofEntities (before ++ after)).lineMod? id =
        (ofEntities (before ++ .snippet s :: after)).lineMod? id := lineMod?_without id
    cases kind with
    | snippet => exact ⟨hsnippet, fun _ => congrArg Option.isSome hlineMod⟩
    | lineMod => exact ⟨hlineMod, fun _ => congrArg Option.isSome hsnippet⟩
  closed := by
    intro id t hne ht kind id' href heq
    rw [← snippet?_without hid hne] at ht
    have hmem := mem_snippets.mp (snippet?_spec ht).1
    rw [entities_ofEntities] at hmem
    exact hunused t hmem kind (heq ▸ href)

/-- The snippet is passed over. -/
theorem visitAll_without (d : Document) (host : Host σ) (hmode : s.mode = .skip) (st : RunState)
    (w : World σ) :
    st.visitAll d host (before ++ .snippet s :: after) w =
      st.visitAll d host (before ++ after) w := by
  have hrun : ¬ s.isRun d.hasOnly := by simp [Snippet.isRun, hmode, RunningMode.isRun]
  induction before generalizing st w with
  | nil =>
    rw [List.nil_append, visitAll_cons, visit_snippet, if_neg hrun]
    rfl
  | cons e before ih =>
    rw [List.cons_append, List.cons_append, visitAll_cons, visitAll_cons]
    cases st.visit d host e w with
    | mk result v =>
      cases result with
      | ok st' => exact ih st' v
      | error a => rfl

theorem indexFaults_without
    (hfaults : (ofEntities (before ++ .snippet s :: after)).indexFaults = []) :
    (ofEntities (before ++ after)).indexFaults = [] := by
  rw [indexFaults_eq_nil_iff] at hfaults ⊢
  have hsub : (before ++ after).Sublist (before ++ .snippet s :: after) :=
    (List.sublist_cons_self _ after).append_left before
  exact hfaults.sublist (hsub.filterMap _)

/-- **Unreferenced snippets do nothing.** In a document without index faults, take a snippet that is
never run, has an ID and is referred to by no other snippet. Without it a run makes the same calls,
leaves the host in the same state and ends the same way: it is aborted for the same reason, or its
report has the same events and counts, the warnings aside. -/
theorem run_without_unreferenced (before after : List Entity) (s : Snippet) (x : String)
    (hfaults : (ofEntities (before ++ .snippet s :: after)).indexFaults = [])
    (hid : s.id = some x) (hmode : s.mode = .skip)
    (hunused : ∀ t, Entity.snippet t ∈ before ++ after → ∀ kind, ¬ t.RefersTo kind x)
    (host : Host σ) (config : Config) (w : World σ) :
    let original := (ofEntities (before ++ .snippet s :: after)).run host config w
    let rest := (ofEntities (before ++ after)).run host config w
    rest.2 = original.2 ∧
      rest.1.map Report.withoutWarnings = original.1.map Report.withoutWarnings := by
  intro original rest
  have hagree := agree_of_unreferenced hid hmode hunused
  have hwithin : ∀ e ∈ before ++ after, ∀ t ∈ entitySnippets e, t.Within fun _ id => id ≠ x := by
    intro e he t ht kind id href heq
    cases e with
    | snippet u =>
      obtain rfl : t = u := List.mem_singleton.mp ht
      exact hunused t he kind (heq ▸ href)
    | _ => cases ht
  have hstart : RunState.start (ofEntities (before ++ after)) config =
      .start (ofEntities (before ++ .snippet s :: after)) config := by
    unfold RunState.start
    rw [hfaults, indexFaults_without hfaults]
  have hvisits : RunState.visitAll (ofEntities (before ++ after)) host
        (.start (ofEntities (before ++ after)) config) (ofEntities (before ++ after)).entities w =
      RunState.visitAll (ofEntities (before ++ .snippet s :: after)) host
        (.start (ofEntities (before ++ .snippet s :: after)) config)
        (ofEntities (before ++ .snippet s :: after)).entities w := by
    rw [entities_ofEntities, entities_ofEntities, hstart,
      visitAll_eq_of_agree hagree host hwithin, visitAll_without _ host hmode]
  exact run_eq_of_visitAll hvisits

end Without

/-- An old version of a snippet that is kept but not run. It includes a snippet that is run. -/
def oldVersion : Snippet :=
  .single ⟨{ Properties.bare 7 "sh" with
    id := some "old", mode := .skip, includes := ["setup"] }, ["ls"]⟩

theorem run_without_unreferenced_oldVersion :
    let setup : Entity :=
      .snippet (.single ⟨{ Properties.bare 3 "sh" with id := some "setup" }, ["cd /"]⟩)
    let copy : Entity :=
      .snippet (.single ⟨{ Properties.bare 11 "sh" with sameAs := some "setup" }, ["cd /"]⟩)
    let w : World Script := ⟨⟨[], [], [], []⟩, []⟩
    let original := (ofEntities [setup, .snippet oldVersion, copy]).run Script.host .builtin w
    let rest := (ofEntities [setup, copy]).run Script.host .builtin w
    (ofEntities [setup, .snippet oldVersion, copy]).indexFaults = [] ∧
      oldVersion.id = some "old" ∧ oldVersion.mode = .skip ∧
      (∀ t, Entity.snippet t ∈ [setup, copy] → ∀ kind, ¬ t.RefersTo kind "old") ∧
      rest.2 = original.2 ∧
      rest.1.map Report.withoutWarnings = original.1.map Report.withoutWarnings := by
  intro setup copy w original rest
  have hfaults : (ofEntities [setup, .snippet oldVersion, copy]).indexFaults = [] := by
    decide +kernel
  have hunused : ∀ t, Entity.snippet t ∈ [setup, copy] → ∀ kind, ¬ t.RefersTo kind "old" := by
    rintro t ht kind ⟨e, he, href⟩
    simp only [setup, copy, List.mem_cons, Entity.snippet.injEq, List.not_mem_nil, or_false] at ht
    rcases ht with rfl | rfl
    all_goals
      obtain rfl := List.mem_singleton.mp he
      cases kind with
      | snippet => exact absurd (mem_snippetReferences.mpr href) (by decide)
      | lineMod => exact absurd (mem_lineModReferences.mpr href) (by decide)
  exact ⟨hfaults, rfl, rfl, hunused,
    run_without_unreferenced [setup] [copy] oldVersion "old" hfaults rfl rfl hunused _ _ _⟩

end Document

end Doctest
