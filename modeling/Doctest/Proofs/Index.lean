import Doctest.Document
import Mathlib.Data.List.Induction

/-!
# What an ID stands for

The index of a document is filled while its entities are added one by one. Here it is compared with
the list of all snippets.

* `entities_ofEntities`: the index changes nothing about the entities.
* `hasOnly_ofEntities`: whether a snippet is the only one to run is said by the snippets alone.
* `snippet?_ofEntities`: an ID stands for the first snippet in document order that declares it.
* `snippet?_of_mem`: where no ID is declared twice, a snippet is what its own ID stands for.
-/

namespace Doctest.Document

/-! ## Adding an entity -/

theorem entities_indexSnippet (d : Document) (s : Snippet) (id : String) :
    (d.indexSnippet s id).entities = d.entities := by
  unfold indexSnippet
  split <;> rfl

theorem entities_indexLineMod (d : Document) (m : LineMod) (id : String) :
    (d.indexLineMod m id).entities = d.entities := by
  unfold indexLineMod
  split <;> rfl

theorem snippetsById_indexLineMod (d : Document) (m : LineMod) (id : String) :
    (d.indexLineMod m id).snippetsById = d.snippetsById := by
  unfold indexLineMod
  split <;> rfl

theorem entities_add (d : Document) (e : Entity) : (d.add e).entities = d.entities ++ [e] := by
  cases e with
  | config line patch => rfl
  | heading h => rfl
  | lineMod m =>
    simp only [add]
    cases m.id? with
    | none => rfl
    | some id => exact entities_indexLineMod _ m id
  | snippet s =>
    simp only [add]
    cases s.id with
    | none => rfl
    | some id => exact entities_indexSnippet _ s id

/-- An ID that is declared already keeps what it stands for. -/
theorem get?_indexSnippet (d : Document) (s : Snippet) (id k : String) :
    (d.indexSnippet s id).snippetsById.get? k =
      (d.snippetsById.get? k).or (if id = k then some s else none) := by
  unfold indexSnippet
  by_cases hk : id = k
  · subst hk
    cases hfirst : d.snippetsById.get? id with
    | none => simp [Keyed.get?_insert]
    | some first => simp [hfirst]
  · rw [if_neg hk, Option.or_none]
    split
    · rw [Keyed.get?_insert, if_neg (Ne.symm hk)]
    · rfl

/-- The snippet that an entity is. -/
def entitySnippets : Entity → List Snippet
  | .snippet s => [s]
  | .config .. | .heading _ | .lineMod _ => []

theorem snippets_add (d : Document) (e : Entity) :
    (d.add e).snippets = d.snippets ++ entitySnippets e := by
  cases e <;> simp [snippets, entities_add, entitySnippets]

theorem snippet?_add (d : Document) (e : Entity) (k : String) :
    (d.add e).snippet? k =
      (d.snippet? k).or ((entitySnippets e).find? fun s => s.id = some k) := by
  cases e with
  | config line patch => exact Option.or_none.symm
  | heading h => exact Option.or_none.symm
  | lineMod m =>
    simp only [snippet?, add, entitySnippets, List.find?_nil, Option.or_none]
    cases m.id? with
    | none => rfl
    | some id => exact congrArg (·.get? k) (snippetsById_indexLineMod _ m id)
  | snippet s =>
    simp only [snippet?, add, entitySnippets]
    cases hid : s.id with
    | none => simp [hid]
    | some id =>
      refine (get?_indexSnippet _ s id k).trans ?_
      by_cases hk : id = k <;> simp [hid, hk]

theorem hasOnly_indexSnippet (d : Document) (s : Snippet) (id : String) :
    (d.indexSnippet s id).hasOnly = d.hasOnly := by
  unfold indexSnippet
  split <;> rfl

theorem hasOnly_indexLineMod (d : Document) (m : LineMod) (id : String) :
    (d.indexLineMod m id).hasOnly = d.hasOnly := by
  unfold indexLineMod
  split <;> rfl

theorem hasOnly_add (d : Document) (e : Entity) :
    (d.add e).hasOnly = (d.hasOnly || (entitySnippets e).any (·.mode = .only)) := by
  cases e with
  | config line patch => exact (Bool.or_false _).symm
  | heading h => exact (Bool.or_false _).symm
  | lineMod m =>
    simp only [add, entitySnippets, List.any_nil, Bool.or_false]
    cases m.id? with
    | none => rfl
    | some id => exact hasOnly_indexLineMod _ m id
  | snippet s =>
    simp only [add, entitySnippets, List.any_cons, List.any_nil, Bool.or_false]
    cases s.id with
    | none => rfl
    | some id => exact hasOnly_indexSnippet _ s id

/-! ## Documents of a list of entities -/

theorem ofEntities_concat (es : List Entity) (e : Entity) :
    ofEntities (es ++ [e]) = (ofEntities es).add e := by
  unfold ofEntities
  rw [List.foldl_append]
  rfl

theorem entities_ofEntities (es : List Entity) : (ofEntities es).entities = es := by
  induction es using List.reverseRecOn with
  | nil => rfl
  | append_singleton es e ih => rw [ofEntities_concat, entities_add, ih]

/-- Whether some snippet of the document is the only one to run. -/
theorem hasOnly_ofEntities (es : List Entity) :
    (ofEntities es).hasOnly = (ofEntities es).snippets.any (·.mode = .only) := by
  induction es using List.reverseRecOn with
  | nil => rfl
  | append_singleton es e ih =>
    rw [ofEntities_concat, hasOnly_add, snippets_add, List.any_append, ih]

theorem mem_snippets {d : Document} {s : Snippet} :
    s ∈ d.snippets ↔ Entity.snippet s ∈ d.entities := by
  unfold snippets
  rw [List.mem_filterMap]
  constructor
  · rintro ⟨e, he, hs⟩
    split at hs <;> cases hs
    exact he
  · intro hs
    exact ⟨_, hs, rfl⟩

/-- **What an ID stands for.** The first snippet that declares it. -/
theorem snippet?_ofEntities (es : List Entity) (id : String) :
    (ofEntities es).snippet? id = (ofEntities es).snippets.find? fun s => s.id = some id := by
  induction es using List.reverseRecOn with
  | nil => rfl
  | append_singleton es e ih =>
    rw [ofEntities_concat, snippet?_add, snippets_add, List.find?_append, ih]

theorem snippet?_spec {es : List Entity} {id : String} {s : Snippet}
    (h : (ofEntities es).snippet? id = some s) :
    s ∈ (ofEntities es).snippets ∧ s.id = some id := by
  rw [snippet?_ofEntities] at h
  exact ⟨List.mem_of_find?_eq_some h, by simpa using List.find?_some h⟩

/-- Every snippet that an ID stands for declares it. -/
def IndexSound (d : Document) : Prop := ∀ id s, d.snippet? id = some s → s.id = some id

theorem indexSound_ofEntities (es : List Entity) : (ofEntities es).IndexSound :=
  fun _ _ h => (snippet?_spec h).2

/-- No ID is declared by two snippets. -/
def DistinctSnippetIds (d : Document) : Prop := (d.snippets.filterMap Snippet.id).Nodup

theorem find?_of_nodup {ss : List Snippet} (hss : (ss.filterMap Snippet.id).Nodup) {s : Snippet}
    (hs : s ∈ ss) {id : String} (hid : s.id = some id) :
    ss.find? (fun t => t.id = some id) = some s := by
  induction ss with
  | nil => simp at hs
  | cons t rest ih =>
    rcases List.mem_cons.mp hs with rfl | hs
    · simp [hid]
    · have hmem : id ∈ rest.filterMap Snippet.id := List.mem_filterMap.mpr ⟨s, hs, hid⟩
      have ht : t.id ≠ some id := by
        intro ht
        rw [List.filterMap_cons_some ht, List.nodup_cons] at hss
        exact hss.1 hmem
      have hrest : (rest.filterMap Snippet.id).Nodup :=
        hss.sublist ((List.sublist_cons_self t rest).filterMap Snippet.id)
      simpa [ht] using ih hrest hs

theorem snippet?_of_mem {es : List Entity} (hd : (ofEntities es).DistinctSnippetIds) {s : Snippet}
    (hs : s ∈ (ofEntities es).snippets) {id : String} (hid : s.id = some id) :
    (ofEntities es).snippet? id = some s := by
  rw [snippet?_ofEntities]
  exact find?_of_nodup hd hs hid

end Doctest.Document
