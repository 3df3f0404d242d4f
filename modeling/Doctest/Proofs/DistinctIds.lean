import Doctest.Proofs.Index
import Doctest.Proofs.Lookups
import Mathlib.Data.List.Nodup

/-!
# IDs that are declared once

Snippets and line mods declare IDs of their own kind. A document has index faults if and only if an
ID is declared twice as one kind, so a document without them has none either when some of its
entities are left out.

* `lineMod?_ofEntities`: an ID stands for the first line mod in document order that declares it.
* `indexFaults_eq_nil_iff`: there are no index faults if and only if all IDs are distinct.
-/

namespace Doctest

/-- The ID that an entity declares. -/
def Entity.declared? : Entity → Option (IdKind × String)
  | .snippet s => s.id.map (.snippet, ·)
  | .lineMod m => m.id?.map (.lineMod, ·)
  | .config .. | .heading _ => none

namespace Document

/-! ## Line mods by their IDs -/

/-- The line mod that an entity is. -/
def entityLineMods : Entity → List LineMod
  | .lineMod m => [m]
  | .config .. | .heading _ | .snippet _ => []

theorem lineModsById_indexSnippet (d : Document) (s : Snippet) (id : String) :
    (d.indexSnippet s id).lineModsById = d.lineModsById := by
  unfold indexSnippet
  split <;> rfl

theorem get?_indexLineMod (d : Document) (m : LineMod) (id k : String) :
    (d.indexLineMod m id).lineModsById.get? k =
      (d.lineModsById.get? k).or (if id = k then some m else none) := by
  unfold indexLineMod
  by_cases hk : id = k
  · subst hk
    cases hfirst : d.lineModsById.get? id with
    | none => simp [Keyed.get?_insert]
    | some first => simp [hfirst]
  · rw [if_neg hk, Option.or_none]
    split
    · rw [Keyed.get?_insert, if_neg (Ne.symm hk)]
    · rfl

theorem lineMod?_add (d : Document) (e : Entity) (k : String) :
    (d.add e).lineMod? k =
      (d.lineMod? k).or ((entityLineMods e).find? fun m => m.id? = some k) := by
  cases e with
  | config line patch => exact Option.or_none.symm
  | heading h => exact Option.or_none.symm
  | snippet s =>
    simp only [lineMod?, add, entityLineMods, List.find?_nil, Option.or_none]
    cases s.id with
    | none => rfl
    | some id => exact congrArg (·.get? k) (lineModsById_indexSnippet _ s id)
  | lineMod m =>
    simp only [lineMod?, add, entityLineMods]
    cases hid : m.id? with
    | none => simp [hid]
    | some id =>
      refine (get?_indexLineMod _ m id k).trans ?_
      by_cases hk : id = k <;> simp [hid, hk]

theorem lineMod?_ofEntities (es : List Entity) (id : String) :
    (ofEntities es).lineMod? id = (es.flatMap entityLineMods).find? fun m => m.id? = some id := by
  induction es using List.reverseRecOn with
  | nil => rfl
  | append_singleton es e ih =>
    rw [ofEntities_concat, lineMod?_add, ih, List.flatMap_append, List.find?_append,
      List.flatMap_singleton]

theorem snippets_ofEntities (es : List Entity) :
    (ofEntities es).snippets = es.flatMap entitySnippets := by
  induction es using List.reverseRecOn with
  | nil => rfl
  | append_singleton es e ih =>
    rw [ofEntities_concat, snippets_add, ih, List.flatMap_append, List.flatMap_singleton]

/-! ## Distinct IDs -/

/-- The ID stands for something of the kind. -/
def Declares (d : Document) : IdKind → String → Prop
  | .snippet, id => (d.snippet? id).isSome
  | .lineMod, id => (d.lineMod? id).isSome

theorem declares_add {d : Document} {e : Entity} {kind : IdKind} {id : String} :
    (d.add e).Declares kind id ↔ d.Declares kind id ∨ e.declared? = some (kind, id) := by
  cases kind with
  | snippet =>
    show ((d.add e).snippet? id).isSome ↔ (d.snippet? id).isSome ∨ _
    rw [snippet?_add, Option.isSome_or, Bool.or_eq_true]
    cases e <;> simp [entitySnippets, Entity.declared?]
  | lineMod =>
    show ((d.add e).lineMod? id).isSome ↔ (d.lineMod? id).isSome ∨ _
    rw [lineMod?_add, Option.isSome_or, Bool.or_eq_true]
    cases e <;> simp [entityLineMods, Entity.declared?]

theorem declares_ofEntities {es : List Entity} {kind : IdKind} {id : String} :
    (ofEntities es).Declares kind id ↔ (kind, id) ∈ es.filterMap Entity.declared? := by
  induction es using List.reverseRecOn with
  | nil =>
    constructor
    · intro h
      cases kind <;> cases h
    · intro h
      cases h
  | append_singleton es e ih =>
    rw [ofEntities_concat, declares_add, ih, List.filterMap_append, List.mem_append]
    simp only [List.mem_filterMap, List.mem_singleton, exists_eq_left]

/-- An entity adds a fault if its ID is declared already. -/
theorem indexFaults_add_eq_nil_iff (d : Document) (e : Entity) :
    (d.add e).indexFaults = [] ↔
      d.indexFaults = [] ∧ ∀ kind id, e.declared? = some (kind, id) → ¬ d.Declares kind id := by
  cases e with
  | config line patch => simp [add, Entity.declared?]
  | heading h => simp [add, Entity.declared?]
  | snippet s =>
    simp only [add, Entity.declared?]
    cases s.id with
    | none => simp
    | some id =>
      simp only [Option.elim_some, Option.map_some, Option.some.injEq, Prod.mk.injEq, indexSnippet]
      cases hfirst : d.snippetsById.get? id with
      | none => simp [Declares, snippet?, hfirst]
      | some first => simp [Declares, snippet?, hfirst]
  | lineMod m =>
    simp only [add, Entity.declared?]
    cases m.id? with
    | none => simp
    | some id =>
      simp only [Option.elim_some, Option.map_some, Option.some.injEq, Prod.mk.injEq, indexLineMod]
      cases hfirst : d.lineModsById.get? id with
      | none => simp [Declares, lineMod?, hfirst]
      | some first => simp [Declares, lineMod?, hfirst]

theorem indexFaults_eq_nil_iff (es : List Entity) :
    (ofEntities es).indexFaults = [] ↔ (es.filterMap Entity.declared?).Nodup := by
  induction es using List.reverseRecOn with
  | nil => simp [ofEntities, empty]
  | append_singleton es e ih =>
    rw [ofEntities_concat, indexFaults_add_eq_nil_iff, ih, List.filterMap_append]
    simp only [declares_ofEntities]
    cases hdeclared : e.declared? with
    | none => simp [hdeclared]
    | some declared =>
      have hlast : [e].filterMap Entity.declared? = [declared] := by simp [hdeclared]
      rw [hlast, ← List.concat_eq_append, List.nodup_concat]
      constructor
      · rintro ⟨hnodup, hnew⟩
        exact ⟨hnew _ _ rfl, hnodup⟩
      · rintro ⟨hnew, hnodup⟩
        refine ⟨hnodup, ?_⟩
        rintro kind id ⟨⟩
        exact hnew

end Document

end Doctest
