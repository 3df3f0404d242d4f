import Doctest.Proofs.DistinctIds
import Mathlib.Data.List.Forall2

/-!
# First declarations and repeated ones

An ID stands for the first entity that declares it as something of its kind, and every later declaration
of the same kind is a fault. Snippets and line mods do not get in each other's way.

* `FirstDeclares`: the first entity of a list that declares an ID as something of a kind.
* `declaration?_eq_some_iff`: an ID stands for that entity.
* `indexFaults_of_new`, `exists_indexFaults_of_repeated`: what one more entity adds to the faults.
* `index_declarations`: the index of a document, said about its entities alone.
-/

namespace Doctest

variable {es : List Entity} {kind : IdKind} {id : String} {e first : Entity} {i : Nat} {fault : Fault}

theorem Entity.declared?_eq_snippet_iff :
    e.declared? = some (.snippet, id) ↔ ∃ s, e = .snippet s ∧ s.id = some id := by
  cases e <;> simp [declared?]

theorem Entity.declared?_eq_lineMod_iff :
    e.declared? = some (.lineMod, id) ↔ ∃ m, e = .lineMod m ∧ m.kind = .appliable id := by
  have hid : ∀ m : LineMod, m.id? = some id ↔ m.kind = .appliable id := by
    intro m
    unfold LineMod.id?
    cases m.kind <;> simp
  cases e <;> simp [declared?, hid]

/-- The entity declares the ID as something of the kind, and none in front of it does. -/
def FirstDeclares (es : List Entity) (kind : IdKind) (id : String) (e : Entity) : Prop :=
  ∃ front back, es = front ++ e :: back ∧ e.declared? = some (kind, id) ∧
    ∀ e' ∈ front, e'.declared? ≠ some (kind, id)

theorem firstDeclares_iff :
    FirstDeclares es kind id e ↔ es.find? (·.declared? = some (kind, id)) = some e := by
  rw [List.find?_eq_some_iff_append]
  constructor
  · rintro ⟨front, back, hes, he, hfront⟩
    exact ⟨by simpa using he, front, back, hes, by simpa using hfront⟩
  · rintro ⟨he, front, back, hes, hfront⟩
    exact ⟨front, back, hes, by simpa using he, by simpa using hfront⟩

/-- What the message about a repeated ID calls its kind. -/
def IdKind.title : IdKind → String
  | .snippet => "snippet ID"
  | .lineMod => "`lineModId`"

/-- The ID of the entity at the place is declared in front of it already, as the same kind. -/
def RepeatedAt (es : List Entity) (i : Nat) : Prop :=
  ∃ front back e kind id, es = front ++ e :: back ∧ front.length = i ∧
    e.declared? = some (kind, id) ∧ ∃ first ∈ front, first.declared? = some (kind, id)

/-- The fault says of the entity at the place that its ID is declared again, and where. -/
def Reports (es : List Entity) (i : Nat) (fault : Fault) : Prop :=
  ∃ front back e kind id first, es = front ++ e :: back ∧ front.length = i ∧
    e.declared? = some (kind, id) ∧ FirstDeclares front kind id first ∧
    fault.place = some (.line e.line) ∧
    fault.message = s!"Duplicate {kind.title} `{id}`: lines {first.line} and {e.line}" ∧
    fault.notes = [s!"first declared at line {first.line}"]

theorem Reports.concat (h : Reports es i fault) (e : Entity) : Reports (es ++ [e]) i fault := by
  obtain ⟨front, back, e', kind, id, first, rfl, hlength, hfault⟩ := h
  exact ⟨front, back ++ [e], e', kind, id, first, by simp, hlength, hfault⟩

/-- With one more entity only its own ID can be repeated newly. -/
theorem repeatedAt_concat : RepeatedAt (es ++ [e]) i ↔ RepeatedAt es i ∨
    i = es.length ∧ ∃ kind id, e.declared? = some (kind, id) ∧
      ∃ first ∈ es, first.declared? = some (kind, id) := by
  constructor
  · rintro ⟨front, back, e', kind, id, hes, hlength, hrepeated⟩
    rcases List.eq_nil_or_concat' back with rfl | ⟨back, last, rfl⟩
    · obtain ⟨rfl, hlast⟩ := List.append_inj' hes rfl
      cases hlast
      exact .inr ⟨hlength.symm, kind, id, hrepeated⟩
    · have hsame : es ++ [e] = (front ++ e' :: back) ++ [last] := by simp [hes]
      obtain ⟨rfl, -⟩ := List.append_inj' hsame rfl
      exact .inl ⟨front, back, e', kind, id, rfl, hlength, hrepeated⟩
  · rintro (⟨front, back, e', kind, id, rfl, hrepeated⟩ | ⟨rfl, kind, id, hrepeated⟩)
    · exact ⟨front, back ++ [e], e', kind, id, by simp, hrepeated⟩
    · exact ⟨es, [], e, kind, id, rfl, rfl, hrepeated⟩

theorem RepeatedAt.lt_length (h : RepeatedAt es i) : i < es.length := by
  obtain ⟨front, back, e, kind, id, rfl, rfl, -⟩ := h
  simp

namespace Document

/-! ## What an ID stands for -/

/-- The entity that an ID stands for. -/
def declaration? (d : Document) : IdKind → String → Option Entity
  | .snippet, id => (d.snippet? id).map .snippet
  | .lineMod, id => (d.lineMod? id).map .lineMod

theorem declaration?_add (d : Document) (e : Entity) (kind : IdKind) (id : String) :
    (d.add e).declaration? kind id =
      (d.declaration? kind id).or (if e.declared? = some (kind, id) then some e else none) := by
  cases kind with
  | snippet =>
    simp only [declaration?, snippet?_add, Option.map_or]
    congr 1
    cases e with
    | snippet s => by_cases hid : s.id = some id <;> simp [entitySnippets, Entity.declared?, hid]
    | config line patch | heading h | lineMod m => simp [entitySnippets, Entity.declared?]
  | lineMod =>
    simp only [declaration?, lineMod?_add, Option.map_or]
    congr 1
    cases e with
    | lineMod m => by_cases hid : m.id? = some id <;> simp [entityLineMods, Entity.declared?, hid]
    | config line patch | heading h | snippet s => simp [entityLineMods, Entity.declared?]

theorem declaration?_ofEntities (es : List Entity) (kind : IdKind) (id : String) :
    (ofEntities es).declaration? kind id = es.find? (·.declared? = some (kind, id)) := by
  induction es using List.reverseRecOn with
  | nil => cases kind <;> rfl
  | append_singleton es e ih =>
    rw [ofEntities_concat, declaration?_add, ih, List.find?_append, List.find?_singleton]
    simp only [decide_eq_true_eq]

/-- **What an ID stands for.** The first entity that declares it. -/
theorem declaration?_eq_some_iff :
    (ofEntities es).declaration? kind id = some e ↔ FirstDeclares es kind id e := by
  rw [declaration?_ofEntities, firstDeclares_iff]

theorem declaration?_eq_none_iff :
    (ofEntities es).declaration? kind id = none ↔ ∀ e ∈ es, e.declared? ≠ some (kind, id) := by
  rw [declaration?_ofEntities, List.find?_eq_none]
  simp

/-! ## Repeated IDs -/

/-- An entity whose ID stands for nothing yet is no fault, and neither is one without an ID. -/
theorem indexFaults_of_new {d : Document}
    (h : ∀ kind id, e.declared? = some (kind, id) → d.declaration? kind id = none) :
    (d.add e).indexFaults = d.indexFaults := by
  cases e with
  | config line patch => rfl
  | heading h => rfl
  | snippet s =>
    simp only [add]
    cases hid : s.id with
    | none => rfl
    | some id =>
      have hnone : d.snippet? id = none := by
        simpa [declaration?] using h .snippet id (by simp [Entity.declared?, hid])
      unfold snippet? at hnone
      simp only [Option.elim_some, indexSnippet, hnone]
  | lineMod m =>
    simp only [add]
    cases hid : m.id? with
    | none => rfl
    | some id =>
      have hnone : d.lineMod? id = none := by
        simpa [declaration?] using h .lineMod id (by simp [Entity.declared?, hid])
      unfold lineMod? at hnone
      simp only [Option.elim_some, indexLineMod, hnone]

/-- An entity whose ID stands for something of its kind is one more fault, on its own line. -/
theorem exists_indexFaults_of_repeated {d : Document} (he : e.declared? = some (kind, id))
    (hfirst : d.declaration? kind id = some first) :
    ∃ fault, (d.add e).indexFaults = d.indexFaults ++ [fault] ∧
      fault.place = some (.line e.line) ∧
      fault.message = s!"Duplicate {kind.title} `{id}`: lines {first.line} and {e.line}" ∧
      fault.notes = [s!"first declared at line {first.line}"] := by
  cases e with
  | config line patch => cases he
  | heading h => cases he
  | snippet s =>
    obtain ⟨_, hid, heq⟩ := Option.map_eq_some_iff.mp he
    cases heq
    obtain ⟨t, ht, rfl⟩ := Option.map_eq_some_iff.mp hfirst
    unfold snippet? at ht
    refine ⟨duplicate (.duplicateSnippetId id t.line s.line) t.line s.line, ?_, rfl, rfl, rfl⟩
    simp only [add, hid, Option.elim_some, indexSnippet, ht]
  | lineMod m =>
    obtain ⟨_, hid, heq⟩ := Option.map_eq_some_iff.mp he
    cases heq
    obtain ⟨n, hn, rfl⟩ := Option.map_eq_some_iff.mp hfirst
    unfold lineMod? at hn
    refine ⟨duplicate (.duplicateLineModId id n.line m.line) n.line m.line, ?_, rfl, rfl, rfl⟩
    simp only [add, hid, Option.elim_some, indexLineMod, hn]

/-- The places of the repeated IDs, in order, and the faults about them. -/
theorem exists_repeated (es : List Entity) :
    ∃ places : List Nat, places.Pairwise (· < ·) ∧ (∀ i, i ∈ places ↔ RepeatedAt es i) ∧
      List.Forall₂ (Reports es) places (ofEntities es).indexFaults := by
  induction es using List.reverseRecOn with
  | nil =>
    refine ⟨[], .nil, fun i => ?_, .nil⟩
    simp [RepeatedAt]
  | append_singleton es e ih =>
    obtain ⟨places, hsorted, hplaces, hfaults⟩ := ih
    have hfaults' := hfaults.imp fun i fault h => Reports.concat h e
    rw [ofEntities_concat]
    by_cases hrepeated : ∃ kind id, e.declared? = some (kind, id) ∧
        ∃ first ∈ es, first.declared? = some (kind, id)
    · obtain ⟨kind, id, he, e', he', hdeclared⟩ := hrepeated
      cases hfirst : (ofEntities es).declaration? kind id with
      | none => exact absurd hdeclared (declaration?_eq_none_iff.mp hfirst e' he')
      | some first =>
        obtain ⟨fault, hadd, hfault⟩ := exists_indexFaults_of_repeated he hfirst
        refine ⟨places ++ [es.length], ?_, fun i => ?_, ?_⟩
        · refine List.pairwise_append.mpr ⟨hsorted, List.pairwise_singleton _ _, ?_⟩
          intro i hi j hj
          rw [List.mem_singleton.mp hj]
          exact ((hplaces i).mp hi).lt_length
        · rw [repeatedAt_concat, List.mem_append, List.mem_singleton, hplaces]
          exact or_congr_right (iff_self_and.mpr fun _ => ⟨kind, id, he, e', he', hdeclared⟩)
        · rw [hadd]
          refine List.rel_append hfaults' (.cons ?_ .nil)
          exact ⟨es, [], e, kind, id, first, rfl, rfl, he, declaration?_eq_some_iff.mp hfirst, hfault⟩
    · rw [indexFaults_of_new]
      · refine ⟨places, hsorted, fun i => ?_, hfaults'⟩
        rw [repeatedAt_concat, hplaces]
        exact (or_iff_left fun h => hrepeated h.2).symm
      · intro kind id he
        refine declaration?_eq_none_iff.mpr fun e' he' hdeclared => hrepeated ?_
        exact ⟨kind, id, he, e', he', hdeclared⟩

/-- **The index of a document.** A snippet ID stands for the first snippet that declares it, and for none
if no snippet does; the ID of a line mod likewise, whatever snippets declare. There is one fault for each
entity whose ID is declared in front of it as the same kind, in document order, on the line of that
entity and with the line of the first declaration. Some snippet is the only one to run if one says so,
whether or not its ID is its own. -/
theorem index_declarations (es : List Entity) :
    (∀ id s, (ofEntities es).snippet? id = some s ↔ FirstDeclares es .snippet id (.snippet s)) ∧
    (∀ id, (ofEntities es).snippet? id = none ↔ ∀ s, .snippet s ∈ es → s.id ≠ some id) ∧
    (∀ id m, (ofEntities es).lineMod? id = some m ↔ FirstDeclares es .lineMod id (.lineMod m)) ∧
    (∀ id, (ofEntities es).lineMod? id = none ↔ ∀ m, .lineMod m ∈ es → m.kind ≠ .appliable id) ∧
    (∃ places : List Nat, places.Pairwise (· < ·) ∧ (∀ i, i ∈ places ↔ RepeatedAt es i) ∧
      List.Forall₂ (Reports es) places (ofEntities es).indexFaults) ∧
    ((ofEntities es).hasOnly ↔ ∃ s, .snippet s ∈ es ∧ s.mode = .only) := by
  refine ⟨fun id s => ?_, fun id => ?_, fun id m => ?_, fun id => ?_, exists_repeated es, ?_⟩
  · rw [← declaration?_eq_some_iff]
    simp [declaration?]
  · have hnone : (ofEntities es).snippet? id = none ↔
        (ofEntities es).declaration? .snippet id = none := by simp [declaration?]
    rw [hnone, declaration?_eq_none_iff]
    simp only [ne_eq, Entity.declared?_eq_snippet_iff]
    grind
  · rw [← declaration?_eq_some_iff]
    simp [declaration?]
  · have hnone : (ofEntities es).lineMod? id = none ↔
        (ofEntities es).declaration? .lineMod id = none := by simp [declaration?]
    rw [hnone, declaration?_eq_none_iff]
    simp only [ne_eq, Entity.declared?_eq_lineMod_iff]
    grind
  · rw [hasOnly_ofEntities, List.any_eq_true]
    simp only [mem_snippets, entities_ofEntities, decide_eq_true_eq]

end Document

end Doctest
