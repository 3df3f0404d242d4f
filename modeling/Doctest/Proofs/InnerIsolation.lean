import Doctest.Proofs.DistinctIds
import Doctest.Proofs.Includes

/-!
# Inner lines are isolated from the outer scope

Assembly carries the configuration and the line mods for languages along to every snippet that is
included. The inner lines do not use them, except for the translators of languages.

* `withoutOuter`: an element, a snippet or an entity without what it says about outer lines.
* `linesAlong_withoutOuter`: the walk through a document is the walk through the document without
  all that is said about outer lines, under every configuration with the same translators.
* `innerLines_isolated`: two scopes that differ in nothing else give a snippet the same inner lines or
  the same fault.
-/

namespace Doctest

/-! ## Without the outer scope -/

/-- The key of the translator that a language sets. -/
def LangDef.translatorKey : LangDef → Option String
  | .command d => d.translator
  | .neverRun | .skip => none

/-- The translator that is set for a language, or the fault of looking the language up. -/
def Config.translatorKey (config : Config) (lang : String) : Except Fault (Option String) :=
  (config.lang? lang).map fun language => language.bind LangDef.translatorKey

def Properties.withoutOuter (p : Properties) : Properties :=
  { p with applyToOuter := none, runLocalLines := false }

def Element.withoutOuter (e : Element) : Element := ⟨e.properties.withoutOuter, e.body⟩

def Snippet.withoutOuter : Snippet → Snippet
  | .single e => .single e.withoutOuter
  | .sequence first rest => .sequence first.withoutOuter (rest.map Element.withoutOuter)

def Entity.withoutOuter : Entity → Entity
  | .snippet s => .snippet s.withoutOuter
  | e => e

namespace Snippet

@[simp] theorem elements_withoutOuter (s : Snippet) :
    s.withoutOuter.elements = s.elements.map Element.withoutOuter := by
  cases s <;> rfl

@[simp] theorem id_withoutOuter (s : Snippet) : s.withoutOuter.id = s.id := by
  cases s <;> rfl

end Snippet

namespace Document

theorem snippets_withoutOuter (es : List Entity) :
    (ofEntities (es.map Entity.withoutOuter)).snippets =
      (ofEntities es).snippets.map Snippet.withoutOuter := by
  rw [snippets_ofEntities, snippets_ofEntities, List.map_flatMap, List.flatMap_map]
  refine List.flatMap_congr fun e _ => ?_
  cases e <;> rfl

/-- An ID stands for the same snippet, without what it says about outer lines. -/
theorem snippet?_withoutOuter (es : List Entity) (id : String) :
    (ofEntities (es.map Entity.withoutOuter)).snippet? id =
      ((ofEntities es).snippet? id).map Snippet.withoutOuter := by
  rw [snippet?_ofEntities, snippet?_ofEntities, snippets_withoutOuter, List.find?_map]
  simp only [Function.comp_def, Snippet.id_withoutOuter]

theorem lineMod?_withoutOuter (es : List Entity) (id : String) :
    (ofEntities (es.map Entity.withoutOuter)).lineMod? id = (ofEntities es).lineMod? id := by
  rw [lineMod?_ofEntities, lineMod?_ofEntities, List.flatMap_map]
  congr 1
  refine List.flatMap_congr fun e _ => ?_
  cases e <;> rfl

/-- In the second document all IDs stand for the same as in the first one, without what is said about
outer lines. -/
structure WithoutOuter (d d' : Document) : Prop where
  snippet? (id : String) : d'.snippet? id = (d.snippet? id).map Snippet.withoutOuter
  lineMod? (id : String) : d'.lineMod? id = d.lineMod? id

theorem withoutOuter_ofEntities (es : List Entity) :
    (ofEntities es).WithoutOuter (ofEntities (es.map Entity.withoutOuter)) where
  snippet? := snippet?_withoutOuter es
  lineMod? := lineMod?_withoutOuter es

/-- What is met from a snippet that is included is met. -/
theorem Reaches.head {d : Document} {s t u : Snippet} {id : String} (hid : s.Includes id)
    (ht : d.snippet? id = some t) (h : d.Reaches t u) : d.Reaches s u := by
  induction h with
  | self => exact .step .self hid ht
  | step _ hid' hu ih => exact .step ih hid' hu

end Document

/-! ## One step of the walk -/

theorem Element.arrange_congr {f g : String → Except Fault Lines} {ids : List String}
    (h : ∀ id ∈ ids, id ≠ thisMark → f id = g id) (body : Option Lines) :
    arrange f body ids = arrange g body ids := by
  induction ids generalizing body with
  | nil => rfl
  | cons id ids ih =>
    obtain ⟨hid, hids⟩ := List.forall_mem_cons.mp h
    unfold arrange
    split
    · rw [ih hids]
    · next hmark => rw [hid hmark, ih hids]

namespace Scope

variable {scope scope' : Scope}

theorem lineMod_withoutOuter (h : scope.document.WithoutOuter scope'.document) (line : Nat)
    (key id : String) : scope'.lineMod line key id = scope.lineMod line key id := by
  unfold lineMod
  rw [h.lineMod?, h.snippet?, Option.isSome_map]

theorem snippet_withoutOuter (h : scope.document.WithoutOuter scope'.document) (line : Nat)
    (key id : String) :
    scope'.snippet line key id = (scope.snippet line key id).map Snippet.withoutOuter := by
  unfold snippet
  rw [h.lineMod?, h.snippet?]
  cases scope.document.snippet? id with
  | some t => rfl
  | none =>
    rw [Option.map_none]
    cases (scope.document.lineMod? id).isSome <;> rfl

/-- The lines as the translator with a key gives them, for a snippet of a language on a line. -/
def translateBy (line : Nat) (lang : String) (lines : Lines) : Option String → Except Fault Lines
  | some key =>
    match translator? key with
    | some translate => .ok (translate lines)
    | none => .error (.atLine line (RunCause.unknownTranslator key lang))
  | none => .ok lines

/-- Of the configuration a translation needs the key of the translator alone. -/
theorem translated_eq (scope : Scope) (p : Properties) (lines : Lines) :
    scope.translated p lines =
      Except.atLine p.line (scope.config.translatorKey p.lang) >>=
        translateBy p.line p.lang lines := by
  unfold translated language? Config.translatorKey
  cases scope.config.lang? p.lang with
  | error fault => rfl
  | ok language =>
    cases language with
    | none => rfl
    | some language =>
      cases language with
      | neverRun => rfl
      | skip => rfl
      | command d =>
        obtain ⟨_, _, _, _, _, key⟩ := d
        cases key with
        | none => rfl
        | some key => rfl

theorem bodyLines_withoutOuter (h : scope.document.WithoutOuter scope'.document) (e : Element)
    (hlang : scope'.config.translatorKey e.properties.lang =
      scope.config.translatorKey e.properties.lang) :
    scope'.bodyLines e.withoutOuter = scope.bodyLines e := by
  have hmod : scope'.bodyLineMod e.withoutOuter.properties = scope.bodyLineMod e.properties := by
    unfold bodyLineMod
    simp only [lineMod_withoutOuter h]
    rfl
  have htranslated : ∀ lines, scope'.translated e.withoutOuter.properties lines =
      scope.translated e.properties lines := by
    intro lines
    rw [translated_eq, translated_eq, ← hlang]
    rfl
  unfold bodyLines
  simp only [hmod, htranslated]
  rfl

/-- **The walk does not see the outer scope.** It gives the same lines, or the same fault, in the
document without what is said about outer lines, under every configuration that sets the same
translators for the languages that are met, whatever line mods are declared. -/
theorem linesAlong_withoutOuter (h : scope.document.WithoutOuter scope'.document) {s : Snippet}
    (hlang : ∀ t, scope.document.Reaches s t → ∀ e ∈ t.elements,
      scope'.config.translatorKey e.properties.lang = scope.config.translatorKey e.properties.lang)
    (path : List String) :
    scope'.linesAlong path s.withoutOuter = scope.linesAlong path s := by
  induction path, s using Scope.linesAlong.induct scope with
  | case1 path s ih =>
    rw [linesAlong_eq, linesAlong_eq, Snippet.elements_withoutOuter]
    congr 1
    refine mapM_map_eq fun e he => ?_
    unfold partLines
    rw [bodyLines_withoutOuter h e (hlang s .self e he)]
    congr 1
    funext body
    refine Element.arrange_congr (fun id hid hmark => ?_) _
    unfold includeLines
    by_cases hpath : id ∈ path
    · rw [if_pos hpath, if_pos hpath]
      rfl
    · rw [if_neg hpath, if_neg hpath, snippet_withoutOuter h]
      show (scope.snippet e.properties.line "include" id).map Snippet.withoutOuter >>= _ = _
      cases hsnippet : scope.snippet e.properties.line "include" id with
      | error fault => rfl
      | ok t =>
        have ht : scope.document.snippet? id = some t := snippet_eq_ok.mp hsnippet
        have hincludes : s.Includes id := ⟨e, he, hid, hmark⟩
        exact ih e id hpath t hsnippet fun u hu => hlang u (.head hincludes ht hu)

end Scope

/-- **Inner lines are isolated from the outer scope.** Take two documents whose entities are the same
apart from `applyToOuter` and `runLocalLines` of their elements, and a snippet with a version of it that
differs in these two only. Whatever line mods for languages are declared, and whatever the
configurations say, the inner lines are the same, or the same fault comes up, as long as both
configurations set the same translators for the languages of what is met from the snippet. -/
theorem innerLines_isolated (es es' : List Entity) (s s' : Snippet) (config config' : Config)
    (lineMods lineMods' : List LineMod)
    (hes : es.map Entity.withoutOuter = es'.map Entity.withoutOuter)
    (hs : s.withoutOuter = s'.withoutOuter)
    (hlang : ∀ t, (Document.ofEntities es).Reaches s t → ∀ e ∈ t.elements,
      config'.translatorKey e.properties.lang = config.translatorKey e.properties.lang) :
    Scope.innerLines ⟨.ofEntities es', config', lineMods'⟩ s' =
      Scope.innerLines ⟨.ofEntities es, config, lineMods⟩ s := by
  -- Both are compared with the scope that has the second configuration and no outer scope at all.
  let erased : Scope := ⟨.ofEntities (es.map Entity.withoutOuter), config', []⟩
  have hid : s'.id = s.id := by
    rw [← Snippet.id_withoutOuter s', ← Snippet.id_withoutOuter s, hs]
  have hleft : erased.linesAlong s.id.toList s.withoutOuter =
      Scope.linesAlong ⟨.ofEntities es, config, lineMods⟩ s.id.toList s :=
    Scope.linesAlong_withoutOuter (Document.withoutOuter_ofEntities es) hlang _
  have hright : erased.linesAlong s.id.toList s.withoutOuter =
      Scope.linesAlong ⟨.ofEntities es', config', lineMods'⟩ s.id.toList s' := by
    let other : Scope := ⟨.ofEntities es', config', lineMods'⟩
    have hdocument : other.document.WithoutOuter erased.document := by
      show (Document.ofEntities es').WithoutOuter (.ofEntities (es.map Entity.withoutOuter))
      rw [hes]
      exact Document.withoutOuter_ofEntities es'
    rw [hs]
    exact Scope.linesAlong_withoutOuter hdocument (fun _ _ _ _ => rfl) _
  unfold Scope.innerLines
  rw [hid, ← hright, hleft]

/-- A snippet that is included. It may name a line mod for its outer lines. -/
def isolatedSetup (outer : Option String) : Snippet :=
  .single ⟨{ Properties.bare 5 "js" with id := some "setup", applyToOuter := outer }, ["let x = 1;"]⟩

/-- A snippet that includes it. It may ask for its own lines alone. -/
def isolatedUse (localLines : Bool) : Snippet :=
  .single ⟨{ Properties.bare 9 "js" with includes := ["setup"], runLocalLines := localLines },
    ["x + 1;"]⟩

/-- A line mod, and both snippets. -/
def isolatedExample (outer : Option String) (localLines : Bool) : List Entity :=
  [.lineMod { LineMod.plain 1 (.appliable "frame") with before := ["open();"] },
    .snippet (isolatedSetup outer), .snippet (isolatedUse localLines)]

theorem innerLines_isolated_example :
    let es := isolatedExample none true
    let es' := isolatedExample (some "frame") false
    let strict : LineMod := { LineMod.plain 2 (.language "js") with before := ["'use strict';"] }
    let quiet : Config := Config.builtin.apply
      ⟨none, some (.ofList [("js", .command (Config.runBy "deno" "main.js"))])⟩
    es.map Entity.withoutOuter = es'.map Entity.withoutOuter ∧
      (isolatedUse true).withoutOuter = (isolatedUse false).withoutOuter ∧
      (∀ t, (Document.ofEntities es).Reaches (isolatedUse true) t → ∀ e ∈ t.elements,
        quiet.translatorKey e.properties.lang = Config.builtin.translatorKey e.properties.lang) ∧
      Scope.innerLines ⟨.ofEntities es', quiet, [strict]⟩ (isolatedUse false) =
        Scope.innerLines ⟨.ofEntities es, .builtin, []⟩ (isolatedUse true) := by
  intro es es' strict quiet
  have hsnippets : ∀ t, (Document.ofEntities es).Reaches (isolatedUse true) t →
      t = isolatedUse true ∨ t = isolatedSetup none := by
    intro t ht
    cases ht with
    | self => exact .inl rfl
    | step _ _ hu =>
      have hmem := Document.mem_snippets.mp (Document.snippet?_spec hu).1
      rw [Document.entities_ofEntities] at hmem
      simp only [es, isolatedExample, List.mem_cons, List.not_mem_nil, Entity.snippet.injEq,
        reduceCtorEq, false_or, or_false] at hmem
      exact hmem.symm
  have hlang : ∀ t, (Document.ofEntities es).Reaches (isolatedUse true) t → ∀ e ∈ t.elements,
      quiet.translatorKey e.properties.lang = Config.builtin.translatorKey e.properties.lang := by
    intro t ht e he
    have hjs : e.properties.lang = "js" := by
      rcases hsnippets t ht with rfl | rfl
      all_goals
        obtain rfl := List.mem_singleton.mp he
        rfl
    rw [hjs]
    with_unfolding_all rfl
  exact ⟨rfl, rfl, hlang, innerLines_isolated es es' _ _ _ _ _ _ rfl rfl hlang⟩

end Doctest
