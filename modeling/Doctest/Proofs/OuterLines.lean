import Doctest.Proofs.Result
import Doctest.Proofs.Visits

/-!
# Outer lines are nested

What is put around a snippet comes from three sources: the configuration, the line mods for its language
and the line mod that the snippet names itself. The lines behind a snippet stand in the opposite order
of those in front of it.

* `LineMod.foldr_wrap`: line mods that wrap each other open in their order and close in the opposite one.
* `outerLineMods_eq_ok`: which line mods stand around a snippet, and when they can be found.
* `outerLines_nested`: when a snippet has outer lines, and what they are.
-/

namespace Doctest

/-! ## Line mods around lines -/

namespace LineMod

/-- The first line mod is the outermost one. -/
theorem foldr_wrap (mods : List LineMod) (lines : Lines) :
    mods.foldr wrap lines =
      mods.flatMap (·.before) ++ lines ++ mods.reverse.flatMap (·.after) := by
  induction mods with
  | nil =>
    rw [List.foldr_nil, List.flatMap_nil, List.reverse_nil, List.flatMap_nil, List.nil_append,
      List.append_nil]
  | cons m mods ih =>
    have hafter : (m :: mods).reverse.flatMap (·.after) =
        mods.reverse.flatMap (·.after) ++ m.after := by
      rw [List.reverse_cons, List.flatMap_append, List.flatMap_singleton]
    rw [List.foldr_cons, ih, hafter, List.flatMap_cons]
    unfold wrap
    simp only [List.append_assoc]

/-- A line mod that wraps nothing is left out. -/
def ofFront (line : Nat) (front : Lines) : Option LineMod :=
  if front.isEmpty then none else some (.ofConfig line front)

theorem flatMap_before_ofFront (line : Nat) (front : Lines) :
    (ofFront line front).toList.flatMap (·.before) = front := by
  cases front with
  | nil => rfl
  | cons l ls => exact List.append_nil _

theorem flatMap_after_ofFront (line : Nat) (front : Lines) :
    (ofFront line front).toList.reverse.flatMap (·.after) = [] := by
  cases front <;> rfl

end LineMod

/-! ## What stands around a snippet -/

/-- The lines that a language has in front of its snippets. Only a language with commands has any. -/
def LangDef.front : LangDef → Lines
  | .command d => d.beforeLines.getD []
  | .neverRun | .skip => []

/-- The lines in front of the snippets of a language, as far as it can be looked up and is known. -/
def Config.front (config : Config) (lang : String) : Lines :=
  match config.lang? lang with
  | .ok (some language) => language.front
  | .ok none | .error _ => []

namespace Scope

variable {scope : Scope} {p : Properties}

theorem configLineMod_eq (scope : Scope) (p : Properties) :
    scope.configLineMod p = do
      let language ← scope.language? p
      return LineMod.ofFront p.line (language.elim [] LangDef.front) := by
  unfold configLineMod
  congr 1
  funext language
  cases language with
  | none => rfl
  | some language =>
    cases language with
    | neverRun => rfl
    | skip => rfl
    | command d =>
      obtain ⟨_, _, _, _, beforeLines, _⟩ := d
      cases beforeLines <;> rfl

theorem configLineMod_eq_ok {m : Option LineMod} :
    scope.configLineMod p = .ok m ↔
      (∃ language, scope.config.lang? p.lang = .ok language) ∧
        m = LineMod.ofFront p.line (scope.config.front p.lang) := by
  have hfront : ∀ language, scope.config.lang? p.lang = .ok language →
      scope.config.front p.lang = language.elim [] LangDef.front := by
    intro language hlanguage
    unfold Config.front
    rw [hlanguage]
    cases language <;> rfl
  rw [configLineMod_eq, bind_eq_ok]
  constructor
  · rintro ⟨language, hlanguage, h⟩
    have hlookup := atLine_eq_ok.mp hlanguage
    cases h
    rw [hfront language hlookup]
    exact ⟨⟨language, hlookup⟩, rfl⟩
  · rintro ⟨⟨language, hlookup⟩, rfl⟩
    rw [hfront language hlookup]
    exact ⟨language, atLine_eq_ok.mpr hlookup, rfl⟩

/-- The lines of the configuration in front of a snippet, unless it asks for its own lines alone. -/
def front (scope : Scope) (p : Properties) : Lines :=
  if p.runLocalLines then [] else scope.config.front p.lang

/-- The line mods that were declared for the language of a snippet, with the same exception. -/
def declaredLineMods (scope : Scope) (p : Properties) : List LineMod :=
  if p.runLocalLines then [] else scope.lineMods.filter (·.lang? = some p.lang)

/-- The line mod that a snippet names itself, if its ID stands for one. -/
def ownLineMods (scope : Scope) (p : Properties) : List LineMod :=
  (p.applyToOuter.bind scope.document.lineMod?).toList

/-- Looks up what the language puts around a snippet. -/
def findForLanguage (scope : Scope) (p : Properties) : Except Fault (List LineMod) :=
  if p.runLocalLines then .ok []
  else do
    let config ← scope.configLineMod p
    return config.toList ++ scope.lineMods.filter (·.lang? = some p.lang)

/-- Looks up what the snippet puts around itself. -/
def findOwn (scope : Scope) (p : Properties) : Except Fault (List LineMod) :=
  match p.applyToOuter with
  | some id => (scope.lineMod p.line "applyToOuter" id).map ([·])
  | none => .ok []

theorem findForLanguage_eq_ok {mods : List LineMod} :
    scope.findForLanguage p = .ok mods ↔
      (p.runLocalLines = false → ∃ language, scope.config.lang? p.lang = .ok language) ∧
        mods = (LineMod.ofFront p.line (scope.front p)).toList ++ scope.declaredLineMods p := by
  unfold findForLanguage front declaredLineMods
  cases p.runLocalLines with
  | true =>
    constructor
    · intro h
      cases h
      exact ⟨fun hlocal => Bool.noConfusion hlocal, rfl⟩
    · rintro ⟨-, rfl⟩
      rfl
  | false =>
    rw [if_neg Bool.false_ne_true, if_neg Bool.false_ne_true, if_neg Bool.false_ne_true, bind_eq_ok]
    simp only [configLineMod_eq_ok]
    constructor
    · rintro ⟨m, ⟨hlookup, rfl⟩, h⟩
      exact ⟨fun _ => hlookup, (Except.ok.inj h).symm⟩
    · rintro ⟨hlookup, rfl⟩
      exact ⟨_, ⟨hlookup trivial, rfl⟩, rfl⟩

theorem findOwn_eq_ok {mods : List LineMod} :
    scope.findOwn p = .ok mods ↔
      (∀ id, p.applyToOuter = some id → (scope.document.lineMod? id).isSome) ∧
        mods = scope.ownLineMods p := by
  unfold findOwn ownLineMods
  cases p.applyToOuter with
  | none =>
    constructor
    · intro h
      cases h
      exact ⟨fun id hid => (nomatch hid), rfl⟩
    · rintro ⟨-, rfl⟩
      rfl
  | some id =>
    rw [Option.bind_some, map_eq_ok]
    simp only [lineMod_eq_ok, Option.some.injEq, forall_eq']
    cases scope.document.lineMod? id with
    | none => simp
    | some m => simp [eq_comm]

theorem outerLineMods_eq (scope : Scope) (p : Properties) :
    scope.outerLineMods p = do
      let ofLanguage ← scope.findForLanguage p
      let own ← scope.findOwn p
      return ofLanguage ++ own := by
  unfold outerLineMods findForLanguage findOwn
  cases p.runLocalLines with
  | true => cases p.applyToOuter <;> rfl
  | false =>
    simp only [Bool.false_eq_true, if_false, bind_assoc, pure_bind]
    cases p.applyToOuter <;> rfl

theorem outerLineMods_eq_ok {mods : List LineMod} :
    scope.outerLineMods p = .ok mods ↔
      (p.runLocalLines = false → ∃ language, scope.config.lang? p.lang = .ok language) ∧
        (∀ id, p.applyToOuter = some id → (scope.document.lineMod? id).isSome) ∧
        mods = (LineMod.ofFront p.line (scope.front p)).toList ++ scope.declaredLineMods p ++
          scope.ownLineMods p := by
  rw [outerLineMods_eq, bind_eq_ok]
  simp only [bind_eq_ok, findForLanguage_eq_ok, findOwn_eq_ok]
  constructor
  · rintro ⟨_, ⟨hlookup, rfl⟩, _, ⟨hresolved, rfl⟩, h⟩
    exact ⟨hlookup, hresolved, (Except.ok.inj h).symm⟩
  · rintro ⟨hlookup, hresolved, rfl⟩
    exact ⟨_, ⟨hlookup, rfl⟩, _, ⟨hresolved, rfl⟩, rfl⟩

/-! ## The outer lines -/

/-- The line mods of the three sources wrap lines. -/
theorem foldr_wrap_outer (scope : Scope) (p : Properties) (inner : Lines) :
    ((LineMod.ofFront p.line (scope.front p)).toList ++ scope.declaredLineMods p ++
        scope.ownLineMods p).foldr LineMod.wrap inner =
      scope.front p ++ (scope.declaredLineMods p).flatMap (·.before) ++
        (scope.ownLineMods p).flatMap (·.before) ++ inner ++
        (scope.ownLineMods p).flatMap (·.after) ++
        (scope.declaredLineMods p).reverse.flatMap (·.after) := by
  have hown : (scope.ownLineMods p).reverse = scope.ownLineMods p := by
    unfold ownLineMods
    cases p.applyToOuter.bind scope.document.lineMod? <;> rfl
  rw [LineMod.foldr_wrap, List.reverse_append, List.reverse_append, hown]
  simp only [List.flatMap_append, LineMod.flatMap_before_ofFront, LineMod.flatMap_after_ofFront,
    List.append_nil, List.append_assoc]

theorem outerLines_eq_ok {s : Snippet} {lines : Lines} :
    scope.outerLines s = .ok lines ↔
      ∃ mods inner, scope.outerLineMods s.properties = .ok mods ∧ scope.innerLines s = .ok inner ∧
        lines = mods.foldr LineMod.wrap inner := by
  unfold outerLines
  rw [bind_eq_ok]
  simp only [bind_eq_ok]
  constructor
  · rintro ⟨mods, hmods, inner, hinner, h⟩
    exact ⟨mods, inner, hmods, hinner, (Except.ok.inj h).symm⟩
  · rintro ⟨mods, inner, hmods, hinner, rfl⟩
    exact ⟨mods, hmods, inner, hinner, rfl⟩

/-- Of the line mods that are declared those for languages are kept, in their order. -/
theorem foldl_after_lineMods (scope : Scope) (declared : List LineMod) :
    (declared.map Entity.lineMod).foldl after scope =
      { scope with lineMods := scope.lineMods ++ declared.filter (·.lang?.isSome) } := by
  induction declared generalizing scope with
  | nil => simp
  | cons m declared ih =>
    rw [List.map_cons, List.foldl_cons, ih]
    by_cases hlang : m.lang?.isSome
    · simp [after, hlang]
    · simp [after, hlang]

theorem filter_lang_filter_isSome (declared : List LineMod) (lang : String) :
    (declared.filter (·.lang?.isSome)).filter (·.lang? = some lang) =
      declared.filter (·.lang? = some lang) := by
  rw [List.filter_filter]
  refine List.filter_congr fun m _ => ?_
  by_cases hlang : m.lang? = some lang
  · simp [hlang]
  · simp [hlang]

/-- **Outer lines are nested.** Let line mods be declared one after the other. Then a snippet has outer
lines if and only if it has inner lines, the line mod that it names itself can be found and, unless it
asks for its own lines alone, its language can be looked up. Its outer lines are its inner lines
between those of its own line mod, these between those of the line mods for its language, and in front
of them all the lines of the configuration. The line mods for the language open in the order of their
declarations and close in the opposite one. -/
theorem outerLines_nested (d : Document) (config : Config) (declared : List LineMod) (s : Snippet)
    (lines : Lines) :
    let scope : Scope := (declared.map Entity.lineMod).foldl after ⟨d, config, []⟩
    let p := s.properties
    let front := if p.runLocalLines then [] else config.front p.lang
    let mods := if p.runLocalLines then [] else declared.filter (·.lang? = some p.lang)
    let own := (p.applyToOuter.bind d.lineMod?).toList
    scope.outerLines s = .ok lines ↔
      (p.runLocalLines = false → ∃ language, config.lang? p.lang = .ok language) ∧
        (∀ id, p.applyToOuter = some id → (d.lineMod? id).isSome) ∧
        ∃ inner, scope.innerLines s = .ok inner ∧
          lines = front ++ mods.flatMap (·.before) ++ own.flatMap (·.before) ++ inner ++
            own.flatMap (·.after) ++ mods.reverse.flatMap (·.after) := by
  intro scope p front mods own
  have hscope : scope = ⟨d, config, declared.filter (·.lang?.isSome)⟩ :=
    foldl_after_lineMods ⟨d, config, []⟩ declared
  have hmods : scope.declaredLineMods p = mods := by
    unfold declaredLineMods
    rw [hscope, filter_lang_filter_isSome]
  have hfront : scope.front p = front := by
    unfold Scope.front
    rw [hscope]
  have hown : scope.ownLineMods p = own := by
    unfold ownLineMods
    rw [hscope]
  have hconfig : scope.config = config := by rw [hscope]
  have hdocument : scope.document = d := by rw [hscope]
  have hwrap := foldr_wrap_outer scope p
  rw [hmods, hfront, hown] at hwrap
  have hfound : ∀ mods, scope.outerLineMods p = .ok mods ↔ _ := fun _ => outerLineMods_eq_ok
  rw [hmods, hfront, hown, hconfig, hdocument] at hfound
  rw [outerLines_eq_ok]
  constructor
  · rintro ⟨_, inner, hmods, hinner, rfl⟩
    obtain ⟨hlookup, hresolved, rfl⟩ := (hfound _).mp hmods
    exact ⟨hlookup, hresolved, inner, hinner, hwrap inner⟩
  · rintro ⟨hlookup, hresolved, inner, hinner, rfl⟩
    exact ⟨_, inner, (hfound _).mpr ⟨hlookup, hresolved, rfl⟩, hinner, (hwrap inner).symm⟩

/-- Two line mods for a language, one for another language in between, and one that the snippet names. -/
example :
    let around (line : Nat) (kind : LineModKind) (name : String) : LineMod :=
      { LineMod.plain line kind with before := ["open " ++ name], after := ["close " ++ name] }
    let d : Document := .ofEntities [.lineMod (around 1 (.appliable "own") "own")]
    let declared := [around 3 (.language "js") "first", around 5 (.language "sh") "other",
      around 7 (.language "js") "second"]
    let scope : Scope := (declared.map Entity.lineMod).foldl after ⟨d, .builtin, []⟩
    let s : Snippet := .single ⟨{ Properties.bare 9 "js" with applyToOuter := some "own" }, ["code"]⟩
    (scope.outerLines s).toOption = some ["import assert from 'node:assert/strict';", "open first",
      "open second", "open own", "code", "close own", "close second", "close first"] := by
  decide +kernel

end Scope

end Doctest
