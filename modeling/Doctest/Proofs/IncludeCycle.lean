import Doctest.Proofs.Includes
import Mathlib.Data.List.Chain

/-!
# Cycles of includes

The walk that puts lines together keeps the path of the IDs it came along and refuses an ID that is
on it. Here its verdict is compared with the relation `Document.Includes`, which knows no paths.

* `Walk`: a way of following includes together with its path. The invariant that carries all proofs
  is that every ID on the path includes, over one or more steps, whatever is included at its end.
* `innerLines_ok_iff`: a snippet has inner lines if and only if no cycle is met, every ID that is
  met stands for a snippet, and every body that is met can be edited and translated. A fault about a
  cycle names a chain of includes that comes back to one of its IDs.
-/

namespace Doctest

open Relation (TransGen)

/-! ## Walks -/

/-- Includes can be followed from `s` along the path to a snippet. The path begins with the
snippet's own ID if it has one. -/
inductive Walk (d : Document) (s : Snippet) : List String → Snippet → Prop
  | start : Walk d s s.id.toList s
  | enter {path : List String} {t u : Snippet} {id : String} (h : Walk d s path t)
      (hid : t.Includes id) (hu : d.snippet? id = some u) : Walk d s (path ++ [id]) u

/-- The snippet is what its own ID stands for. -/
def Document.Names (d : Document) (s : Snippet) : Prop :=
  ∀ id, s.id = some id → d.snippet? id = some s

namespace Walk

variable {d : Document} {s t : Snippet} {path : List String}

theorem reaches (h : Walk d s path t) : d.Reaches s t := by
  induction h with
  | start => exact .self
  | enter _ hid hu ih => exact .step ih hid hu

theorem exists_of_reaches (h : d.Reaches s t) : ∃ path, Walk d s path t := by
  induction h with
  | self => exact ⟨_, .start⟩
  | step _ hid hu ih =>
    obtain ⟨path, hw⟩ := ih
    exact ⟨_, .enter hw hid hu⟩

/-- **The invariant of the path.** From every ID on the path, includes lead to whatever the snippet
at its end includes. -/
theorem transGen (hs : d.Names s) (h : Walk d s path t) {a : String} (ha : a ∈ path) {b : String}
    (hb : t.Includes b) : TransGen d.Includes a b := by
  induction h generalizing b with
  | start => exact .single ⟨s, hs a (by simpa using ha), hb⟩
  | enter _ hid hu ih =>
    rcases List.mem_append.mp ha with ha | ha
    · exact .tail (ih ha hid) ⟨_, hu, hb⟩
    · obtain rfl := List.mem_singleton.mp ha
      exact .single ⟨_, hu, hb⟩

/-- The own ID of the snippet at the end of the path is on the path. -/
theorem mem_path (hd : d.IndexSound) (h : Walk d s path t) {id : String} (hid : t.id = some id) :
    id ∈ path := by
  cases h with
  | start => simp [hid]
  | @enter path u _ k _ _ hu =>
    have hk : t.id = some k := hd k t hu
    rw [hid] at hk
    cases hk
    simp

/-- A walk can be continued along a chain of includes that begins at the end of its path. -/
theorem exists_of_transGen (h : Walk d s path t) {a b : String} (ha : a ∈ path)
    (hat : d.snippet? a = some t) (hab : TransGen d.Includes a b) :
    ∃ path' t', Walk d s path' t' ∧ a ∈ path' ∧ t'.Includes b := by
  induction hab with
  | single hinc =>
    obtain ⟨t', ht', hb⟩ := hinc
    rw [hat] at ht'
    cases ht'
    exact ⟨path, t, h, ha, hb⟩
  | tail _ hinc ih =>
    obtain ⟨path', t', hw, ha', hb⟩ := ih
    obtain ⟨u, hu, hc⟩ := hinc
    exact ⟨_, u, .enter hw hb hu, List.mem_append_left _ ha', hc⟩

/-- The path with one more ID is a chain of includes. -/
theorem isChain (hs : d.Names s) (h : Walk d s path t) {id : String} (hid : t.Includes id) :
    (path ++ [id]).IsChain d.Includes := by
  induction h generalizing id with
  | start =>
    cases hown : s.id with
    | none => exact List.IsChain.singleton id
    | some own => exact List.isChain_pair.mpr ⟨s, hs own hown, hid⟩
  | enter _ hk hu ih =>
    refine (ih hk).append (List.IsChain.singleton id) ?_
    intro x hx y hy
    obtain rfl : _ = x := by simpa using hx
    obtain rfl : _ = y := by simpa using hy
    exact ⟨_, hu, hid⟩

/-- The path with one more ID begins at the snippet where the walk began. -/
theorem head?_path (h : Walk d s path t) {id : String} (hid : t.Includes id) :
    ∃ first, (path ++ [id]).head? = some first ∧
      (s.id = some first ∨ s.id = none ∧ s.Includes first) := by
  induction h generalizing id with
  | start =>
    cases hown : s.id with
    | none => exact ⟨id, rfl, .inr ⟨rfl, hid⟩⟩
    | some own => exact ⟨own, rfl, .inl rfl⟩
  | enter _ hk _ ih =>
    obtain ⟨first, hfirst, h⟩ := ih hk
    exact ⟨first, by rw [List.head?_append, hfirst]; rfl, h⟩

/-- Every ID on the path belongs to a snippet that was met. -/
theorem exists_of_mem_path (hd : d.IndexSound) (h : Walk d s path t) {id : String}
    (hid : id ∈ path) : ∃ u, d.Reaches s u ∧ u.id = some id := by
  induction h with
  | start => exact ⟨s, .self, by simpa using hid⟩
  | @enter _ _ u k hw hk hu ih =>
    rcases List.mem_append.mp hid with hid | hid
    · exact ih hid
    · obtain rfl := List.mem_singleton.mp hid
      exact ⟨u, .step hw.reaches hk hu, hd _ u hu⟩

end Walk

/-! ## The walk of the lines -/

namespace Scope

variable {scope : Scope} {path : List String} {s t : Snippet}

/-- What has lines at the end of a path: its bodies have, and everything that it includes stands for
a snippet, is not on the path, and has lines. -/
theorem exists_of_linesAlong (h : ∃ lines, scope.linesAlong path t = .ok lines) :
    (∀ e ∈ t.elements, ∃ body, scope.bodyLines e = .ok body) ∧
      ∀ id, t.Includes id → id ∉ path ∧ ∃ u, scope.document.snippet? id = some u ∧
        ∃ lines, scope.linesAlong (path ++ [id]) u = .ok lines := by
  obtain ⟨lines, h⟩ := h
  obtain ⟨part, hpart, -⟩ := linesAlong_eq_ok.mp h
  refine ⟨fun e he => ?_, ?_⟩
  · obtain ⟨body, _, hbody, -⟩ := partLines_eq_ok.mp (hpart e he)
    exact ⟨body, hbody⟩
  · rintro id ⟨e, he, hid, hne⟩
    obtain ⟨_, inner, -, hinner, -⟩ := partLines_eq_ok.mp (hpart e he)
    obtain ⟨hpath, u, hu, hlines⟩ := includeLines_eq_ok.mp (hinner id hid hne)
    exact ⟨hpath, u, hu, _, hlines⟩

/-- Where a walk has lines, all its ends have. -/
theorem linesAlong_of_walk (h : ∃ lines, scope.innerLines s = .ok lines)
    (hw : Walk scope.document s path t) : ∃ lines, scope.linesAlong path t = .ok lines := by
  induction hw with
  | start => exact h
  | enter _ hid hu ih =>
    obtain ⟨-, u, hu', hlines⟩ := (exists_of_linesAlong ih).2 _ hid
    rw [hu] at hu'
    cases hu'
    exact hlines

/-- What stops the walk at its end: a body, an ID that is on the path already, or an ID that stands
for no snippet. -/
inductive Stops (scope : Scope) (path : List String) (t : Snippet) (fault : Fault) : Prop
  | body (e : Element) (he : e ∈ t.elements) (h : scope.bodyLines e = .error fault)
  | cycle (id : String) (hid : t.Includes id) (hpath : id ∈ path)
      (h : fault.cause.includeCycle? = some (path ++ [id]))
  | unresolved (id : String) (hid : t.Includes id) (hnone : scope.document.snippet? id = none)
      (h : fault.cause.includeCycle? = none)

/-- Every fault of the walk comes from a place where it stops. -/
theorem exists_stops {fault : Fault} (hw : Walk scope.document s path t)
    (h : scope.linesAlong path t = .error fault) :
    ∃ path' t', Walk scope.document s path' t' ∧ scope.Stops path' t' fault := by
  induction path, t using Scope.linesAlong.induct scope with
  | case1 path t ih =>
    rcases linesAlong_eq_error h with ⟨e, he, hbody⟩ | ⟨id, hid, hcase⟩
    · exact ⟨path, t, hw, .body e he hbody⟩
    · rcases hcase with ⟨hpath, hcycle⟩ | ⟨hnone, hother⟩ | ⟨hpath, u, hu, hlines⟩
      · exact ⟨path, t, hw, .cycle id hid hpath hcycle⟩
      · exact ⟨path, t, hw, .unresolved id hid hnone hother⟩
      · -- The fault was passed on by what is included here: look for it there.
        have hw' : Walk scope.document s (path ++ [id]) u := .enter hw hid hu
        obtain ⟨e, -, -⟩ := hid
        exact ih e id hpath u (snippet_eq_ok.mpr hu) hw' hlines

end Scope

/-! ## What the walk decides -/

namespace Document

/-- No ID of a snippet that is met from `s` leads back to itself. -/
def Acyclic (d : Document) (s : Snippet) : Prop :=
  ∀ t, d.Reaches s t → ∀ id, t.id = some id → ¬TransGen d.Includes id id

/-- Every ID that is met from `s` stands for a snippet. -/
def Resolved (d : Document) (s : Snippet) : Prop :=
  ∀ t, d.Reaches s t → ∀ id, t.Includes id → (d.snippet? id).isSome

/-- The IDs are a chain of includes that begins at `s` and comes back to one of its IDs. -/
structure CyclicChain (d : Document) (s : Snippet) (ids : List String) : Prop where
  includes : ids.IsChain d.Includes
  start : ∃ first, ids.head? = some first ∧ (s.id = some first ∨ s.id = none ∧ s.Includes first)
  back : ∃ last, ids.getLast? = some last ∧ last ∈ ids.dropLast

end Document

/-- Every body that is met from `s` can be edited and translated. -/
def Scope.BodiesOk (scope : Scope) (s : Snippet) : Prop :=
  ∀ t, scope.document.Reaches s t → ∀ e ∈ t.elements, ∃ body, scope.bodyLines e = .ok body

/-- An ID that was met and leads back to itself would be included again on its own path. -/
theorem acyclic_of_innerLines {scope : Scope} {s : Snippet} (hd : scope.document.IndexSound)
    (hs : scope.document.Names s) (h : ∃ lines, scope.innerLines s = .ok lines) :
    scope.document.Acyclic s := by
  intro t ht id hid hcycle
  obtain ⟨path, hw⟩ := Walk.exists_of_reaches ht
  have hnames : scope.document.snippet? id = some t := by
    cases ht with
    | self => exact hs id hid
    | @step _ _ k _ _ hu =>
      have hk : t.id = some k := hd k t hu
      rw [hid] at hk
      cases hk
      exact hu
  -- Once around the cycle the walk meets the ID again, and there it cannot have had lines.
  obtain ⟨path', t', hw', hmem, hinc⟩ := hw.exists_of_transGen (hw.mem_path hd hid) hnames hcycle
  obtain ⟨hnot, -⟩ := (Scope.exists_of_linesAlong (Scope.linesAlong_of_walk h hw')).2 id hinc
  exact hnot hmem

section Verdict

variable {d : Document} {s t : Snippet} {path : List String}

/-- A walk that stops at an ID on its path has met a cycle. -/
theorem not_acyclic_of_walk (hd : d.IndexSound) (hs : d.Names s) (hw : Walk d s path t)
    {id : String} (hid : t.Includes id) (hpath : id ∈ path) : ¬d.Acyclic s := by
  intro hacyclic
  obtain ⟨u, hu, hown⟩ := hw.exists_of_mem_path hd hpath
  exact hacyclic u hu id hown (hw.transGen hs hpath hid)

theorem cyclicChain_of_walk (hs : d.Names s) (hw : Walk d s path t) {id : String}
    (hid : t.Includes id) (hpath : id ∈ path) : d.CyclicChain s (path ++ [id]) where
  includes := hw.isChain hs hid
  start := hw.head?_path hid
  back := ⟨id, List.getLast?_concat, by rwa [List.dropLast_concat]⟩

end Verdict

namespace Scope

variable {scope : Scope} {s t : Snippet} {path : List String}

/-- Where the document gives no reason to stop, there are lines. -/
theorem exists_innerLines (hd : scope.document.IndexSound) (hs : scope.document.Names s)
    (hacyclic : scope.document.Acyclic s) (hresolved : scope.document.Resolved s)
    (hbodies : scope.BodiesOk s) : ∃ lines, scope.innerLines s = .ok lines := by
  cases hlines : scope.innerLines s with
  | ok lines => exact ⟨lines, rfl⟩
  | error fault =>
    exfalso
    obtain ⟨path, t, hw, hstop⟩ := exists_stops .start hlines
    cases hstop with
    | body e he herror =>
      obtain ⟨body, hbody⟩ := hbodies t hw.reaches e he
      rw [herror] at hbody
      cases hbody
    | cycle id hid hpath _ => exact not_acyclic_of_walk hd hs hw hid hpath hacyclic
    | unresolved id hid hnone _ =>
      have hsome := hresolved t hw.reaches id hid
      rw [hnone] at hsome
      cases hsome

/-- A fault about a cycle comes from a cycle, and it names a chain that comes back. -/
theorem Stops.cyclicChain {fault : Fault} (hd : scope.document.IndexSound)
    (hs : scope.document.Names s) (hw : Walk scope.document s path t)
    (hstop : scope.Stops path t fault) {ids : List String}
    (hids : fault.cause.includeCycle? = some ids) :
    ¬scope.document.Acyclic s ∧ scope.document.CyclicChain s ids := by
  cases hstop with
  | body e he herror =>
    rw [(scope.bodyLines_faults e fault herror).2] at hids
    cases hids
  | cycle id hid hpath hcycle =>
    rw [hcycle] at hids
    cases hids
    exact ⟨not_acyclic_of_walk hd hs hw hid hpath, cyclicChain_of_walk hs hw hid hpath⟩
  | unresolved id _ _ hnone =>
    rw [hnone] at hids
    cases hids

end Scope

theorem Cause.message_of_includeCycle? {cause : Cause} {ids : List String}
    (h : cause.includeCycle? = some ids) :
    cause.message = "Cycle in includes: " ++ " → ".intercalate ids := by
  unfold includeCycle? at h
  split at h
  · cases h
    rfl
  · cases h

/-- **When a snippet has inner lines.** No cycle of includes is met, every ID that is met stands for
a snippet, and every body that is met can be edited and translated. A fault about a cycle is given
only where there is one, and the chain of includes that it names comes back to one of its IDs. -/
theorem innerLines_ok_iff (es : List Entity) (config : Config) (lineMods : List LineMod)
    (hd : (Document.ofEntities es).DistinctSnippetIds) (s : Snippet)
    (hs : s ∈ (Document.ofEntities es).snippets) :
    let d := Document.ofEntities es
    let scope : Scope := ⟨d, config, lineMods⟩
    ((∃ lines, scope.innerLines s = .ok lines) ↔
        d.Acyclic s ∧ d.Resolved s ∧ scope.BodiesOk s) ∧
      ∀ fault ids, scope.innerLines s = .error fault → fault.cause.includeCycle? = some ids →
        fault.message = "Cycle in includes: " ++ " → ".intercalate ids ∧
          ¬d.Acyclic s ∧ d.CyclicChain s ids := by
  intro d scope
  have hsound : d.IndexSound := Document.indexSound_ofEntities es
  have hnames : d.Names s := fun id hid => Document.snippet?_of_mem hd hs hid
  refine ⟨⟨fun h => ⟨acyclic_of_innerLines hsound hnames h, ?_, ?_⟩, ?_⟩, ?_⟩
  · intro t ht id hid
    obtain ⟨path, hw⟩ := Walk.exists_of_reaches ht
    obtain ⟨-, u, hu, -⟩ := (Scope.exists_of_linesAlong (Scope.linesAlong_of_walk h hw)).2 id hid
    exact Option.isSome_of_eq_some hu
  · intro t ht
    obtain ⟨path, hw⟩ := Walk.exists_of_reaches ht
    exact (Scope.exists_of_linesAlong (Scope.linesAlong_of_walk h hw)).1
  · rintro ⟨hacyclic, hresolved, hbodies⟩
    exact Scope.exists_innerLines hsound hnames hacyclic hresolved hbodies
  · intro fault ids hlines hids
    obtain ⟨path, t, hw, hstop⟩ := Scope.exists_stops .start hlines
    exact ⟨Cause.message_of_includeCycle? hids, hstop.cyclicChain hsound hnames hw hids⟩

/-- A snippet with an ID and without code. -/
def Snippet.including (line : Nat) (id : String) (includes : List String) : Snippet :=
  .single ⟨{ Properties.bare line "text" with id := some id, includes }, []⟩

/-- Two snippets that include each other. -/
def mutualIncludes : List Entity :=
  [.snippet (.including 3 "a" ["b"]), .snippet (.including 9 "b" ["a"])]

theorem not_innerLines_mutualIncludes :
    let d := Document.ofEntities mutualIncludes
    d.DistinctSnippetIds ∧ Snippet.including 3 "a" ["b"] ∈ d.snippets ∧
      ¬∃ lines, Scope.innerLines ⟨d, .builtin, []⟩ (.including 3 "a" ["b"]) = .ok lines := by
  intro d
  have hd : d.DistinctSnippetIds := by
    show List.Nodup _
    decide
  have hs : Snippet.including 3 "a" ["b"] ∈ d.snippets := List.mem_cons_self
  refine ⟨hd, hs, fun hlines => ?_⟩
  obtain ⟨hacyclic, -⟩ := (innerLines_ok_iff mutualIncludes .builtin [] hd _ hs).1.mp hlines
  have hab : d.Includes "a" "b" :=
    ⟨.including 3 "a" ["b"], rfl, _, List.mem_cons_self, List.mem_cons_self, by decide⟩
  have hba : d.Includes "b" "a" :=
    ⟨.including 9 "b" ["a"], rfl, _, List.mem_cons_self, List.mem_cons_self, by decide⟩
  exact hacyclic _ .self "a" rfl (.tail (.single hab) hba)

end Doctest
