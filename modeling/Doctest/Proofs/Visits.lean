import Doctest.Proofs.TokenContext
import Doctest.Proofs.Writes

/-!
# What a run knows at each entity

A run visits the entities of a document one after the other, and whatever a visit comes to, it goes on
unless a file cannot be written. Here the states that it gets into are compared with what stands in
the document in front of the entity.

* `Document.RunsTo`: the run gets to an entity, in a state and a world.
* `RunsTo.visitAll_eq`, `runsTo_of_run`: a run is what is visited from any of these states on, and a
  run that is not aborted gets to the end.
* `scope_of_visit`: one visit changes the configuration and the line mods for languages as the entity
  says, and in no other way.
* `runsTo_declared`: at each entity they are those declared in front of it.
-/

namespace Doctest

namespace Entity

def patch? : Entity → Option ConfigPatch
  | .config _ patch => some patch
  | .heading _ | .lineMod _ | .snippet _ => none

def lineMod? : Entity → Option LineMod
  | .lineMod m => some m
  | .config .. | .heading _ | .snippet _ => none

end Entity

/-! ## What is known of each entry by those in front of it -/

section Entries

variable {α β : Type} {Φ : List (α × β) → α → β → Prop}

theorem forall_split_nil (before : List (α × β)) (a : α) (b : β) (after : List (α × β))
    (h : [] = before ++ (a, b) :: after) : Φ before a b := by
  cases before <;> cases h

/-- One more entry at the end of a list. -/
theorem forall_split_concat {l : List (α × β)} {a : α} {b : β} :
    (∀ before a' b' after, l ++ [(a, b)] = before ++ (a', b') :: after → Φ before a' b') ↔
      (∀ before a' b' after, l = before ++ (a', b') :: after → Φ before a' b') ∧ Φ l a b := by
  constructor
  · intro h
    refine ⟨?_, h l a b [] rfl⟩
    rintro before a' b' after rfl
    exact h before a' b' (after ++ [(a, b)]) (List.append_assoc ..)
  · rintro ⟨h, hlast⟩ before a' b' after hsplit
    rcases List.eq_nil_or_concat after with rfl | ⟨after, last, rfl⟩
    · obtain ⟨rfl, hsame⟩ := List.append_inj' hsplit rfl
      cases hsame
      exact hlast
    · rw [List.concat_eq_append, ← List.cons_append, ← List.append_assoc] at hsplit
      exact h before a' b' after (List.append_inj' hsplit rfl).1

end Entries

/-! ## Steps in a world -/

section Steps

variable {σ α β : Type} {w w' : World σ}

theorem bind_apply {x : StateM (World σ) α} {f : α → StateM (World σ) β} {a : α}
    (h : x w = (a, w')) : (x >>= f) w = f a w' := by
  show f (x w).1 (x w).2 = f a w'
  rw [h]

theorem Host.ask_apply (host : Host σ) (call : Call) (w : World σ) :
    host.ask call w = ((host.answer call w.state).1,
      ⟨(host.answer call w.state).2, w.calls ++ [call]⟩) := rfl

theorem Action.run_bind {x : Action σ α} {f : α → Action σ β} :
    (x >>= f).run w =
      match x.run w with
      | (.ok a, v) => (f a).run v
      | (.error stop, v) => (.error stop, v) := by
  rw [ExceptT.run_bind]
  cases hx : x.run w with
  | mk result v =>
    rw [bind_apply hx]
    cases result <;> rfl

end Steps

/-! ## Runs and visits -/

/-- The run of a document is about to visit the entity with the number `i`, in this state and world.
Entities are counted from zero; behind the last one the run is at its end. -/
inductive Document.RunsTo {σ : Type} (d : Document) (host : Host σ) (config : Config)
    (w₀ : World σ) : Nat → RunState → World σ → Prop
  | start : d.RunsTo host config w₀ 0 (.start d config) w₀
  | visit {i : Nat} {st st' : RunState} {w w' : World σ} {e : Entity}
      (h : d.RunsTo host config w₀ i st w) (he : d.entities[i]? = some e)
      (hvisit : st.visit d host e w = (.ok st', w')) : d.RunsTo host config w₀ (i + 1) st' w'

namespace Document

variable {σ : Type} {d : Document} {host : Host σ} {config : Config} {w₀ w w' : World σ} {i : Nat}
  {st st' : RunState}

theorem visitAll_cons (st : RunState) (e : Entity) (es : List Entity) (w : World σ) :
    RunState.visitAll d host st (e :: es) w =
      match st.visit d host e w with
      | (.ok st', w') => RunState.visitAll d host st' es w'
      | (.error a, w') => (.error a, w') := by
  rw [RunState.visitAll]
  cases hvisit : st.visit d host e w with
  | mk result w' =>
    rw [bind_apply hvisit]
    cases result <;> rfl

theorem RunsTo.visitAll_eq (h : d.RunsTo host config w₀ i st w) :
    RunState.visitAll d host (.start d config) d.entities w₀ =
      RunState.visitAll d host st (d.entities.drop i) w := by
  induction h with
  | start => rfl
  | @visit i st st' w w' e _ he hvisit ih =>
    obtain ⟨hi, rfl⟩ := List.getElem?_eq_some_iff.mp he
    rw [ih, List.drop_eq_getElem_cons hi, visitAll_cons, hvisit]

theorem RunsTo.le_length (h : d.RunsTo host config w₀ i st w) : i ≤ d.entities.length := by
  induction h with
  | start => exact Nat.zero_le _
  | visit _ he _ _ => exact (List.getElem?_eq_some_iff.mp he).1

theorem of_drop_eq_cons {e : Entity} {es : List Entity} (h : d.entities.drop i = e :: es) :
    d.entities[i]? = some e ∧ d.entities.drop (i + 1) = es := by
  rw [← List.head?_drop, ← List.tail_drop, h]
  exact ⟨rfl, rfl⟩

/-- What is visited up to the end leads to the end. -/
theorem RunsTo.of_visitAll {es : List Entity} (h : d.RunsTo host config w₀ i st w)
    (hes : d.entities.drop i = es) (hall : RunState.visitAll d host st es w = (.ok st', w')) :
    d.RunsTo host config w₀ d.entities.length st' w' := by
  induction es generalizing i st w with
  | nil =>
    cases hall
    have hi : i = d.entities.length := h.le_length.antisymm (List.drop_eq_nil_iff.mp hes)
    exact hi ▸ h
  | cons e es ih =>
    obtain ⟨he, hdrop⟩ := of_drop_eq_cons hes
    rw [visitAll_cons] at hall
    cases hvisit : st.visit d host e w with
    | mk result v =>
      rw [hvisit] at hall
      cases result with
      | error a => cases hall
      | ok st₁ => exact ih (.visit h he hvisit) hdrop hall

/-- A run that is not aborted gets to the end, and adds its warnings there. -/
theorem runsTo_of_run {report : Report} (h : d.run host config w₀ = (.ok report, w')) :
    ∃ st, d.RunsTo host config w₀ d.entities.length st w' ∧
      report = st.report.recordAll (d.unusedIds.map .warning) := by
  unfold run at h
  cases hall : RunState.visitAll d host (.start d config) d.entities w₀ with
  | mk result v =>
    rw [bind_apply hall] at h
    cases result with
    | error a => cases h
    | ok st =>
      cases h
      exact ⟨st, RunsTo.of_visitAll .start rfl hall, rfl⟩

/-! ## Where a run is aborted -/

theorem RunsTo.unique (h : d.RunsTo host config w₀ i st w) (h' : d.RunsTo host config w₀ i st' w') :
    st = st' ∧ w = w' := by
  induction h generalizing st' w' with
  | start =>
    cases h'
    exact ⟨rfl, rfl⟩
  | visit _ he hvisit ih =>
    cases h' with
    | visit h' he' hvisit' =>
      obtain ⟨rfl, rfl⟩ := ih h'
      cases he.symm.trans he'
      cases hvisit.symm.trans hvisit'
      exact ⟨rfl, rfl⟩

/-- A run gets to an entity by the entities in front of it. -/
theorem RunsTo.of_le {j : Nat} (h : d.RunsTo host config w₀ j st w) (hi : i ≤ j) :
    ∃ st' w', d.RunsTo host config w₀ i st' w' := by
  induction h with
  | start =>
    obtain rfl : i = 0 := Nat.le_zero.mp hi
    exact ⟨_, _, .start⟩
  | visit h he hvisit ih =>
    rcases Nat.le_succ_iff.mp hi with hi | rfl
    · exact ih hi
    · exact ⟨_, _, .visit h he hvisit⟩

/-- No entity is visited behind one that aborts the run. -/
theorem RunsTo.le_of_aborted {e : Entity} {a : Abort} {j : Nat} {v : World σ}
    (h : d.RunsTo host config w₀ i st w) (he : d.entities[i]? = some e)
    (hvisit : st.visit d host e w = (.error a, v)) (h' : d.RunsTo host config w₀ j st' w') :
    j ≤ i := by
  by_contra hj
  obtain ⟨_, _, hnext⟩ := h'.of_le (Nat.lt_of_not_le hj)
  cases hnext with
  | visit hhere he' hvisit' =>
    obtain ⟨rfl, rfl⟩ := h.unique hhere
    cases he.symm.trans he'
    cases hvisit.symm.trans hvisit'

theorem RunsTo.of_visitAll_error {es : List Entity} {a : Abort} (h : d.RunsTo host config w₀ i st w)
    (hes : d.entities.drop i = es) (hall : RunState.visitAll d host st es w = (.error a, w')) :
    ∃ j st' v e, d.RunsTo host config w₀ j st' v ∧ d.entities[j]? = some e ∧
      st'.visit d host e v = (.error a, w') := by
  induction es generalizing i st w with
  | nil => cases hall
  | cons e es ih =>
    obtain ⟨he, hdrop⟩ := of_drop_eq_cons hes
    rw [visitAll_cons] at hall
    cases hvisit : st.visit d host e w with
    | mk result v =>
      rw [hvisit] at hall
      cases result with
      | ok st₁ => exact ih (.visit h he hvisit) hdrop hall
      | error a' =>
        cases hall
        exact ⟨i, st, w, e, h, he, hvisit⟩

/-- A run that is aborted gets to an entity that does it, and no further. -/
theorem runsTo_of_aborted {a : Abort} (h : d.run host config w₀ = (.error a, w')) :
    ∃ i st w e, d.RunsTo host config w₀ i st w ∧ d.entities[i]? = some e ∧
      st.visit d host e w = (.error a, w') := by
  unfold run at h
  cases hall : RunState.visitAll d host (.start d config) d.entities w₀ with
  | mk result v =>
    rw [bind_apply hall] at h
    cases result with
    | ok st => cases h
    | error a' =>
      cases h
      exact RunsTo.of_visitAll_error .start rfl hall

/-! ## What is declared -/

/-- The fault of a directory that the host does not accept. -/
def rejection? (host : Host σ) (w : World σ) (line : Nat) (p : ConfigPatch) : Option Fault :=
  p.directory.bind fun directory =>
    match (host.answer (.useDirectory directory) w.state).1 with
    | .ok () => none
    | .error reason => some (.atLine line (RunCause.unusableDirectory directory reason))

/-- A patch counts whether or not its directory is accepted. -/
theorem patch_apply (st : RunState) (line : Nat) (p : ConfigPatch) (w : World σ) :
    (st.patch host line p w).1 =
      { st with
        config := st.config.apply p
        report := st.report.recordAll ((rejection? host w line p).toList.map .fault) } := by
  unfold RunState.patch rejection?
  cases p.directory with
  | none => rfl
  | some directory =>
    dsimp only [Option.bind_some]
    rw [bind_apply (host.ask_apply _ w)]
    cases (host.answer (.useDirectory directory) w.state).1 with
    | ok _ => rfl
    | error reason => rfl

theorem scope_of_conclude {line : Nat} {result : Except Stop Outcome}
    (h : st.conclude line result = .ok st') : st'.scope d = st.scope d := by
  unfold RunState.conclude at h
  split at h
  · cases h
    rfl
  · cases h
    exact RunState.scope_log d st _
  · cases h
    exact RunState.scope_log d st _
  · cases h
    exact RunState.scope_log d st _
  · cases h

theorem visit_config (line : Nat) (p : ConfigPatch) :
    st.visit d host (.config line p) w =
      (.ok (st.patch host line p w).1, (st.patch host line p w).2) := rfl

theorem visit_snippet (s : Snippet) :
    st.visit d host (.snippet s) w =
      if s.isRun d.hasOnly then
        (st.conclude s.line (((st.scope d).handle host s).run w).1,
          (((st.scope d).handle host s).run w).2)
      else (.ok st, w) := by
  simp only [RunState.visit]
  split <;> rfl

/-- One visit leads to the scope behind the entity. -/
theorem scope_of_visit {e : Entity} (h : st.visit d host e w = (.ok st', w')) :
    st'.scope d = (st.scope d).after e := by
  cases e with
  | heading heading =>
    cases h
    rfl
  | config line p =>
    rw [visit_config, patch_apply] at h
    cases h
    rfl
  | lineMod m =>
    cases h
    simp only [Scope.after]
    split <;> rfl
  | snippet s =>
    rw [visit_snippet] at h
    split at h
    · exact scope_of_conclude (congrArg Prod.fst h)
    · cases h
      rfl

theorem RunsTo.scope_eq (h : d.RunsTo host config w₀ i st w) :
    st.scope d = (d.entities.take i).foldl Scope.after ⟨d, config, []⟩ := by
  induction h with
  | start => rfl
  | visit _ he hvisit ih =>
    rw [scope_of_visit hvisit, ih, List.take_add_one, he, Option.toList_some, List.foldl_concat]

/-- Entities leave behind the patches and the line mods for languages among them, in their order. -/
theorem foldl_after (es : List Entity) (scope : Scope) :
    (es.foldl Scope.after scope).config =
        (es.filterMap Entity.patch?).foldl Config.apply scope.config ∧
      (es.foldl Scope.after scope).lineMods =
        scope.lineMods ++ (es.filterMap Entity.lineMod?).filter (·.lang?.isSome) := by
  induction es generalizing scope with
  | nil => exact ⟨rfl, (List.append_nil _).symm⟩
  | cons e es ih =>
    obtain ⟨hconfig, hlineMods⟩ := ih (scope.after e)
    rw [List.foldl_cons, hconfig, hlineMods]
    cases e with
    | config line patch => exact ⟨rfl, rfl⟩
    | heading h => exact ⟨rfl, rfl⟩
    | snippet s => exact ⟨rfl, rfl⟩
    | lineMod m =>
      by_cases hlang : m.lang?.isSome
      · have hafter : scope.after (.lineMod m) = { scope with lineMods := scope.lineMods ++ [m] } :=
          if_pos hlang
        rw [hafter]
        exact ⟨rfl, by simp [Entity.lineMod?, hlang]⟩
      · have hafter : scope.after (.lineMod m) = scope := if_neg hlang
        rw [hafter]
        exact ⟨rfl, by simp [Entity.lineMod?, hlang]⟩

/-- **What is declared so far.** When a run gets to an entity, the configuration is the one that the
run was started with after all patches in front of the entity, and the line mods for a language are
those that stand in front of the entity, both in document order, whatever the snippets in front of it
came to. In this state the run goes on with the entity. What stands behind it has no influence. -/
theorem runsTo_declared (h : d.RunsTo host config w₀ i st w) :
    st.config = ((d.entities.take i).filterMap Entity.patch?).foldl Config.apply config ∧
      (∀ lang, st.lineMods.filter (·.lang? = some lang) =
        ((d.entities.take i).filterMap Entity.lineMod?).filter (·.lang? = some lang)) ∧
      RunState.visitAll d host (.start d config) d.entities w₀ =
        RunState.visitAll d host st (d.entities.drop i) w ∧
      ∀ {τ : Type} (d' : Document) (host' : Host τ) (w₀' w' : World τ) (st' : RunState),
        d'.entities.take i = d.entities.take i → d'.RunsTo host' config w₀' i st' w' →
          st'.config = st.config ∧ st'.lineMods = st.lineMods := by
  have hscope {τ : Type} {d' : Document} {host' : Host τ} {w₀' w' : World τ} {st' : RunState}
      (h' : d'.RunsTo host' config w₀' i st' w') :
      st'.config = ((d'.entities.take i).filterMap Entity.patch?).foldl Config.apply config ∧
        st'.lineMods = ((d'.entities.take i).filterMap Entity.lineMod?).filter (·.lang?.isSome) := by
    obtain ⟨hconfig, hlineMods⟩ := foldl_after (d'.entities.take i) ⟨d', config, []⟩
    rw [← h'.scope_eq] at hconfig hlineMods
    exact ⟨hconfig, hlineMods⟩
  obtain ⟨hconfig, hlineMods⟩ := hscope h
  refine ⟨hconfig, fun lang => ?_, h.visitAll_eq, fun d' host' w₀' w' st' hsame h' => ?_⟩
  · rw [hlineMods, List.filter_filter]
    refine List.filter_congr fun m _ => ?_
    by_cases hlang : m.lang? = some lang <;> simp [hlang]
  · obtain ⟨hconfig', hlineMods'⟩ := hscope h'
    rw [hconfig', hlineMods', hsame, ← hconfig, ← hlineMods]
    exact ⟨rfl, rfl⟩

/-- A directory that may be refused, and two snippets that go wrong. -/
def refusedDirectory : Document := .ofEntities [
  .config 1 ⟨some "elsewhere", none⟩,
  .lineMod { LineMod.plain 3 (.language "sh") with before := ["set -e"] },
  .snippet (.single ⟨.bare 5 "unknown", ["line"]⟩),
  .snippet (.single ⟨.bare 9 "sh", ["false"]⟩)]

theorem runsTo_refusedDirectory :
    let script : Script := ⟨[], [.error "no shell"], [], [("elsewhere", "no such directory")]⟩
    ∃ st w, refusedDirectory.RunsTo Script.host .builtin ⟨script, []⟩ 4 st w ∧
      st.config.directory = some "elsewhere" ∧
      (st.lineMods.filter (·.lang? = some "sh")).map (·.before) = [["set -e"]] := by
  intro script
  have hok : ((refusedDirectory.run Script.host .builtin ⟨script, []⟩).1.toOption).isSome = true := by
    decide +kernel
  obtain ⟨report, w, hrun⟩ : ∃ report w,
      refusedDirectory.run Script.host .builtin ⟨script, []⟩ = (.ok report, w) := by
    cases h : refusedDirectory.run Script.host .builtin ⟨script, []⟩ with
    | mk result w =>
      rw [h] at hok
      cases result with
      | ok report => exact ⟨report, w, rfl⟩
      | error a => cases hok
  obtain ⟨st, hreaches, -⟩ := runsTo_of_run hrun
  obtain ⟨hconfig, hlineMods, -⟩ := runsTo_declared hreaches
  refine ⟨st, w, hreaches, ?_, ?_⟩
  · rw [hconfig]
    decide +kernel
  · rw [hlineMods]
    decide +kernel

end Document

end Doctest
