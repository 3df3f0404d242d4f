import Doctest.Proofs.Includes
import Mathlib.Data.List.Nodup
import Mathlib.Data.List.Perm.Subperm

/-!
# The walk through includes ends

Lines are put together by one walk that goes from a snippet into those that it includes, and from there
on. Its path is a stack that all nested calls share: an ID is pushed in front of a call and popped behind
it, whether the call succeeded or failed. Here this walk has its path as a state, keeps a note of its
calls, and gives up below a given depth, so that it can be said that it never has to.

* `Scope.descend`: the walk, and the stack that it goes with.
* `Scope.Enters`: which calls a call makes, read off the order in which lines are put together.
* `Comes`: what an action comes to and which calls end in it, with one rule for each way of composing
  actions. Every rule gives the path back.
* `Scope.IsPath`: the paths that are met. They grow by IDs of the index and never twice by the same one,
  so they cannot grow for long.
* `Scope.descend_innerLines`: the walk gives the inner lines, and it is never deeper than there are IDs.
  The calls that it notes are those that `Enters` leads to.
-/

namespace Doctest

/-! ## The walk and its stack -/

/-- A call that has ended: the path when it was made, and the path that it left. -/
structure Ended where
  entry : List String
  exit : List String
  deriving DecidableEq

/-- The path of IDs that a walk came along, and the calls that have ended. -/
structure Trail where
  path : List String
  ended : List Ended
  deriving DecidableEq

/-- An action that goes along a trail. It succeeds, fails, or gives up because it got too deep. -/
abbrev Descent (α : Type) : Type := ExceptT Fault (StateT Trail Option) α

namespace Descent

variable {α : Type}

def tooDeep : Descent α := fun _ => none

def path : Descent (List String) := fun trail => some (.ok trail.path, trail)

/-- Goes on behind an ID. It is popped when the action is over, also behind a failure. -/
def behind (id : String) (x : Descent α) : Descent α := fun trail => do
  let (result, trail) ← x { trail with path := trail.path ++ [id] }
  return (result, { trail with path := trail.path.dropLast })

/-- Notes a call when it ends. -/
def call (x : Descent α) : Descent α := fun trail => do
  let (result, trail') ← x trail
  return (result, { trail' with ended := trail'.ended ++ [⟨trail.path, trail'.path⟩] })

end Descent

/-- The lines of what is included, as `arrange` puts them together. -/
def Element.descendArrange (includeLines : String → Descent Lines) :
    (body : Option Lines) → List String → Descent Lines
  | body, [] => pure (body.getD [])
  | body, id :: ids =>
    if id = thisMark then do
      let rest ← descendArrange includeLines none ids
      return body.getD [] ++ rest
    else do
      let lines ← includeLines id
      let rest ← descendArrange includeLines body ids
      return lines ++ rest

namespace Scope

/-- The lines of an ID that is included on a line: an ID on the path is refused, any other one is pushed
for the time of the visit. -/
def descendInclude (scope : Scope) (visit : Snippet → Descent Lines) (line : Nat) (id : String) :
    Descent Lines := do
  let path ← Descent.path
  if id ∈ path then throw (.atLine line (RunCause.includeCycle (path ++ [id])))
  else do
    let t ← MonadExcept.ofExcept (scope.snippet line "include" id)
    Descent.behind id (visit t)

def descendPart (scope : Scope) (visit : Snippet → Descent Lines) (e : Element) : Descent Lines := do
  let body ← MonadExcept.ofExcept (scope.bodyLines e)
  Element.descendArrange (scope.descendInclude visit e.properties.line) (some body)
    e.properties.includes

/-- The inner lines of a snippet, if no more than `depth` calls are nested. -/
def descend (scope : Scope) : (depth : Nat) → Snippet → Descent Lines
  | 0, _ => Descent.tooDeep
  | depth + 1, s => Descent.call do
    let parts ← s.elements.mapM (scope.descendPart (scope.descend depth))
    return parts.flatten

end Scope

/-! ## The calls that a call makes -/

/-- Whoever goes through a list until something fails gets to this item: all in front of it pass. -/
def ReachedIn {α : Type} (passes : α → Prop) (as : List α) (a : α) : Prop :=
  ∃ front back, as = front ++ a :: back ∧ ∀ b ∈ front, passes b

namespace ReachedIn

variable {α : Type} {passes : α → Prop} {as : List α} {a b : α}

theorem cons_iff : ReachedIn passes (b :: as) a ↔ a = b ∨ passes b ∧ ReachedIn passes as a := by
  constructor
  · rintro ⟨front, back, heq, hfront⟩
    cases front with
    | nil => exact .inl (List.cons.inj heq).1.symm
    | cons c front =>
      obtain ⟨rfl, rfl⟩ := List.cons.inj heq
      obtain ⟨hb, hfront⟩ := List.forall_mem_cons.mp hfront
      exact .inr ⟨hb, front, back, rfl, hfront⟩
  · rintro (rfl | ⟨hb, front, back, rfl, hfront⟩)
    · exact ⟨[], as, rfl, fun c hc => absurd hc List.not_mem_nil⟩
    · exact ⟨b :: front, back, rfl, List.forall_mem_cons.mpr ⟨hb, hfront⟩⟩

end ReachedIn

namespace Scope

/-- Putting the lines of a snippet together at the end of a path gets to an ID: the parts in front of its
part have lines, and in its part the body and what is included in front of it have. -/
def GetsTo (scope : Scope) (path : List String) (s : Snippet) (id : String) : Prop :=
  ∃ e, ReachedIn (fun e => ∃ lines, scope.partLines path e = .ok lines) s.elements e ∧
    (∃ body, scope.bodyLines e = .ok body) ∧ id ≠ Element.thisMark ∧
    ReachedIn (fun id => id = Element.thisMark ∨
      ∃ lines, scope.includeLines path e.properties.line id = .ok lines) e.properties.includes id

/-- The call for a snippet at the end of a path makes the call for another one, with its own path. -/
def Enters (scope : Scope) (outer inner : List String × Snippet) : Prop :=
  ∃ id, scope.GetsTo outer.1 outer.2 id ∧ id ∉ outer.1 ∧
    scope.document.snippet? id = some inner.2 ∧ inner.1 = outer.1 ++ [id]

/-- The call for a snippet at the end of a path leads to this one, which gives its path back. -/
def LeadsTo (scope : Scope) (path : List String) (s : Snippet) (c : Ended) : Prop :=
  c.exit = c.entry ∧ ∃ t, Relation.ReflTransGen scope.Enters (path, s) (c.entry, t)

theorem leadsTo_iff {scope : Scope} {path : List String} {s : Snippet} {c : Ended} :
    scope.LeadsTo path s c ↔ c = ⟨path, path⟩ ∨
      ∃ id, scope.GetsTo path s id ∧ id ∉ path ∧
        ∃ t, scope.document.snippet? id = some t ∧ scope.LeadsTo (path ++ [id]) t c := by
  obtain ⟨entry, exit⟩ := c
  constructor
  · rintro ⟨hexit, u, hcalls⟩
    rcases Relation.ReflTransGen.cases_head_iff.mp hcalls with heq | ⟨⟨inner, t⟩, hfirst, hcalls⟩
    · obtain ⟨rfl, -⟩ := Prod.mk.inj heq
      exact .inl (congrArg (Ended.mk path) hexit)
    · obtain ⟨id, hid, hnew, ht, rfl⟩ := hfirst
      exact .inr ⟨id, hid, hnew, t, ht, hexit, u, hcalls⟩
  · rintro (heq | ⟨id, hid, hnew, t, ht, hexit, u, hcalls⟩)
    · obtain ⟨rfl, rfl⟩ := Ended.mk.inj heq
      exact ⟨rfl, s, .refl⟩
    · exact ⟨hexit, u, .head ⟨id, hid, hnew, ht, rfl⟩ hcalls⟩

end Scope

/-! ## Actions along a path -/

/-- From a path the action comes to a result and gives the path back. `Q` is which calls end in it. -/
def Comes {α : Type} (Q : Ended → Prop) (path : List String) (x : Descent α) (r : Except Fault α) :
    Prop :=
  ∀ ended, ∃ more, x ⟨path, ended⟩ = some (r, ⟨path, ended ++ more⟩) ∧ ∀ c, c ∈ more ↔ Q c

namespace Comes

variable {α β : Type} {Q Q' : Ended → Prop} {path : List String} {x : Descent α} {r : Except Fault α}

theorem congr (h : Comes Q path x r) (hQ : ∀ c, Q c ↔ Q' c) : Comes Q' path x r := by
  intro ended
  obtain ⟨more, hrun, hmore⟩ := h ended
  exact ⟨more, hrun, fun c => (hmore c).trans (hQ c)⟩

theorem ofExcept (r : Except Fault α) :
    Comes (fun _ => False) path (MonadExcept.ofExcept r : Descent α) r := by
  intro ended
  refine ⟨[], ?_, fun c => iff_false_intro List.not_mem_nil⟩
  rw [List.append_nil]
  cases r <;> rfl

theorem pure (a : α) : Comes (fun _ => False) path (pure a : Descent α) (.ok a) := ofExcept (.ok a)

theorem bind {Qf : α → Ended → Prop} {f : α → Descent β} {g : α → Except Fault β}
    (hx : Comes Q path x r) (hf : ∀ a, r = .ok a → Comes (Qf a) path (f a) (g a)) :
    Comes (fun c => Q c ∨ ∃ a, r = .ok a ∧ Qf a c) path (x >>= f) (r >>= g) := by
  intro ended
  obtain ⟨more, hrun, hmore⟩ := hx ended
  cases r with
  | error fault =>
    refine ⟨more, ?_, fun c => by simp [hmore]⟩
    show (x ⟨path, ended⟩).bind _ = _
    rw [hrun]
    rfl
  | ok a =>
    obtain ⟨rest, hrest, hgood⟩ := hf a rfl (ended ++ more)
    refine ⟨more ++ rest, ?_, fun c => by simp [hmore, hgood]⟩
    show (x ⟨path, ended⟩).bind _ = _
    rw [hrun, ← List.append_assoc]
    exact hrest

/-- What is made of a result makes no calls. -/
theorem bind_pure (hx : Comes Q path x r) (f : α → β) :
    Comes Q path (x >>= fun a => Pure.pure (f a)) (r >>= fun a => .ok (f a)) :=
  (hx.bind fun a _ => Comes.pure (f a)).congr fun c => by simp

theorem bind_path {f : List String → Descent α} (h : Comes Q path (f path) r) :
    Comes Q path (Descent.path >>= f) r := h

theorem mapM {Qf : α → Ended → Prop} {f : α → Descent β} {g : α → Except Fault β}
    (h : ∀ a, Comes (Qf a) path (f a) (g a)) (as : List α) :
    Comes (fun c => ∃ a, ReachedIn (fun a => ∃ b, g a = .ok b) as a ∧ Qf a c) path (as.mapM f)
      (as.mapM g) := by
  induction as with
  | nil => exact (Comes.pure []).congr fun c => by simp [ReachedIn]
  | cons a as ih =>
    rw [List.mapM_cons, List.mapM_cons]
    refine ((h a).bind fun b _ => ih.bind_pure (b :: ·)).congr fun c => ?_
    simp only [ReachedIn.cons_iff, or_and_right, exists_or, exists_eq_left, exists_and_right,
      and_assoc, exists_and_left]

/-- What was pushed is popped, so the path is the same behind the visit. -/
theorem behind {id : String} (h : Comes Q (path ++ [id]) x r) :
    Comes Q path (Descent.behind id x) r := by
  intro ended
  obtain ⟨more, hrun, hmore⟩ := h ended
  refine ⟨more, ?_, hmore⟩
  show (x ⟨path ++ [id], ended⟩).bind _ = _
  rw [hrun]
  simp

theorem call (h : Comes Q path x r) :
    Comes (fun c => c = ⟨path, path⟩ ∨ Q c) path (Descent.call x) r := by
  intro ended
  obtain ⟨more, hrun, hmore⟩ := h ended
  refine ⟨more ++ [⟨path, path⟩], ?_, fun c => by simp [hmore, or_comm]⟩
  show (x ⟨path, ended⟩).bind _ = _
  rw [hrun, ← List.append_assoc]
  rfl

theorem arrange {Qf : String → Ended → Prop} {f : String → Descent Lines}
    {g : String → Except Fault Lines} (h : ∀ id, Comes (Qf id) path (f id) (g id))
    (body : Option Lines) (ids : List String) :
    Comes (fun c => ∃ id, (id ≠ Element.thisMark ∧
        ReachedIn (fun id => id = Element.thisMark ∨ ∃ lines, g id = .ok lines) ids id) ∧ Qf id c)
      path (Element.descendArrange f body ids) (Element.arrange g body ids) := by
  induction ids generalizing body with
  | nil => exact (Comes.pure _).congr fun c => by simp [ReachedIn]
  | cons id ids ih =>
    unfold Element.descendArrange Element.arrange
    split
    · next hmark =>
      refine ((ih none).bind_pure _).congr fun c => ?_
      simp only [ReachedIn.cons_iff]
      grind
    · next hmark =>
      refine ((h id).bind fun lines _ => (ih body).bind_pure _).congr fun c => ?_
      simp only [ReachedIn.cons_iff]
      grind

end Comes

/-! ## The paths of the walk -/

namespace Scope

variable {scope : Scope} {own path : List String}

/-- A path that the walk can come along: no ID stands on it twice, and behind those that it started with
it has IDs of the index alone. -/
structure IsPath (scope : Scope) (own path : List String) : Prop where
  nodup : path.Nodup
  indexed : ∃ ids, path = own ++ ids ∧ ∀ id ∈ ids, id ∈ scope.document.snippetsById.keys

namespace IsPath

theorem push {id : String} (h : scope.IsPath own path) (hnew : id ∉ path)
    (hid : id ∈ scope.document.snippetsById.keys) : scope.IsPath own (path ++ [id]) := by
  obtain ⟨ids, rfl, hids⟩ := h.indexed
  refine ⟨?_, ids ++ [id], List.append_assoc .., ?_⟩
  · refine h.nodup.append (List.nodup_singleton id) ?_
    exact List.disjoint_singleton.mpr hnew
  · exact List.forall_mem_append.mpr ⟨hids, List.forall_mem_singleton.mpr hid⟩

/-- One call keeps it. -/
theorem enters {outer inner : List String × Snippet} (h : scope.IsPath own outer.1)
    (hcall : scope.Enters outer inner) : scope.IsPath own inner.1 := by
  obtain ⟨id, -, hnew, ht, heq⟩ := hcall
  rw [heq]
  exact h.push hnew (Keyed.mem_keys_of_get? ht)

/-- So do calls one inside the other. -/
theorem nested {outer inner : List String × Snippet} (h : scope.IsPath own outer.1)
    (hcalls : Relation.ReflTransGen scope.Enters outer inner) : scope.IsPath own inner.1 := by
  induction hcalls with
  | refl => exact h
  | tail _ hlast ih => exact ih.enters hlast

/-- The path has no room for more IDs than the index has. -/
theorem length_le (h : scope.IsPath own path) :
    path.length ≤ own.length + scope.document.snippetsById.keys.length := by
  obtain ⟨ids, rfl, hids⟩ := h.indexed
  have hnodup : ids.Nodup := (List.nodup_append.mp h.nodup).2.1
  have hlength := (List.subperm_of_subset hnodup hids).length_le
  rw [List.length_append]
  omega

end IsPath

/-- The walk never gets below the depth for which the index has IDs left, and the calls in it are those
that the first one leads to. The induction is on the depth; a call one level down has a path that is
longer by one ID. -/
theorem descend_comes {depth : Nat} (hpath : scope.IsPath own path)
    (hdepth : own.length + scope.document.snippetsById.keys.length < path.length + depth)
    (s : Snippet) :
    Comes (scope.LeadsTo path s) path (scope.descend depth s) (scope.linesAlong path s) := by
  induction depth generalizing path s with
  | zero =>
    have hlength := hpath.length_le
    omega
  | succ depth ih =>
    have hinclude : ∀ line id,
        Comes (fun c => id ∉ path ∧ ∃ t, scope.document.snippet? id = some t ∧
            scope.LeadsTo (path ++ [id]) t c) path
          (scope.descendInclude (scope.descend depth) line id) (scope.includeLines path line id) := by
      intro line id
      unfold descendInclude includeLines
      apply Comes.bind_path
      by_cases hid : id ∈ path
      · rw [if_pos hid, if_pos hid]
        exact (Comes.ofExcept (.error _)).congr fun c => by simp [hid]
      · rw [if_neg hid, if_neg hid]
        have hvisit : ∀ t, scope.snippet line "include" id = .ok t →
            Comes (scope.LeadsTo (path ++ [id]) t) path
              (Descent.behind id (scope.descend depth t)) (scope.linesAlong (path ++ [id]) t) := by
          intro t ht
          have hkey : id ∈ scope.document.snippetsById.keys :=
            Keyed.mem_keys_of_get? (snippet?_of_snippet ht)
          refine Comes.behind (ih (hpath.push hid hkey) ?_ t)
          rw [List.length_append, List.length_singleton]
          omega
        refine ((Comes.ofExcept _).bind hvisit).congr fun c => ?_
        simp only [false_or, snippet_eq_ok, hid, not_false_eq_true, true_and]
    have hpart := fun e => (Comes.ofExcept (scope.bodyLines e)).bind fun body _ =>
      Comes.arrange (hinclude e.properties.line) (some body) e.properties.includes
    rw [linesAlong_eq, descend]
    refine (Comes.call ((Comes.mapM hpart s.elements).bind_pure _)).congr fun c => ?_
    -- What is left is the order in which the part, its body and the ID are named.
    rw [leadsTo_iff]
    unfold GetsTo
    grind [partLines]

/-- **The walk ends.** In every document, whatever its snippets include, the walk that may nest one call
more than there are IDs in the index gives the inner lines, or the fault that stands in their place, and
leaves the path that it started with. So does every call in it. Its path has no ID twice, and behind the
snippet's own ID, if it has one, it has IDs of the index alone. The calls are those that putting the lines
together makes, from the snippet itself on, and no others. -/
theorem descend_innerLines (scope : Scope) (s : Snippet) (spare : Nat) :
    let keys := scope.document.snippetsById.keys
    ∃ calls, scope.descend (keys.length + 1 + spare) s ⟨s.id.toList, []⟩ =
        some (scope.innerLines s, ⟨s.id.toList, calls⟩) ∧
      (∀ path, (∃ c ∈ calls, c.entry = path) ↔
        ∃ t, Relation.ReflTransGen scope.Enters (s.id.toList, s) (path, t)) ∧
      ∀ c ∈ calls, c.exit = c.entry ∧ c.entry.Nodup ∧ ∃ ids, c.entry = s.id.toList ++ ids ∧
        (∀ id ∈ ids, id ∈ keys) ∧ ids.length + 1 ≤ keys.length + 1 := by
  intro keys
  have hstart : scope.IsPath s.id.toList s.id.toList := by
    refine ⟨?_, [], (List.append_nil _).symm, fun id hid => absurd hid List.not_mem_nil⟩
    cases s.id with
    | none => exact List.nodup_nil
    | some id => exact List.nodup_singleton id
  have hdepth : s.id.toList.length + keys.length <
      s.id.toList.length + (keys.length + 1 + spare) := by omega
  obtain ⟨calls, hrun, hcalls⟩ := descend_comes hstart hdepth s []
  refine ⟨calls, hrun, fun path => ⟨?_, ?_⟩, fun c hc => ?_⟩
  · rintro ⟨c, hc, rfl⟩
    exact ((hcalls c).mp hc).2
  · rintro ⟨t, hpath⟩
    exact ⟨⟨path, path⟩, (hcalls _).mpr ⟨rfl, t, hpath⟩, rfl⟩
  · obtain ⟨hexit, t, hnested⟩ := (hcalls c).mp hc
    have hentry : scope.IsPath s.id.toList c.entry := hstart.nested hnested
    obtain ⟨ids, hids, hkeys⟩ := hentry.indexed
    have hlength : c.entry.length ≤ s.id.toList.length + keys.length := hentry.length_le
    rw [hids, List.length_append] at hlength
    exact ⟨hexit, hentry.nodup, ids, hids, hkeys, by omega⟩

/-- Two snippets that include each other: the fault in the inner call leaves both paths as they were. -/
example :
    let snippet (id other : String) : Snippet :=
      .single ⟨{ Properties.bare 1 "text" with id := some id, includes := [other] }, []⟩
    let d := Document.ofEntities [.snippet (snippet "a" "b"), .snippet (snippet "b" "a")]
    (Scope.descend ⟨d, .builtin, []⟩ 3 (snippet "a" "b") ⟨["a"], []⟩).map Prod.snd =
      some ⟨["a"], [⟨["a", "b"], ["a", "b"]⟩, ⟨["a"], ["a"]⟩]⟩ := by
  decide +kernel

end Scope

end Doctest
