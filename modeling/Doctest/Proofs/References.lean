import Doctest.Proofs.Includes
import Doctest.Proofs.Lookups
import Doctest.Proofs.Visits

/-!
# What a run looks up

A run looks IDs up because an attribute of a snippet refers to them. So nothing else is looked up, and
two documents in which the IDs that are referred to stand for the same are run alike. So are two documents
in which all that is looked up stands for the same, whatever else differs.

* `Properties.RefersTo`: the attributes that refer to an ID, one rule for each.
* `Document.Agree`: the IDs in `A` and `P` come to the same in two documents, and what they stand for
  refers to nothing outside of `P`.
* `NotedExcept.Follows`, `NotedAction.Follows`: as long as it looks up nothing outside of `A`, a step that
  notes its lookups does what another step does, and looks up nothing outside of `P`.
* `notedVisitAll_follows`: a run that notes its lookups follows a run of any document that agrees.
-/

namespace Doctest

/-! ## What refers to an ID -/

/-- An attribute refers to the ID, and expects it to be of the kind. -/
inductive Properties.RefersTo (p : Properties) : IdKind → String → Prop
  | includes {id : String} (h : id ∈ p.includes) (hmark : id ≠ Element.thisMark) :
      p.RefersTo .snippet id
  | sameAs {id : String} (h : p.sameAs = some id) : p.RefersTo .snippet id
  | external {id : String} {external : External} (h : external ∈ p.externals)
      (hid : external.id = some id) : p.RefersTo .snippet id
  | stdout {content : StreamContent} (h : p.stdout = some content) :
      p.RefersTo .snippet content.snippetId
  | stderr {content : StreamContent} (h : p.stderr = some content) :
      p.RefersTo .snippet content.snippetId
  | applyToBody {id : String} (h : p.applyToBody = some id) : p.RefersTo .lineMod id
  | applyToOuter {id : String} (h : p.applyToOuter = some id) : p.RefersTo .lineMod id
  | editStdout {content : StreamContent} {id : String} (h : p.stdout = some content)
      (hid : content.lineModId = some id) : p.RefersTo .lineMod id
  | editStderr {content : StreamContent} {id : String} (h : p.stderr = some content)
      (hid : content.lineModId = some id) : p.RefersTo .lineMod id

/-- Some part of the snippet refers to the ID. -/
def Snippet.RefersTo (s : Snippet) (kind : IdKind) (id : String) : Prop :=
  ∃ e ∈ s.elements, e.properties.RefersTo kind id

/-- Some snippet of the document refers to the ID. -/
def Document.RefersTo (d : Document) (kind : IdKind) (id : String) : Prop :=
  ∃ s ∈ d.snippets, s.RefersTo kind id

/-- All that the snippet refers to is in `P`. -/
def Snippet.Within (s : Snippet) (P : IdKind → String → Prop) : Prop :=
  ∀ kind id, s.RefersTo kind id → P kind id

theorem Snippet.Within.part {s : Snippet} {P : IdKind → String → Prop} (hs : s.Within P)
    {e : Element} (he : e ∈ s.elements) {kind : IdKind} {id : String}
    (h : e.properties.RefersTo kind id) : P kind id :=
  hs kind id ⟨e, he, h⟩

theorem Snippet.Within.whole {s : Snippet} {P : IdKind → String → Prop} (hs : s.Within P)
    {kind : IdKind} {id : String} (h : s.properties.RefersTo kind id) : P kind id := by
  refine hs.part (e := s.first) ?_ h
  cases s <;> exact List.mem_cons_self

/-- Looking the ID up comes to the same in both documents. Where it stands for nothing of the kind, the
fault depends on whether it stands for something of the other kind. -/
def Document.Alike (d d' : Document) : IdKind → String → Prop
  | .snippet, id => d'.snippet? id = d.snippet? id ∧
      (d.snippet? id = none → (d'.lineMod? id).isSome = (d.lineMod? id).isSome)
  | .lineMod, id => d'.lineMod? id = d.lineMod? id ∧
      (d.lineMod? id = none → (d'.snippet? id).isSome = (d.snippet? id).isSome)

theorem Document.Alike.rfl {d : Document} {kind : IdKind} {id : String} : d.Alike d kind id := by
  cases kind with
  | snippet => exact ⟨Eq.refl _, fun _ => Eq.refl _⟩
  | lineMod => exact ⟨Eq.refl _, fun _ => Eq.refl _⟩

/-- What is in `P` and in `A` comes to the same in both documents. -/
structure Document.Agree (A P : IdKind → String → Prop) (d d' : Document) : Prop where
  hasOnly : d'.hasOnly = d.hasOnly
  alike {kind : IdKind} {id : String} (ha : A kind id) (h : P kind id) : d.Alike d' kind id
  /-- What is looked up refers to nothing outside of `P`. -/
  closed {id : String} {t : Snippet} (h : P .snippet id) (ht : d.snippet? id = some t) : t.Within P

/-! ## Steps that follow other steps -/

section Follows

variable {ε ε' σ α β : Type} {A P : IdKind → String → Prop}

/-- As long as what is looked up is in `A`, the value is the one that is expected, and what is looked up
for it is in `P`. -/
def Noted.Follows (x : Noted α) (a : α) (A P : IdKind → String → Prop) : Prop :=
  (∀ l ∈ x.lookups, A l.kind l.id) → x.value = a ∧ ∀ l ∈ x.lookups, P l.kind l.id

namespace Noted.Follows

theorem pure (a : α) : Follows (pure a) a A P := fun _ => ⟨rfl, by simp⟩

theorem bind {x : Noted α} {a : α} {f : α → Noted β} {b : β} (hx : Follows x a A P)
    (hf : Follows (f a) b A P) : Follows (x >>= f) b A P := by
  intro hall
  rw [bind_lookups, List.forall_mem_append] at hall
  obtain ⟨rfl, hxs⟩ := hx hall.1
  obtain ⟨hvalue, hfs⟩ := hf hall.2
  exact ⟨hvalue, List.forall_mem_append.mpr ⟨hxs, hfs⟩⟩

end Noted.Follows

/-- The same for a result that is expected. -/
def NotedExcept.Follows (x : NotedExcept ε α) (r : Except ε α) (A P : IdKind → String → Prop) : Prop :=
  Noted.Follows x.run r A P

namespace NotedExcept.Follows

theorem pure (a : α) : Follows (pure a : NotedExcept ε α) (.ok a) A P := Noted.Follows.pure _

theorem throw (e : ε) : Follows (throw e : NotedExcept ε α) (.error e) A P := Noted.Follows.pure _

theorem ofExcept (r : Except ε α) : Follows (MonadExcept.ofExcept r : NotedExcept ε α) r A P := by
  cases r with
  | ok a => exact pure a
  | error e => exact throw e

theorem bind {x : NotedExcept ε α} {r : Except ε α} {f : α → NotedExcept ε β}
    {g : α → Except ε β} (hx : Follows x r A P) (hf : ∀ a, r = .ok a → Follows (f a) (g a) A P) :
    Follows (x >>= f) (r >>= g) A P := by
  refine Noted.Follows.bind hx ?_
  cases r with
  | ok a => exact hf a rfl
  | error e => exact throw e

theorem map {x : NotedExcept ε α} {r : Except ε α} (hx : Follows x r A P) (g : α → β) :
    Follows (g <$> x) (r.map g) A P := by
  rw [← bind_pure_comp]
  cases r <;> exact bind hx fun a _ => pure (g a)

theorem adapt {x : NotedExcept ε α} {r : Except ε α} (hx : Follows x r A P) (g : ε → ε') :
    Follows (x.adapt g) (r.mapError g) A P :=
  Noted.Follows.bind hx (Noted.Follows.pure _)

theorem mapM {xs : List α} {f : α → NotedExcept ε β} {g : α → Except ε β}
    (h : ∀ x ∈ xs, Follows (f x) (g x) A P) : Follows (xs.mapM f) (xs.mapM g) A P := by
  induction xs with
  | nil => exact pure []
  | cons x xs ih =>
    obtain ⟨hx, hxs⟩ := List.forall_mem_cons.mp h
    rw [List.mapM_cons, List.mapM_cons]
    exact bind hx fun y _ => bind (ih hxs) fun ys _ => pure _

end NotedExcept.Follows

/-- The same in every world, for a step and what is expected of it. -/
def NotedStep.Follows (x : NotedStep σ α) (a : StateM (World σ) α) (A P : IdKind → String → Prop) :
    Prop :=
  ∀ w, Noted.Follows (x w) (a w) A P

namespace NotedStep.Follows

theorem pure (a : α) : Follows (σ := σ) (pure a) (pure a) A P := fun _ => Noted.Follows.pure _

theorem ofStep (a : StateM (World σ) α) : Follows (fun w => Pure.pure (a w)) a A P :=
  fun _ => Noted.Follows.pure _

theorem bind {x : NotedStep σ α} {a : StateM (World σ) α} {f : α → NotedStep σ β}
    {g : α → StateM (World σ) β} (hx : Follows x a A P) (hf : ∀ b, Follows (f b) (g b) A P) :
    Follows (x >>= f) (a >>= g) A P := by
  intro w
  show Noted.Follows (x w >>= fun p => f p.1 p.2) (g (a w).1 (a w).2) A P
  exact Noted.Follows.bind (hx w) (hf _ _)

theorem map {x : NotedStep σ α} {a : StateM (World σ) α} (hx : Follows x a A P) (g : α → β) :
    Follows (g <$> x) (g <$> a) A P := by
  rw [← bind_pure_comp, ← bind_pure_comp]
  exact bind hx fun b => pure (g b)

end NotedStep.Follows

/-- The same for an action and how it is expected to end. -/
def NotedAction.Follows (x : NotedAction σ α) (a : Action σ α) (A P : IdKind → String → Prop) : Prop :=
  NotedStep.Follows x.run a.run A P

namespace NotedAction.Follows

theorem pure (a : α) : Follows (pure a : NotedAction σ α) (pure a) A P := NotedStep.Follows.pure _

theorem throw (stop : Stop) : Follows (throw stop : NotedAction σ α) (throw stop) A P :=
  NotedStep.Follows.pure _

theorem ofAction (a : Action σ α) : Follows (ofAction a) a A P := NotedStep.Follows.ofStep _

theorem bind {x : NotedAction σ α} {a : Action σ α} {f : α → NotedAction σ β} {g : α → Action σ β}
    (hx : Follows x a A P) (hf : ∀ b, Follows (f b) (g b) A P) : Follows (x >>= f) (a >>= g) A P := by
  unfold Follows
  rw [ExceptT.run_bind, ExceptT.run_bind]
  refine NotedStep.Follows.bind hx fun result => ?_
  cases result with
  | ok b => exact hf b
  | error stop => exact NotedStep.Follows.pure _

theorem bindExcept {x : NotedExcept Stop α} {r : Except Stop α} {f : α → NotedAction σ β}
    {g : α → Action σ β} (hx : NotedExcept.Follows x r A P)
    (hf : ∀ a, r = .ok a → Follows (f a) (g a) A P) :
    Follows (ofExcept x >>= f) (MonadExcept.ofExcept r >>= g) A P := by
  intro w
  show Noted.Follows ((ofExcept x : NotedAction σ α).run w >>= fun p =>
    ExceptT.bindCont f p.1 p.2) _ A P
  have hr : Noted.Follows ((ofExcept x : NotedAction σ α).run w) (r, w) A P :=
    Noted.Follows.bind hx (Noted.Follows.pure _)
  refine Noted.Follows.bind hr ?_
  cases r with
  | ok a => exact hf a rfl w
  | error stop => exact Noted.Follows.pure _

theorem bindFault {x : NotedExcept Fault α} {r : Except Fault α} {f : α → NotedAction σ β}
    {g : α → Action σ β} (hx : NotedExcept.Follows x r A P)
    (hf : ∀ a, r = .ok a → Follows (f a) (g a) A P) :
    Follows (ofFault x >>= f) (Action.ofFault r >>= g) A P := by
  have hr : (Action.ofFault r : Action σ α) = MonadExcept.ofExcept (r.mapError .fault) := by
    cases r <;> rfl
  rw [hr]
  exact bindExcept (hx.adapt _) fun a ha => hf a (mapError_eq_ok.mp ha)

theorem ofExcept {x : NotedExcept Stop α} {r : Except Stop α} (hx : NotedExcept.Follows x r A P) :
    Follows (σ := σ) (ofExcept x) (MonadExcept.ofExcept r) A P := by
  have h := bindExcept (σ := σ) hx fun a _ => pure a
  simpa only [bind_pure] using h

theorem forM {xs : List α} {f : α → NotedAction σ PUnit} {g : α → Action σ PUnit}
    (h : ∀ x ∈ xs, Follows (f x) (g x) A P) : Follows (xs.forM f) (xs.forM g) A P := by
  induction xs with
  | nil => exact pure _
  | cons x xs ih =>
    obtain ⟨hx, hxs⟩ := List.forall_mem_cons.mp h
    exact bind hx fun _ => ih hxs

end NotedAction.Follows

end Follows

/-! ## Assembly -/

/-- Two scopes that differ in their documents at most, and these agree. -/
structure Scope.Agree (A P : IdKind → String → Prop) (scope scope' : Scope) : Prop where
  document : scope.document.Agree A P scope'.document
  config : scope'.config = scope.config
  lineMods : scope'.lineMods = scope.lineMods

namespace Scope.Agree

open NotedExcept

variable {A P : IdKind → String → Prop} {scope scope' : Scope} {s t : Snippet} {e : Element}
  {p : Properties} {line : Nat} {key id : String}

theorem language? (h : scope.Agree A P scope') (p : Properties) :
    scope'.language? p = scope.language? p := by
  unfold Scope.language?
  rw [h.config]

theorem translated (h : scope.Agree A P scope') (p : Properties) (lines : Lines) :
    scope'.translated p lines = scope.translated p lines := by
  unfold Scope.translated
  rw [h.language?]

theorem configLineMod (h : scope.Agree A P scope') (p : Properties) :
    scope'.configLineMod p = scope.configLineMod p := by
  unfold Scope.configLineMod
  rw [h.language?]

theorem snippet (h : scope.Agree A P scope') (ha : A .snippet id) (hid : P .snippet id) :
    scope'.snippet line key id = scope.snippet line key id := by
  obtain ⟨hsame, hother⟩ := h.document.alike ha hid
  unfold Scope.snippet
  rw [hsame]
  split
  · rfl
  · next hnone => rw [hother hnone]

theorem lineMod (h : scope.Agree A P scope') (ha : A .lineMod id) (hid : P .lineMod id) :
    scope'.lineMod line key id = scope.lineMod line key id := by
  obtain ⟨hsame, hother⟩ := h.document.alike ha hid
  unfold Scope.lineMod
  rw [hsame]
  split
  · rfl
  · next hnone => rw [hother hnone]

theorem notedSnippet (h : scope.Agree A P scope') (hid : P .snippet id) :
    Follows (scope'.notedSnippet line key id) (scope.snippet line key id) A P :=
  fun hall => ⟨h.snippet (hall _ List.mem_cons_self) hid, List.forall_mem_singleton.mpr hid⟩

theorem notedLineMod (h : scope.Agree A P scope') (hid : P .lineMod id) :
    Follows (scope'.notedLineMod line key id) (scope.lineMod line key id) A P :=
  fun hall => ⟨h.lineMod (hall _ List.mem_cons_self) hid, List.forall_mem_singleton.mpr hid⟩

theorem closed (h : scope.Agree A P scope') (hid : P .snippet id)
    (ht : scope.snippet line key id = .ok t) : t.Within P :=
  h.document.closed hid (snippet?_of_snippet ht)

theorem notedBodyLineMod (h : scope.Agree A P scope')
    (hp : ∀ id, p.applyToBody = some id → P .lineMod id) :
    Follows (scope'.notedBodyLineMod p) (scope.bodyLineMod p) A P := by
  unfold Scope.notedBodyLineMod Scope.bodyLineMod
  cases hbody : p.applyToBody with
  | none => exact Follows.pure _
  | some id => exact (h.notedLineMod (hp id hbody)).map some

theorem notedBodyLines (h : scope.Agree A P scope')
    (he : ∀ id, e.properties.applyToBody = some id → P .lineMod id) :
    Follows (scope'.notedBodyLines e) (scope.bodyLines e) A P := by
  refine Follows.bind (h.notedBodyLineMod he) fun m? _ => ?_
  cases m? with
  | none =>
    rw [← h.translated]
    exact Follows.ofExcept _
  | some m =>
    refine Follows.bind (Follows.ofExcept _) fun edited _ => ?_
    rw [← h.translated]
    exact Follows.bind (Follows.ofExcept _) fun lines _ => Follows.pure _

theorem notedArrange {f : String → NotedExcept Fault Lines} {g : String → Except Fault Lines}
    {ids : List String} (hf : ∀ id ∈ ids, id ≠ Element.thisMark → Follows (f id) (g id) A P)
    (body : Option Lines) :
    Follows (Element.notedArrange f body ids) (Element.arrange g body ids) A P := by
  induction ids generalizing body with
  | nil => exact Follows.pure _
  | cons id ids ih =>
    obtain ⟨hid, hids⟩ := List.forall_mem_cons.mp hf
    unfold Element.notedArrange Element.arrange
    split
    · exact Follows.bind (ih hids none) fun rest _ => Follows.pure _
    · next hmark =>
      exact Follows.bind (hid hmark) fun lines _ =>
        Follows.bind (ih hids body) fun rest _ => Follows.pure _

end Scope.Agree

namespace Scope

variable {A P : IdKind → String → Prop} {scope scope' : Scope} {s t : Snippet} {p : Properties}
  {line : Nat} {key id : String}

section Lines

open NotedExcept

def notedIncludeLines (scope : Scope) (path : List String) (line : Nat) (id : String) :
    NotedExcept Fault Lines :=
  if id ∈ path then throw (.atLine line (RunCause.includeCycle (path ++ [id])))
  else do
    let t ← scope.notedSnippet line "include" id
    scope.notedLinesAlong (path ++ [id]) t

def notedPartLines (scope : Scope) (path : List String) (e : Element) :
    NotedExcept Fault Lines := do
  let body ← scope.notedBodyLines e
  Element.notedArrange (scope.notedIncludeLines path e.properties.line) (some body)
    e.properties.includes

/-- Looking an ID up within the walk is looking it up as everywhere else. -/
theorem notedLinesAlong_eq (scope : Scope) (path : List String) (s : Snippet) :
    scope.notedLinesAlong path s = do
      let parts ← s.elements.mapM (scope.notedPartLines path)
      return parts.flatten := by
  rw [notedLinesAlong]
  congr 2
  funext e
  unfold notedPartLines
  congr 1
  funext body
  show Element.notedArrange _ _ _ = Element.notedArrange _ _ _
  congr 1
  funext id
  unfold notedIncludeLines notedSnippet
  split
  · rfl
  · split
    · next hfound =>
      rw [hfound]
      rfl
    · next included hfound =>
      show Lookup.note _ >>= _ = ExceptT.mk _ >>= _
      rw [hfound]
      rfl

/-- The walk that notes its lookups follows the walk through a scope that agrees. The path grows by an
ID that stands for something and was not on it, so the induction is on the IDs that are left. -/
theorem notedLinesAlong_follows (h : scope.Agree A P scope') (path : List String) (hs : s.Within P) :
    Follows (scope'.notedLinesAlong path s) (scope.linesAlong path s) A P := by
  induction hleft : unvisited scope.document.snippetsById.keys path using Nat.strongRecOn
    generalizing path s with
  | ind left ih =>
    subst hleft
    have hinclude : ∀ line id, P .snippet id →
        Follows (scope'.notedIncludeLines path line id) (scope.includeLines path line id) A P := by
      intro line id hid
      unfold notedIncludeLines includeLines
      split
      · exact Follows.throw _
      · next hpath =>
        refine Follows.bind (h.notedSnippet hid) fun t ht => ?_
        have hkey : id ∈ scope.document.snippetsById.keys :=
          Keyed.mem_keys_of_get? (snippet?_of_snippet ht)
        exact ih _ (unvisited_append_lt hkey hpath) _ (h.closed hid ht) rfl
    rw [notedLinesAlong_eq, linesAlong_eq]
    refine Follows.bind (Follows.mapM fun e he => ?_) fun parts _ => Follows.pure _
    have hbody : ∀ id, e.properties.applyToBody = some id → P .lineMod id :=
      fun id hid => hs.part he (.applyToBody hid)
    exact Follows.bind (h.notedBodyLines hbody) fun body _ =>
      Agree.notedArrange (fun id hid hmark => hinclude _ id (hs.part he (.includes hid hmark))) _

theorem notedInnerLines_follows (h : scope.Agree A P scope') (hs : s.Within P) :
    Follows (scope'.notedInnerLines s) (scope.innerLines s) A P :=
  notedLinesAlong_follows h _ hs

theorem notedOuterLineMods_follows (h : scope.Agree A P scope')
    (hp : ∀ id, p.applyToOuter = some id → P .lineMod id) :
    Follows (scope'.notedOuterLineMods p) (scope.outerLineMods p) A P := by
  unfold notedOuterLineMods outerLineMods
  rw [h.configLineMod, h.lineMods]
  dsimp only
  cases houter : p.applyToOuter with
  | none =>
    split
    · exact Follows.pure _
    · exact Follows.bind (Follows.ofExcept _) fun config _ => Follows.pure _
  | some id =>
    have hown : Follows (([·]) <$> scope'.notedLineMod p.line "applyToOuter" id)
        ((scope.lineMod p.line "applyToOuter" id).map ([·])) A P :=
      (h.notedLineMod (hp id houter)).map _
    have hall : ∀ ofLanguage : List LineMod, Follows
        (pure ofLanguage >>= fun ofLanguage =>
          ([·]) <$> scope'.notedLineMod p.line "applyToOuter" id >>= fun own =>
            pure (ofLanguage ++ own))
        (pure ofLanguage >>= fun ofLanguage =>
          (scope.lineMod p.line "applyToOuter" id).map ([·]) >>= fun own =>
            pure (ofLanguage ++ own)) A P :=
      fun ofLanguage => Follows.bind (Follows.pure _) fun _ _ =>
        Follows.bind hown fun own _ => Follows.pure _
    split
    · exact hall _
    · exact Follows.bind (Follows.ofExcept _) fun config _ => hall _

theorem notedOuterLines_follows (h : scope.Agree A P scope') (hs : s.Within P) :
    Follows (scope'.notedOuterLines s) (scope.outerLines s) A P := by
  have houter : ∀ id, s.properties.applyToOuter = some id → P .lineMod id :=
    fun id hid => hs.whole (.applyToOuter hid)
  exact Follows.bind (notedOuterLineMods_follows h houter) fun outer _ =>
    Follows.bind (notedInnerLines_follows h hs) fun inner _ => Follows.pure _

/-! ## What commands put out -/

theorem notedCheckStream?_follows (h : scope.Agree A P scope') (line : Nat) (key : String)
    {content? : Option StreamContent}
    (hsnippet : ∀ content, content? = some content → P .snippet content.snippetId)
    (hlineMod : ∀ content, content? = some content →
      ∀ id, content.lineModId = some id → P .lineMod id) (captured : String) :
    Follows (scope'.notedCheckStream? line key content? captured)
      (scope.checkStream? line key content? captured) A P := by
  cases content? with
  | none => exact Follows.pure _
  | some content =>
    have hid := hsnippet content rfl
    refine Follows.bind ((h.notedSnippet hid).adapt _) fun other hother => ?_
    have hwithin : other.Within P := h.closed hid (mapError_eq_ok.mp hother)
    refine Follows.bind ((notedInnerLines_follows h hwithin).adapt _) fun expected _ => ?_
    dsimp only
    cases hedit : content.lineModId with
    | none =>
      refine Follows.bind (Follows.pure _) fun actual _ => ?_
      split
      · exact Follows.pure _
      · exact Follows.throw _
    | some id =>
      refine Follows.bind ((h.notedLineMod (hlineMod content rfl id hedit)).adapt _) fun m _ => ?_
      refine Follows.bind ((Follows.ofExcept _).adapt _) fun actual _ => ?_
      split
      · exact Follows.pure _
      · exact Follows.throw _

theorem notedCheckLast_follows (h : scope.Agree A P scope') (hs : s.Within P) (r : CommandResult) :
    Follows (scope'.notedCheckLast s.properties r) (scope.checkLast s.properties r) A P := by
  have hstdout := notedCheckStream?_follows h s.properties.line "stdout"
    (fun content hcontent => hs.whole (.stdout hcontent))
    (fun content hcontent id hid => hs.whole (.editStdout hcontent hid)) r.stdout
  have hstderr := notedCheckStream?_follows h s.properties.line "stderr"
    (fun content hcontent => hs.whole (.stderr hcontent))
    (fun content hcontent id hid => hs.whole (.editStderr hcontent hid)) r.stderr
  exact Follows.bind (Follows.ofExcept _) fun _ _ => Follows.bind hstdout fun _ _ => hstderr

theorem notedExternalLines_follows (h : scope.Agree A P scope') {external : External}
    (hid : ∀ id, external.id = some id → P .snippet id) :
    Follows (scope'.notedExternalLines line external) (scope.externalLines line external) A P := by
  unfold notedExternalLines externalLines
  cases hexternal : external.id with
  | none => exact Follows.pure _
  | some id =>
    refine Follows.bind (h.notedSnippet (hid id hexternal)) fun other hother => ?_
    have hwithin : other.Within P := h.closed (hid id hexternal) hother
    split
    · exact notedInnerLines_follows h hwithin
    · exact notedOuterLines_follows h hwithin

end Lines

/-! ## Snippets -/

section Actions

variable {σ : Type} {host : Host σ}

open NotedAction

theorem notedRunAll_follows {noted : CommandResult → NotedExcept Stop Unit}
    {check : CommandResult → Except Stop Unit}
    (hcheck : ∀ r, NotedExcept.Follows (noted r) (check r) A P) (commands : List (List String)) :
    Follows (notedRunAll host line noted commands) (runAll host line check commands) A P := by
  induction commands with
  | nil => exact Follows.pure ()
  | cons argv rest ih =>
    cases rest with
    | nil => exact Follows.bind (Follows.ofAction _) fun r => Follows.ofExcept (hcheck r)
    | cons next rest =>
      exact Follows.bind (Follows.ofAction _) fun r => Follows.bind (Follows.ofAction _) fun _ => ih

theorem notedRunSnippet_follows (h : scope.Agree A P scope') (hs : s.Within P) (d : CommandDef) :
    Follows (scope'.notedRunSnippet host s d) (scope.runSnippet host s d) A P := by
  unfold notedRunSnippet runSnippet
  cases s.fileName d with
  | none => exact Follows.throw _
  | some file =>
    have hexternal : ∀ external ∈ s.properties.externals, ∀ id, external.id = some id →
        P .snippet id := fun external hmem id hid => hs.whole (.external hmem hid)
    refine Follows.bindFault (notedOuterLines_follows h hs) fun lines _ => ?_
    refine Follows.bind (Follows.ofAction _) fun _ => ?_
    refine Follows.bind (Follows.forM fun external hmem => ?_) fun _ => ?_
    · exact Follows.bindFault (notedExternalLines_follows h (hexternal external hmem))
        fun lines _ => Follows.ofAction _
    · cases fillCommands (d.commands.getD []) file (s.allFileNames file) with
      | nil => exact Follows.pure _
      | cons first rest =>
        exact Follows.bind (notedRunAll_follows (notedCheckLast_follows h hs) _)
          fun _ => Follows.pure _

theorem notedCompareSnippet_follows (h : scope.Agree A P scope') (hs : s.Within P)
    (hid : s.properties.sameAs = some id) :
    Follows (σ := σ) (scope'.notedCompareSnippet s id) (scope.compareSnippet s id) A P := by
  have hsame : P .snippet id := hs.whole (.sameAs hid)
  refine Follows.bindFault (h.notedSnippet hsame) fun other hother => ?_
  have hwithin : other.Within P := h.closed hsame hother
  refine Follows.bindFault (notedInnerLines_follows h hwithin) fun expected _ => ?_
  refine Follows.bindFault (notedInnerLines_follows h hs) fun actual _ => ?_
  split
  · exact Follows.pure _
  · exact Follows.throw _

theorem notedFindSnippet_follows (h : scope.Agree A P scope') (hs : s.Within P) (path : String) :
    Follows (scope'.notedFindSnippet host s path) (scope.findSnippet host s path) A P := by
  refine Follows.bind (Follows.ofAction _) fun answer => ?_
  cases answer with
  | error reason => exact Follows.throw _
  | ok content =>
    refine Follows.bindFault (notedInnerLines_follows h hs) fun own _ => ?_
    split
    · exact Follows.pure _
    · exact Follows.throw _

theorem notedWriteSnippet_follows (h : scope.Agree A P scope') (hs : s.Within P) :
    Follows (scope'.notedWriteSnippet host s) (scope.writeSnippet host s) A P := by
  have hinner := notedInnerLines_follows h hs
  have houter := notedOuterLines_follows h hs
  unfold notedWriteSnippet writeSnippet
  dsimp only
  cases s.properties.writeLocal with
  | none =>
    cases s.properties.write with
    | none => exact Follows.pure _
    | some file => exact Follows.bindFault houter fun lines _ => Follows.ofAction _
  | some localFile =>
    refine Follows.bindFault hinner fun lines _ => Follows.bind (Follows.ofAction _) fun _ => ?_
    cases s.properties.write with
    | none => exact Follows.pure _
    | some file => exact Follows.bindFault houter fun lines _ => Follows.ofAction _

theorem notedHandleByLanguage_follows (h : scope.Agree A P scope') (hs : s.Within P) :
    Follows (scope'.notedHandleByLanguage host s) (scope.handleByLanguage host s) A P := by
  have hcheck : Follows (σ := σ)
      (NotedAction.ofFault (scope'.notedOuterLines s) >>= fun _ => pure Outcome.idle)
      (Action.ofFault (scope.outerLines s) >>= fun _ => pure Outcome.idle) A P :=
    Follows.bindFault (notedOuterLines_follows h hs) fun _ _ => Follows.pure _
  unfold notedHandleByLanguage handleByLanguage
  dsimp only
  rw [h.language?]
  refine Follows.bind (Follows.ofAction _) fun d? => ?_
  rcases d? with _ | d
  · exact Follows.throw _
  · cases d with
    | skip => exact Follows.pure _
    | command d =>
      dsimp only
      cases s.properties.writeLocal.toList ++ s.properties.write.toList with
      | nil => exact notedRunSnippet_follows h hs d
      | cons file files =>
        exact Follows.bind (notedWriteSnippet_follows h hs) fun _ => Follows.pure _
    | _ =>
      dsimp only
      cases s.properties.writeLocal.toList ++ s.properties.write.toList with
      | nil => exact hcheck
      | cons file files =>
        exact Follows.bind (notedWriteSnippet_follows h hs) fun _ => Follows.pure _

theorem notedHandle_follows (h : scope.Agree A P scope') (hs : s.Within P) :
    Follows (scope'.notedHandle host s) (scope.handle host s) A P := by
  unfold notedHandle handle
  cases hsame : s.properties.sameAs with
  | some id => exact notedCompareSnippet_follows h hs hsame
  | none =>
    cases s.properties.containedInFile with
    | some path => exact notedFindSnippet_follows h hs path
    | none => exact notedHandleByLanguage_follows h hs

end Actions

end Scope

/-! ## Documents -/

namespace Document

variable {σ : Type} {A P : IdKind → String → Prop} {d d' : Document}

/-- One visit of an entity that refers to nothing outside of `P`. -/
theorem notedVisit_follows (h : d.Agree A P d') (host : Host σ) (st : RunState) {e : Entity}
    (he : ∀ s ∈ entitySnippets e, s.Within P) :
    NotedStep.Follows (st.notedVisit d' host e) (st.visit d host e) A P := by
  cases e with
  | heading heading => exact NotedStep.Follows.pure _
  | config line patch => exact NotedStep.Follows.ofStep _
  | lineMod m => exact NotedStep.Follows.pure _
  | snippet s =>
    have hs : s.Within P := he s List.mem_cons_self
    have hscope : Scope.Agree A P ⟨d, st.config, st.lineMods⟩ ⟨d', st.config, st.lineMods⟩ :=
      ⟨h, rfl, rfl⟩
    unfold RunState.notedVisit RunState.visit
    dsimp only
    rw [h.hasOnly]
    split
    · exact NotedStep.Follows.map (Scope.notedHandle_follows hscope hs) _
    · exact NotedStep.Follows.pure _

/-- **Runs that agree.** -/
theorem notedVisitAll_follows (h : d.Agree A P d') (host : Host σ) {es : List Entity}
    (hes : ∀ e ∈ es, ∀ s ∈ entitySnippets e, s.Within P) (st : RunState) :
    NotedStep.Follows (st.notedVisitAll d' host es) (st.visitAll d host es) A P := by
  induction es generalizing st with
  | nil => exact NotedStep.Follows.pure _
  | cons e es ih =>
    obtain ⟨he, hes⟩ := List.forall_mem_cons.mp hes
    refine NotedStep.Follows.bind (notedVisit_follows h host st he) fun result => ?_
    cases result with
    | ok st' => exact ih hes st'
    | error a => exact NotedStep.Follows.pure _

/-- Noting the lookups changes nothing. -/
theorem notedVisitAll_value (d : Document) (host : Host σ) (es : List Entity) (st : RunState)
    (w : World σ) : (st.notedVisitAll d host es w).value = st.visitAll d host es w := by
  have hself : d.Agree (fun _ _ => True) (fun _ _ => True) d :=
    ⟨rfl, fun _ _ => Alike.rfl, fun _ _ _ _ _ => trivial⟩
  have hwithin : ∀ e ∈ es, ∀ s ∈ entitySnippets e, s.Within fun _ _ => True :=
    fun _ _ _ _ _ _ _ => trivial
  exact (notedVisitAll_follows hself host hwithin st w fun _ _ => trivial).1

end Document

end Doctest
