import Doctest.Proofs.BodyFaults
import Doctest.Proofs.Index
import Mathlib.Logic.Relation

/-!
# What snippets include

The relation between snippets and the IDs that they include, and what one step of the walk that puts
lines together does.

* `Snippet.Includes`, `Document.Includes`: a snippet, or the snippet under an ID, includes an ID.
* `Document.Reaches`: the snippets that are met when includes are followed.
* `linesAlong_eq_ok`, `linesAlong_eq_error`: when the walk along a path succeeds, what it gives, and
  where its faults come from. All other statements about included lines follow from these two.
-/

namespace Doctest

/-! ## The relation -/

/-- The snippet includes an ID: one of its parts names it. The mark for the own body is no ID. -/
def Snippet.Includes (s : Snippet) (id : String) : Prop :=
  ∃ e ∈ s.elements, id ∈ e.properties.includes ∧ id ≠ Element.thisMark

/-- The snippet that the first ID stands for includes the second one. -/
def Document.Includes (d : Document) (a b : String) : Prop :=
  ∃ s, d.snippet? a = some s ∧ s.Includes b

/-- The snippets that are met when includes are followed from `s`, itself included. -/
inductive Document.Reaches (d : Document) (s : Snippet) : Snippet → Prop
  | self : d.Reaches s s
  | step {t u : Snippet} {id : String} (h : d.Reaches s t) (hid : t.Includes id)
      (hu : d.snippet? id = some u) : d.Reaches s u

/-! ## The lines of a part -/

namespace Element

/-- The lines of the IDs in order, the mark aside. -/
def named (part : String → Lines) (ids : List String) : Lines :=
  (ids.filter (· ≠ thisMark)).flatMap part

/-- The lines of the IDs in order, with the body at the first mark, or last. -/
def placed (part : String → Lines) (body : Lines) (ids : List String) : Lines :=
  named part (ids.takeWhile (· ≠ thisMark)) ++ body ++ named part (ids.dropWhile (· ≠ thisMark))

theorem placed_nil (part : String → Lines) (body : Lines) : placed part body [] = body := by
  simp [placed, named]

theorem placed_no_body (part : String → Lines) (ids : List String) :
    placed part [] ids = named part ids := by
  unfold placed named
  rw [List.append_nil, ← List.flatMap_append, ← List.filter_append, List.takeWhile_append_dropWhile]

theorem placed_mark (part : String → Lines) (body : Lines) (ids : List String) :
    placed part body (thisMark :: ids) = body ++ placed part [] ids := by
  rw [placed_no_body]
  simp [placed, named]

theorem placed_id (part : String → Lines) (body : Lines) {id : String} (ids : List String)
    (h : id ≠ thisMark) : placed part body (id :: ids) = part id ++ placed part body ids := by
  simp [placed, named, h]

theorem arrange_ok {f : String → Except Fault Lines} {part : String → Lines} {ids : List String}
    (h : ∀ id ∈ ids, id ≠ thisMark → f id = .ok (part id)) (body : Option Lines) :
    arrange f body ids = .ok (placed part (body.getD []) ids) := by
  induction ids generalizing body with
  | nil => rw [placed_nil]; rfl
  | cons id ids ih =>
    obtain ⟨hid, hids⟩ := List.forall_mem_cons.mp h
    unfold arrange
    split
    · next hmark =>
      subst hmark
      rw [ih hids none, placed_mark]
      rfl
    · next hmark =>
      rw [hid hmark, placed_id part _ ids hmark]
      exact bind_eq_ok.mpr ⟨_, rfl, bind_eq_ok.mpr ⟨_, ih hids body, rfl⟩⟩

/-- What is included gives its lines wherever the arrangement does. -/
theorem ok_of_arrange {f : String → Except Fault Lines} {body : Option Lines} {ids : List String}
    {lines : Lines} (h : arrange f body ids = .ok lines) :
    ∀ id ∈ ids, id ≠ thisMark → ∃ ls, f id = .ok ls := by
  induction ids generalizing body lines with
  | nil => simp
  | cons id ids ih =>
    unfold arrange at h
    rw [List.forall_mem_cons]
    split at h
    · next hmark =>
      obtain ⟨rest, hrest, -⟩ := bind_eq_ok.mp h
      exact ⟨fun hne => absurd hmark hne, ih hrest⟩
    · obtain ⟨ls, hls, h⟩ := bind_eq_ok.mp h
      obtain ⟨rest, hrest, -⟩ := bind_eq_ok.mp h
      exact ⟨fun _ => ⟨ls, hls⟩, ih hrest⟩

theorem arrange_eq_ok {f : String → Except Fault Lines} {body : Option Lines} {ids : List String}
    {lines : Lines} :
    arrange f body ids = .ok lines ↔
      ∃ part : String → Lines, (∀ id ∈ ids, id ≠ thisMark → f id = .ok (part id)) ∧
        lines = placed part (body.getD []) ids := by
  constructor
  · intro h
    have hpart : ∀ id ∈ ids, id ≠ thisMark → f id = .ok ((f id).toOption.getD []) := by
      intro id hid hne
      obtain ⟨ls, hls⟩ := ok_of_arrange h id hid hne
      rw [hls]
      rfl
    refine ⟨_, hpart, ?_⟩
    rw [arrange_ok hpart] at h
    exact (Except.ok.inj h).symm
  · rintro ⟨part, hpart, rfl⟩
    exact arrange_ok hpart body

theorem arrange_eq_error {f : String → Except Fault Lines} {body : Option Lines} {ids : List String}
    {fault : Fault} (h : arrange f body ids = .error fault) :
    ∃ id ∈ ids, id ≠ thisMark ∧ f id = .error fault := by
  induction ids generalizing body with
  | nil => cases h
  | cons id ids ih =>
    unfold arrange at h
    split at h
    · rcases bind_eq_error.mp h with h | ⟨_, -, h⟩
      · obtain ⟨id', hid', hne, hf⟩ := ih h
        exact ⟨id', List.mem_cons_of_mem _ hid', hne, hf⟩
      · cases h
    · next hmark =>
      rcases bind_eq_error.mp h with h | ⟨_, -, h⟩
      · exact ⟨id, List.mem_cons_self, hmark, h⟩
      · rcases bind_eq_error.mp h with h | ⟨_, -, h⟩
        · obtain ⟨id', hid', hne, hf⟩ := ih h
          exact ⟨id', List.mem_cons_of_mem _ hid', hne, hf⟩
        · cases h

end Element

/-! ## One step of the walk -/

namespace Scope

variable {scope : Scope} {path : List String}

/-- The lines of an ID that is included on a line by a snippet at the end of the path. -/
def includeLines (scope : Scope) (path : List String) (line : Nat) (id : String) :
    Except Fault Lines :=
  if id ∈ path then .error (.atLine line (RunCause.includeCycle (path ++ [id])))
  else do
    let t ← scope.snippet line "include" id
    scope.linesAlong (path ++ [id]) t

/-- The lines of one part of a snippet at the end of the path. -/
def partLines (scope : Scope) (path : List String) (e : Element) : Except Fault Lines := do
  let body ← scope.bodyLines e
  Element.arrange (scope.includeLines path e.properties.line) (some body) e.properties.includes

theorem linesAlong_eq (s : Snippet) :
    scope.linesAlong path s = do
      let parts ← s.elements.mapM (scope.partLines path)
      return parts.flatten := by
  rw [linesAlong]
  congr 2
  funext e
  unfold partLines
  congr 1
  funext body
  show Element.arrange _ _ _ = Element.arrange _ _ _
  congr 1
  funext id
  unfold includeLines
  split
  · rfl
  · split
    · next hfound => rw [hfound]; rfl
    · next included hfound =>
      show scope.linesAlong (path ++ [id]) included = _
      rw [hfound]
      rfl

theorem includeLines_eq_ok {line : Nat} {id : String} {lines : Lines} :
    scope.includeLines path line id = .ok lines ↔
      id ∉ path ∧ ∃ t, scope.document.snippet? id = some t ∧
        scope.linesAlong (path ++ [id]) t = .ok lines := by
  unfold includeLines
  split
  · next h => simp [h]
  · next h => simp only [bind_eq_ok, snippet_eq_ok, h, not_false_eq_true, true_and]

/-- A part has lines if and only if its body has and everything that it includes has. -/
theorem partLines_eq_ok {e : Element} {lines : Lines} :
    scope.partLines path e = .ok lines ↔
      ∃ body part, scope.bodyLines e = .ok body ∧
        (∀ id ∈ e.properties.includes, id ≠ Element.thisMark →
          scope.includeLines path e.properties.line id = .ok (part id)) ∧
        lines = Element.placed part body e.properties.includes := by
  unfold partLines
  rw [bind_eq_ok]
  simp only [Element.arrange_eq_ok, Option.getD_some, exists_and_left]

/-- A snippet has lines if and only if all its parts have. -/
theorem linesAlong_eq_ok {s : Snippet} {lines : Lines} :
    scope.linesAlong path s = .ok lines ↔
      ∃ part : Element → Lines, (∀ e ∈ s.elements, scope.partLines path e = .ok (part e)) ∧
        lines = s.elements.flatMap part := by
  rw [linesAlong_eq, bind_eq_ok]
  constructor
  · rintro ⟨parts, hparts, h⟩
    obtain ⟨part, hpart, rfl⟩ := mapM_eq_ok.mp hparts
    exact ⟨part, hpart, (Except.ok.inj h).symm⟩
  · rintro ⟨part, hpart, rfl⟩
    exact ⟨_, mapM_eq_ok.mpr ⟨part, hpart, rfl⟩, rfl⟩

/-- Where a fault of the walk comes from: the body of a part, an ID that is on the path already, an
ID that stands for no snippet, or the walk through a snippet that is included. -/
theorem linesAlong_eq_error {s : Snippet} {fault : Fault}
    (h : scope.linesAlong path s = .error fault) :
    (∃ e ∈ s.elements, scope.bodyLines e = .error fault) ∨
      ∃ id, s.Includes id ∧
        ((id ∈ path ∧ fault.cause.includeCycle? = some (path ++ [id])) ∨
          (scope.document.snippet? id = none ∧ fault.cause.includeCycle? = none) ∨
          (id ∉ path ∧ ∃ t, scope.document.snippet? id = some t ∧
            scope.linesAlong (path ++ [id]) t = .error fault)) := by
  rw [linesAlong_eq] at h
  obtain ⟨e, he, h⟩ : ∃ e ∈ s.elements, scope.partLines path e = .error fault := by
    rcases bind_eq_error.mp h with h | ⟨_, -, h⟩
    · exact mapM_eq_error h
    · cases h
  unfold partLines at h
  rcases bind_eq_error.mp h with h | ⟨body, -, h⟩
  · exact .inl ⟨e, he, h⟩
  · obtain ⟨id, hid, hne, h⟩ := Element.arrange_eq_error h
    refine .inr ⟨id, ⟨e, he, hid, hne⟩, ?_⟩
    unfold includeLines at h
    split at h
    · next hpath =>
      cases h
      exact .inl ⟨hpath, rfl⟩
    · next hpath =>
      rcases bind_eq_error.mp h with h | ⟨t, ht, h⟩
      · refine .inr (.inl ⟨?_, (scope.snippet_faults _ _ id fault h).2⟩)
        cases hsome : scope.document.snippet? id with
        | none => rfl
        | some t =>
          rw [snippet_eq_ok.mpr hsome] at h
          cases h
      · exact .inr (.inr ⟨hpath, t, snippet_eq_ok.mp ht, h⟩)

end Scope

end Doctest
