import Doctest.Proofs.IncludeCycle

/-!
# Inner lines are composed

The walk carries a path, so the lines of an included snippet could depend on where it is included.
They do not.

* `linesAlong_mono`: what has lines along a path has the same lines along every path with fewer
  IDs. The path can make the walk fail, but it cannot change its result.
* `innerLines_composed`: the inner lines of a snippet are put together from the bodies of its
  parts and from what the snippets that it includes give on their own.
-/

namespace Doctest

namespace Element

theorem named_congr {part₁ part₂ : String → Lines} {ids : List String}
    (h : ∀ id ∈ ids, id ≠ thisMark → part₁ id = part₂ id) : named part₁ ids = named part₂ ids := by
  unfold named
  refine List.flatMap_congr fun id hid => ?_
  obtain ⟨hid, hne⟩ := List.mem_filter.mp hid
  exact h id hid (by simpa using hne)

theorem placed_congr {part₁ part₂ : String → Lines} {ids : List String} (body : Lines)
    (h : ∀ id ∈ ids, id ≠ thisMark → part₁ id = part₂ id) :
    placed part₁ body ids = placed part₂ body ids := by
  unfold placed
  congr 1
  · rw [named_congr fun id hid => h id ((List.takeWhile_prefix _).subset hid)]
  · exact named_congr fun id hid => h id ((List.dropWhile_suffix _).subset hid)

end Element

namespace Scope

variable {scope : Scope} {s t : Snippet} {lines : Lines}

/-- **The path does not change the lines.** Fewer IDs on it leave the walk as it was. -/
theorem linesAlong_mono {path₁ path₂ : List String} (hsub : path₁ ⊆ path₂)
    (h : scope.linesAlong path₂ s = .ok lines) : scope.linesAlong path₁ s = .ok lines := by
  -- The induction follows the walk along the longer path; the shorter one grows with it.
  induction path₂, s using Scope.linesAlong.induct scope generalizing path₁ lines with
  | case1 path₂ s ih =>
    obtain ⟨part, hpart, rfl⟩ := linesAlong_eq_ok.mp h
    refine linesAlong_eq_ok.mpr ⟨part, fun e he => ?_, rfl⟩
    obtain ⟨body, inner, hbody, hinner, hlines⟩ := partLines_eq_ok.mp (hpart e he)
    refine partLines_eq_ok.mpr ⟨body, inner, hbody, fun id hid hne => ?_, hlines⟩
    obtain ⟨hpath, t, ht, hlines⟩ := includeLines_eq_ok.mp (hinner id hid hne)
    refine includeLines_eq_ok.mpr ⟨fun hmem => hpath (hsub hmem), t, ht, ?_⟩
    have hsub' : path₁ ++ [id] ⊆ path₂ ++ [id] :=
      List.append_subset.mpr
        ⟨List.subset_append_of_subset_left _ hsub, List.subset_append_right _ _⟩
    exact ih e id hpath t (snippet_eq_ok.mpr ht) hsub' hlines

/-- What has lines at the end of a path that its own ID is on has the same lines on its own. -/
theorem innerLines_of_linesAlong {path : List String} (hown : ∀ id, t.id = some id → id ∈ path)
    (h : scope.linesAlong path t = .ok lines) : scope.innerLines t = .ok lines := by
  refine linesAlong_mono (fun id hid => hown id ?_) h
  exact Option.mem_toList.mp hid

/-- The lines that the snippet under an ID has on its own. -/
def ownLines (scope : Scope) (id : String) : Lines :=
  ((scope.document.snippet? id).bind fun t => (scope.innerLines t).toOption).getD []

theorem ownLines_eq {id : String} (ht : scope.document.snippet? id = some t)
    (h : scope.innerLines t = .ok lines) : scope.ownLines id = lines := by
  unfold ownLines
  rw [ht, Option.bind_some, h]
  rfl

/-- Everything that is met has the lines that it has on its own. -/
theorem linesAlong_eq_innerLines (hd : scope.document.IndexSound)
    (h : scope.innerLines s = .ok lines) {path : List String} (hw : Walk scope.document s path t) :
    scope.linesAlong path t = scope.innerLines t := by
  obtain ⟨ls, hls⟩ := linesAlong_of_walk ⟨lines, h⟩ hw
  rw [hls, innerLines_of_linesAlong (fun id hid => hw.mem_path hd hid) hls]

/-- An included ID gives what its snippet gives on its own. -/
theorem ownLines_of_includeLines (hd : scope.document.IndexSound) {path : List String}
    {line : Nat} {id : String} (h : scope.includeLines path line id = .ok lines) :
    (∃ t, scope.document.snippet? id = some t ∧ scope.innerLines t = .ok lines) ∧
      scope.ownLines id = lines := by
  obtain ⟨-, t, ht, hlines⟩ := includeLines_eq_ok.mp h
  have hmem : ∀ k, t.id = some k → k ∈ path ++ [id] := by
    intro k hk
    rw [hd id t ht] at hk
    cases hk
    exact List.mem_concat_self
  have hown : scope.innerLines t = .ok lines := innerLines_of_linesAlong hmem hlines
  exact ⟨⟨t, ht, hown⟩, ownLines_eq ht hown⟩

/-- A part gives its body among what the IDs that it includes give on their own. -/
theorem partLines_composed (hd : scope.document.IndexSound) {path : List String} {e : Element}
    (h : scope.partLines path e = .ok lines) :
    (∀ id ∈ e.properties.includes, id ≠ Element.thisMark →
        ∃ t, scope.document.snippet? id = some t ∧ scope.innerLines t = .ok (scope.ownLines id)) ∧
      ∃ body, scope.bodyLines e = .ok body ∧
        lines = Element.placed scope.ownLines body e.properties.includes := by
  obtain ⟨body, part, hbody, hpart, rfl⟩ := partLines_eq_ok.mp h
  have hown : ∀ id ∈ e.properties.includes, id ≠ Element.thisMark →
      scope.ownLines id = part id := by
    intro id hid hne
    exact (ownLines_of_includeLines hd (hpart id hid hne)).2
  refine ⟨fun id hid hne => ?_, body, hbody, (Element.placed_congr body hown).symm⟩
  rw [hown id hid hne]
  exact (ownLines_of_includeLines hd (hpart id hid hne)).1

end Scope

/-- **Inner lines are composed.** They are the lines of the parts in order. In each part the IDs
that it includes are replaced, in order, by what their snippets give on their own, and the body of
the part stands at the first mark, or last. The path along which a snippet is included changes
nothing. -/
theorem innerLines_composed (es : List Entity) (config : Config) (lineMods : List LineMod)
    (s : Snippet) (lines : Lines) :
    let d := Document.ofEntities es
    let scope : Scope := ⟨d, config, lineMods⟩
    scope.innerLines s = .ok lines →
      ∃ (part : String → Lines) (body : Element → Lines),
        (∀ id, s.Includes id → ∃ t, d.snippet? id = some t ∧ scope.innerLines t = .ok (part id)) ∧
        (∀ e ∈ s.elements, scope.bodyLines e = .ok (body e)) ∧
        lines = s.elements.flatMap (fun e => Element.placed part (body e) e.properties.includes) ∧
        ∀ path t, Walk d s path t → scope.linesAlong path t = scope.innerLines t := by
  intro d scope h
  have hd : d.IndexSound := Document.indexSound_ofEntities es
  obtain ⟨parts, hparts, hlines⟩ := Scope.linesAlong_eq_ok.mp h
  have hcomposed := fun e he => Scope.partLines_composed hd (hparts e he)
  have hbodies : ∀ e ∈ s.elements, ∃ body, scope.bodyLines e = .ok body ∧
      parts e = Element.placed scope.ownLines body e.properties.includes :=
    fun e he => (hcomposed e he).2
  choose! body hbody hplaced using hbodies
  refine ⟨scope.ownLines, body, ?_, hbody, ?_, ?_⟩
  · rintro id ⟨e, he, hid, hne⟩
    exact (hcomposed e he).1 id hid hne
  · rw [hlines]
    exact List.flatMap_congr hplaced
  · intro path t hw
    exact Scope.linesAlong_eq_innerLines hd h hw

/-- A part whose code stands between what it includes. -/
def Element.wrapped : Element :=
  ⟨{ Properties.bare 9 "text" with includes := ["a", thisMark, "a"] }, ["code"]⟩

/-- A document with a snippet that another one includes twice. -/
def wrappedExample : List Entity :=
  [.snippet (.single ⟨{ Properties.bare 3 "text" with id := some "a" }, ["line"]⟩),
    .snippet (.single .wrapped)]

theorem innerLines_wrapped :
    let scope : Scope := ⟨.ofEntities wrappedExample, .builtin, []⟩
    scope.innerLines (.single .wrapped) = .ok ["line", "code", "line"] ∧
      ∃ part body t, scope.document.snippet? "a" = some t ∧ scope.innerLines t = .ok part ∧
        scope.bodyLines .wrapped = .ok body ∧ ["line", "code", "line"] = part ++ body ++ part := by
  intro scope
  have h : scope.innerLines (.single .wrapped) = .ok ["line", "code", "line"] := by
    with_unfolding_all rfl
  obtain ⟨part, body, hpart, hbody, hlines, -⟩ :=
    innerLines_composed wrappedExample .builtin [] (.single .wrapped) _ h
  have hinc : (Snippet.single .wrapped).Includes "a" :=
    ⟨_, List.mem_cons_self, List.mem_cons_self, by decide⟩
  obtain ⟨t, ht, hlines'⟩ := hpart "a" hinc
  refine ⟨h, part "a", body .wrapped, t, ht, hlines', hbody _ List.mem_cons_self, ?_⟩
  rw [hlines]
  simp [Snippet.elements, Element.wrapped, Element.placed, Element.named, Element.thisMark]

end Doctest
