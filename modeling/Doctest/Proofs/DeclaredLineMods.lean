import Doctest.LineMod
import Doctest.Proofs.LocatorText

/-!
# Line mods as directives declare them

* `LineMod.DeclaredBy`: what a line mod has to do with the directive that declares it. Groups of lines
  come from a body with the label `insert:` alone, one for each condition, and no locator is the number
  zero.
* `LineMod.declaredBy_of_ofDirective`: what is read from a directive is declared by it.
* `LineMod.plain_of_ofDirective`: without attributes for editing lines a line mod only wraps.
-/

namespace Doctest

def LineMod.locators (m : LineMod) : List Locator :=
  m.ignored.flatMap LineRange.locators ++ m.insertions.map (·.point.locator)

/-- What the directive says about a line mod that it declares. -/
structure LineMod.DeclaredBy (d : Directive) (m : LineMod) : Prop where
  line : m.line = d.line
  inserts : m.insertions ≠ [] → d.bodyLabel = some .insert ∧ m.kind.insertsGroups = true
  /-- One condition of the attribute `at` for each group of the body, in their order. -/
  paired : d.bodyLabel = some .insert → ∃ text points, d.value? "at" = .ok (some text) ∧
    InsertionPoint.parseList "at" text = .ok points ∧
    m.insertions.map (·.point) = points ∧ m.insertions.map (·.group) = d.groups
  locators : ∀ locator ∈ m.locators, locator ≠ .number 0

/-! ## Reading a directive -/

/-- Points and groups that can be paired are the two sides of what is inserted. -/
theorem Insertion.pair_eq_ok {points : List InsertionPoint} {groups : List Lines}
    {insertions : List Insertion} (h : Insertion.pair points groups = .ok insertions) :
    insertions.map (·.point) = points ∧ insertions.map (·.group) = groups := by
  unfold Insertion.pair at h
  split at h
  · next hlength =>
    cases h
    rw [← List.map_uncurry_zip_eq_zipWith, List.map_map, List.map_map]
    exact ⟨List.map_fst_zip (Nat.le_of_eq hlength), List.map_snd_zip (Nat.le_of_eq hlength.symm)⟩
  · cases h

theorem Directive.read?_eq_ok {α : Type} {d : Directive} {key : String}
    {read : String → Except Fault α} {a? : Option α} (h : d.read? key read = .ok a?) :
    d.value? key = .ok none ∧ a? = none ∨
      ∃ text a, d.value? key = .ok (some text) ∧ read text = .ok a ∧ a? = some a := by
  obtain ⟨text?, htext, h⟩ := bind_eq_ok.mp h
  cases text? with
  | none =>
    cases h
    exact .inl ⟨htext, rfl⟩
  | some text =>
    cases hread : read text with
    | error fault =>
      simp only [hread, Except.atLine] at h
      cases h
    | ok a =>
      simp only [hread, Except.atLine] at h
      cases h
      exact .inr ⟨text, a, htext, hread, rfl⟩

namespace LineMod

variable {d : Directive} {kind : LineModKind} {m m₀ : LineMod} {points : Option String}

theorem withBody_eq_ok (h : m₀.withBody d points = .ok m) :
    m.line = m₀.line ∧ m.kind = m₀.kind ∧ m.ignored = m₀.ignored ∧
      m.substitution = m₀.substitution ∧
      (d.bodyLabel ≠ some .insert → m.insertions = m₀.insertions) ∧
      (d.bodyLabel = some .insert → m.kind.insertsGroups = true ∧
        ∃ text ps, points = some text ∧ InsertionPoint.parseList "at" text = .ok ps ∧
          Insertion.pair ps d.groups = .ok m.insertions) := by
  unfold withBody at h
  split at h
  · next hlabel =>
    cases h
    simp [hlabel]
  · next hlabel =>
    cases h
    simp [hlabel]
  · next hlabel =>
    split at h
    · cases h
      simp [hlabel]
    · cases h
  · next hlabel =>
    split at h
    · cases h
    · next hkind =>
      split at h
      · cases h
      · next text =>
        obtain ⟨ps, hps, h⟩ := bind_eq_ok.mp (atLine_eq_ok.mp h)
        obtain ⟨insertions, hpair, h⟩ := bind_eq_ok.mp h
        cases h
        refine ⟨rfl, rfl, rfl, rfl, fun hne => absurd hlabel hne, fun _ => ⟨?_, text, ps, rfl, hps, hpair⟩⟩
        simpa using hkind
  · next hlabel =>
    cases h
    simp [hlabel]
  · next hlabel =>
    cases h
    simp [hlabel]
  · next hlabel =>
    cases h
    simp [hlabel]

theorem ofDirective_eq_ok (h : LineMod.ofDirective d kind = .ok m) :
    ∃ ignored substitution points,
      d.read? "ignoreLines" (LineSet.parse "ignoreLines") = .ok ignored ∧
      d.read? "searchAndReplace" (Substitution.parse "searchAndReplace") = .ok substitution ∧
      d.value? "at" = .ok points ∧
      withBody { plain d.line kind with ignored := ignored.getD [], substitution } d points =
        .ok m := by
  obtain ⟨ignored, hignored, h⟩ := bind_eq_ok.mp h
  obtain ⟨substitution, hsubstitution, h⟩ := bind_eq_ok.mp h
  obtain ⟨points, hpoints, h⟩ := bind_eq_ok.mp h
  split at h
  · cases h
  · exact ⟨ignored, substitution, points, hignored, hsubstitution, hpoints, h⟩

theorem kind_of_ofDirective (h : LineMod.ofDirective d kind = .ok m) : m.kind = kind := by
  obtain ⟨_, _, _, -, -, -, h⟩ := ofDirective_eq_ok h
  exact (withBody_eq_ok h).2.1

/-- **The line mod of a directive.** -/
theorem declaredBy_of_ofDirective (h : LineMod.ofDirective d kind = .ok m) : m.DeclaredBy d := by
  obtain ⟨ignored, substitution, points, hignored, -, hpoints, h⟩ := ofDirective_eq_ok h
  obtain ⟨hline, -, hset, -, hnone, hinsert⟩ := withBody_eq_ok h
  have hignoredLocators : ∀ l ∈ m.ignored.flatMap LineRange.locators, l ≠ .number 0 := by
    rw [hset]
    rcases Directive.read?_eq_ok hignored with ⟨-, rfl⟩ | ⟨text, set, -, hparse, rfl⟩
    · simp
    · exact fun l hl => (LineSet.writable_of_parse hparse l hl).ne_zero
  by_cases hlabel : d.bodyLabel = some .insert
  · obtain ⟨hkind, text, ps, rfl, hps, hpair⟩ := hinsert hlabel
    obtain ⟨hleft, hright⟩ := Insertion.pair_eq_ok hpair
    refine ⟨hline, fun _ => ⟨hlabel, hkind⟩, fun _ => ⟨text, ps, hpoints, hps, hleft, hright⟩, ?_⟩
    refine List.forall_mem_append.mpr ⟨hignoredLocators, List.forall_mem_map.mpr fun i hi => ?_⟩
    refine ((InsertionPoint.writable_of_parseList hps).2 i.point ?_).ne_zero
    rw [← hleft]
    exact List.mem_map_of_mem hi
  · have hempty : m.insertions = [] := hnone hlabel
    refine ⟨hline, fun hne => absurd hempty hne, fun hinsert => absurd hinsert hlabel, ?_⟩
    unfold locators
    rw [hempty, List.map_nil, List.append_nil]
    exact hignoredLocators

/-- A line mod of a directive without attributes for editing lines only wraps. -/
theorem plain_of_ofDirective (h : LineMod.ofDirective d kind = .ok m)
    (hignored : d.value? "ignoreLines" = .ok none)
    (hsubstitution : d.value? "searchAndReplace" = .ok none) (hpoints : d.value? "at" = .ok none) :
    m.ignored = [] ∧ m.substitution = none ∧ m.insertions = [] := by
  obtain ⟨ignored, substitution, points, hread, hread', hpoints', h⟩ := ofDirective_eq_ok h
  obtain ⟨-, -, hset, hsubst, hnone, hinsert⟩ := withBody_eq_ok h
  rw [hpoints] at hpoints'
  cases hpoints'
  refine ⟨?_, ?_, ?_⟩
  · rcases Directive.read?_eq_ok hread with ⟨-, rfl⟩ | ⟨text, _, htext, -, -⟩
    · exact hset
    · rw [hignored] at htext
      cases htext
  · rcases Directive.read?_eq_ok hread' with ⟨-, rfl⟩ | ⟨text, _, htext, -, -⟩
    · exact hsubst
    · rw [hsubstitution] at htext
      cases htext
  · refine hnone fun hlabel => ?_
    obtain ⟨-, text, _, htext, -⟩ := hinsert hlabel
    cases htext

end LineMod

end Doctest
