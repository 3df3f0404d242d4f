import Doctest.Proofs.DeclaredLineMods

/-!
# The groups of a body

A body consists of groups of lines with a separator line between each two of them. Cutting a body into
its groups undoes putting groups together with separator lines, whatever blanks these have around the
separator; a group may be empty. So the number of separator lines decides whether a directive with
groups declares a line mod, and no group gets to the place of another one.

* `SeparatorLine`: the separator with blanks around it.
* `GroupedBody`: groups with separator lines between them.
* `GroupedBody.groupsOf_lines`, `GroupedBody.exists_lines_eq`: every body consists of its groups.
* `LineMod.ofDirective_around`, `LineMod.ofDirective_insert`: what becomes of the groups.
-/

namespace Doctest

open Text (isBlank trim_eq_iff)

/-- The separator, perhaps with blanks around it. -/
def SeparatorLine (line : String) : Prop :=
  ∃ before after : List Char, (∀ c ∈ before, isBlank c) ∧ (∀ c ∈ after, isBlank c) ∧
    line.toList = before ++ Directive.separator ++ after

/-- Groups of lines with a separator line between each two of them. -/
structure GroupedBody where
  first : Lines
  /-- The further groups, each behind the separator line in front of it. -/
  rest : List (String × Lines)
  first_plain : ∀ l ∈ first, ¬ SeparatorLine l
  rest_separated : ∀ part ∈ rest, SeparatorLine part.1 ∧ ∀ l ∈ part.2, ¬ SeparatorLine l

namespace GroupedBody

def lines (b : GroupedBody) : Lines := b.first ++ b.rest.flatMap fun part => part.1 :: part.2

def groups (b : GroupedBody) : List Lines := b.first :: b.rest.map (·.2)

end GroupedBody

/-! ## Cutting a body -/

theorem trimmed_separator : Text.Trimmed Directive.separator := by
  refine Text.trimmed_of_forall fun c hc => ?_
  have hdot : c = '•' := by simpa [Directive.separator] using hc
  rw [hdot]
  decide

theorem isSeparator_iff {line : String} :
    Directive.isSeparator line = true ↔ SeparatorLine line := by
  unfold Directive.isSeparator SeparatorLine
  rw [beq_iff_eq]
  exact trim_eq_iff (by decide) trimmed_separator

theorem isSeparator_eq_false {line : String} (h : ¬ SeparatorLine line) :
    Directive.isSeparator line = false :=
  Bool.eq_false_iff.mpr (mt isSeparator_iff.mp h)

/-- The groups are the parts between the separator lines. -/
theorem groupsOf_eq_splitOnP (body : Lines) :
    Directive.groupsOf body = body.splitOnP Directive.isSeparator := by
  induction body with
  | nil => rfl
  | cons l body ih =>
    rw [Directive.groupsOf, List.splitOnP_cons_eq_if_modifyHead, ← ih]
    split
    · rfl
    · cases hgroups : Directive.groupsOf body with
      | nil => exact absurd (ih.symm.trans hgroups) (List.splitOnP_ne_nil _ _)
      | cons g gs => rfl

namespace GroupedBody

/-- **Cutting a body gives its groups.** -/
theorem groupsOf_lines (b : GroupedBody) : Directive.groupsOf b.lines = b.groups := by
  obtain ⟨first, rest, hfirst, hrest⟩ := b
  have hnone : ∀ l ∈ first, Directive.isSeparator l = false :=
    fun l hl => isSeparator_eq_false (hfirst l hl)
  rw [groupsOf_eq_splitOnP, lines, groups]
  induction rest generalizing first with
  | nil =>
    rw [List.flatMap_nil, List.append_nil, List.map_nil]
    exact List.splitOnP_eq_singleton hnone
  | cons part rest ih =>
    obtain ⟨⟨hseparator, hplain⟩, hrest⟩ := List.forall_mem_cons.mp hrest
    have htail := ih part.2 hplain hrest fun l hl => isSeparator_eq_false (hplain l hl)
    rw [List.flatMap_cons, List.cons_append, List.map_cons,
      List.splitOnP_append_cons_of_forall_mem hnone _ (isSeparator_iff.mpr hseparator), htail]

/-- Every body consists of groups. -/
theorem exists_lines_eq (body : Lines) : ∃ b : GroupedBody, b.lines = body := by
  induction body with
  | nil => exact ⟨⟨[], [], by simp, by simp⟩, rfl⟩
  | cons l body ih =>
    obtain ⟨⟨first, rest, hfirst, hrest⟩, rfl⟩ := ih
    by_cases hl : SeparatorLine l
    · exact ⟨⟨[], (l, first) :: rest, by simp, List.forall_mem_cons.mpr ⟨⟨hl, hfirst⟩, hrest⟩⟩, rfl⟩
    · exact ⟨⟨l :: first, rest, List.forall_mem_cons.mpr ⟨hl, hfirst⟩, hrest⟩, rfl⟩

theorem length_groups (b : GroupedBody) : b.groups.length = b.rest.length + 1 := by
  rw [groups, List.length_cons, List.length_map]

end GroupedBody

/-- A body has two groups if one line of it is a separator line. -/
theorem groupsOf_eq_pair_iff {body before after : Lines} :
    Directive.groupsOf body = [before, after] ↔ ∃ separator, SeparatorLine separator ∧
      (∀ l ∈ before ++ after, ¬ SeparatorLine l) ∧ body = before ++ separator :: after := by
  constructor
  · intro h
    obtain ⟨b, rfl⟩ := GroupedBody.exists_lines_eq body
    rw [b.groupsOf_lines] at h
    obtain ⟨first, rest, hfirst, hrest⟩ := b
    obtain ⟨rfl, htail⟩ := List.cons.inj h
    obtain ⟨⟨separator, group⟩, rfl, rfl⟩ := List.map_eq_singleton_iff.mp htail
    obtain ⟨hseparator, hgroup⟩ := hrest _ List.mem_cons_self
    refine ⟨separator, hseparator, List.forall_mem_append.mpr ⟨hfirst, hgroup⟩, ?_⟩
    simp [GroupedBody.lines]
  · rintro ⟨separator, hseparator, hplain, rfl⟩
    obtain ⟨hbefore, hafter⟩ := List.forall_mem_append.mp hplain
    have hlines := GroupedBody.groupsOf_lines
      ⟨before, [(separator, after)], hbefore, by simpa using ⟨hseparator, hafter⟩⟩
    simpa [GroupedBody.lines, GroupedBody.groups] using hlines

/-! ## The groups in a line mod -/

theorem Insertion.pair_eq_ok_iff {points : List InsertionPoint} {groups : List Lines}
    {insertions : List Insertion} : Insertion.pair points groups = .ok insertions ↔
      points.length = groups.length ∧ insertions = List.zipWith Insertion.mk points groups := by
  unfold Insertion.pair
  split
  · next hlength => simp [hlength, eq_comm]
  · next hlength => simp [hlength]

namespace Directive

variable {d : Directive} {key : String}

/-- What the attributes of a directive say about the lines that are left out and the text that is
replaced. -/
structure EditsBy (d : Directive) (ignored : LineSet) (substitution : Option Substitution) :
    Prop where
  ignored : ∃ set?, d.read? "ignoreLines" (LineSet.parse "ignoreLines") = .ok set? ∧
    set?.getD [] = ignored
  substitution :
    d.read? "searchAndReplace" (Substitution.parse "searchAndReplace") = .ok substitution

theorem value?_of_has_eq_false (h : d.has key = false) : d.value? key = .ok none := by
  have hnone : d.attributes.get? key = none :=
    Option.isNone_iff_eq_none.mp (Option.isSome_eq_false_iff.mp h)
  rw [value?, hnone]

theorem read?_of_has_eq_false {α : Type} {read : String → Except Fault α} (h : d.has key = false) :
    d.read? key read = .ok none := by
  rw [read?, value?_of_has_eq_false h]
  rfl

/-- Without these attributes no line is left out and no text is replaced. -/
theorem editsBy_nothing (hignored : d.has "ignoreLines" = false)
    (hsubstitution : d.has "searchAndReplace" = false) : d.EditsBy [] none :=
  ⟨⟨none, read?_of_has_eq_false hignored, rfl⟩, read?_of_has_eq_false hsubstitution⟩

end Directive

namespace LineMod

variable {d : Directive} {kind : LineModKind} {ignored : LineSet}
  {substitution : Option Substitution} {points : Option String} {m : LineMod}

theorem ofDirective_eq_withBody (hedits : d.EditsBy ignored substitution)
    (hpoints : d.value? "at" = .ok points) (hlabel : points.isSome → d.bodyLabel = some .insert) :
    LineMod.ofDirective d kind =
      withBody { plain d.line kind with ignored, substitution } d points := by
  obtain ⟨⟨set?, hset, rfl⟩, hsubstitution⟩ := hedits
  have hallowed : (points.isSome && d.bodyLabel ≠ some .insert) = false := by
    cases points with
    | none => rfl
    | some text => simp [hlabel rfl]
  simp only [LineMod.ofDirective, hset, hsubstitution, hpoints, bind, Except.bind, hallowed,
    Bool.false_eq_true, if_false]

/-- The lines of the two groups stand before and after a snippet. -/
theorem ofDirective_around (hlabel : d.bodyLabel = some .around)
    (hedits : d.EditsBy ignored substitution) (hat : d.has "at" = false) :
    LineMod.ofDirective d kind = .ok m ↔ ∃ before after, Directive.groupsOf d.body = [before, after] ∧
      m = { plain d.line kind with ignored, substitution, before, after } := by
  rw [ofDirective_eq_withBody hedits (Directive.value?_of_has_eq_false hat) nofun]
  unfold withBody
  rw [hlabel]
  dsimp only [Directive.groups]
  split
  · next before after hgroups =>
    constructor
    · rintro ⟨⟩
      exact ⟨before, after, hgroups, rfl⟩
    · rintro ⟨before', after', hgroups', rfl⟩
      obtain ⟨rfl, rfl⟩ : before = before' ∧ after = after' := by
        simpa using hgroups.symm.trans hgroups'
      rfl
  · next hgroups =>
    constructor
    · rintro ⟨⟩
    · rintro ⟨before, after, hpair, -⟩
      exact absurd hpair (hgroups before after)

/-- Each group is inserted at the point with its number. -/
theorem ofDirective_insert {text : String} {points : List InsertionPoint}
    (hlabel : d.bodyLabel = some .insert) (hkind : kind.insertsGroups = true)
    (hedits : d.EditsBy ignored substitution) (hat : d.value? "at" = .ok (some text))
    (hpoints : InsertionPoint.parseList "at" text = .ok points) :
    LineMod.ofDirective d kind = .ok m ↔ points.length = (Directive.groupsOf d.body).length ∧
      m = { plain d.line kind with
        ignored, substitution,
        insertions := List.zipWith Insertion.mk points (Directive.groupsOf d.body) } := by
  rw [ofDirective_eq_withBody hedits hat fun _ => hlabel]
  unfold withBody
  rw [hlabel]
  have hallowed : (!(plain d.line kind).kind.insertsGroups) = false := by
    simpa [plain] using hkind
  simp only [hallowed, Bool.false_eq_true, if_false, hpoints, atLine_eq_ok, bind_eq_ok,
    Directive.groups, Insertion.pair_eq_ok_iff, Except.ok.injEq, exists_eq_left']
  constructor
  · rintro ⟨insertions, ⟨hlength, rfl⟩, rfl⟩
    exact ⟨hlength, rfl⟩
  · rintro ⟨hlength, rfl⟩
    exact ⟨_, ⟨hlength, rfl⟩, rfl⟩

end LineMod

/-- **Groups reach a line mod unchanged.** Cutting undoes putting groups together with separator lines, and
every body is put together so. A body with the label `around:` declares a line mod if exactly one of its
lines is a separator line; the lines in front of it stand before a snippet and those behind it after. A body
with the label `insert:` declares one if it has one separator line less than there are conditions; each group
is inserted by the condition with its number. -/
theorem groups_reach_line_mod :
    (∀ (d : Directive) (b : GroupedBody), d.body = b.lines → d.groups = b.groups) ∧
    (∀ body, ∃ b : GroupedBody, b.lines = body) ∧
    (∀ (d : Directive) (kind : LineModKind) (ignored : LineSet) (substitution : Option Substitution),
      d.bodyLabel = some .around → d.EditsBy ignored substitution → d.has "at" = false →
      ∀ m, LineMod.ofDirective d kind = .ok m ↔
        ∃ before separator after, d.body = before ++ separator :: after ∧ SeparatorLine separator ∧
          (∀ l ∈ before ++ after, ¬ SeparatorLine l) ∧
          m = { LineMod.plain d.line kind with ignored, substitution, before, after }) ∧
    (∀ (d : Directive) (kind : LineModKind) (ignored : LineSet) (substitution : Option Substitution)
      (text : String) (points : List InsertionPoint) (b : GroupedBody),
      d.bodyLabel = some .insert → (kind = .internal ∨ ∃ id, kind = .appliable id) →
      d.EditsBy ignored substitution → d.value? "at" = .ok (some text) →
      InsertionPoint.parseList "at" text = .ok points → d.body = b.lines →
      ∀ m, LineMod.ofDirective d kind = .ok m ↔ b.rest.length + 1 = points.length ∧
        m = { LineMod.plain d.line kind with
          ignored, substitution, insertions := List.zipWith Insertion.mk points b.groups }) := by
  refine ⟨?_, GroupedBody.exists_lines_eq, ?_, ?_⟩
  · intro d b hbody
    rw [Directive.groups, hbody, b.groupsOf_lines]
  · intro d kind ignored substitution hlabel hedits hat m
    rw [LineMod.ofDirective_around hlabel hedits hat]
    constructor
    · rintro ⟨before, after, hgroups, hm⟩
      obtain ⟨separator, hseparator, hplain, hbody⟩ := groupsOf_eq_pair_iff.mp hgroups
      exact ⟨before, separator, after, hbody, hseparator, hplain, hm⟩
    · rintro ⟨before, separator, after, hbody, hseparator, hplain, hm⟩
      exact ⟨before, after, groupsOf_eq_pair_iff.mpr ⟨separator, hseparator, hplain, hbody⟩, hm⟩
  · intro d kind ignored substitution text points b hlabel hkind hedits hat hpoints hbody m
    have hinserts : kind.insertsGroups = true := by
      rcases hkind with rfl | ⟨id, rfl⟩ <;> rfl
    rw [LineMod.ofDirective_insert hlabel hinserts hedits hat hpoints, hbody, b.groupsOf_lines,
      b.length_groups]
    exact and_congr_left' eq_comm

/-- A group in front of the first separator line, one behind the last one and one between the two others are
empty. -/
def emptyGroups : GroupedBody where
  first := []
  rest := [("•••", ["// one", "••"]), (" ••• ", []), ("\t•••", [])]
  first_plain := by simp
  rest_separated := by simp only [← isSeparator_iff]; decide

/-- A directive that inserts these groups. -/
def insertingDirective : Directive :=
  ⟨7, .ofList [("at", some "before:1, after:1, after:-1, before:'x'")], some .insert,
    emptyGroups.lines⟩

/-- A directive with nothing behind its separator line. -/
def wrappingDirective : Directive := ⟨3, .ofList [("each", some "js")], some .around, ["\x7b", "••• "]⟩

theorem groups_reach_line_mod_emptyGroups :
    LineMod.ofDirective wrappingDirective (.language "js") =
      .ok { LineMod.plain 3 (.language "js") with before := ["\x7b"], after := [] } ∧
    ∃ m, LineMod.ofDirective insertingDirective .internal = .ok m ∧
      m.insertions.map (fun i => (i.point.text, i.group)) =
        [("before:1", []), ("after:1", ["// one", "••"]), ("after:-1", []), ("before:'x'", [])] := by
  constructor
  · have hedits : wrappingDirective.EditsBy [] none :=
      Directive.editsBy_nothing (by decide +kernel) (by decide +kernel)
    have hat : wrappingDirective.has "at" = false := by decide +kernel
    have hseparator : SeparatorLine "••• " := isSeparator_iff.mp (by decide)
    have hplain : ∀ l ∈ ["\x7b"] ++ [], ¬ SeparatorLine l := by
      simp only [← isSeparator_iff]
      decide
    refine (groups_reach_line_mod.2.2.1 wrappingDirective _ [] none rfl hedits hat _).mpr ?_
    exact ⟨["\x7b"], "••• ", [], rfl, hseparator, hplain, rfl⟩
  · let points : List InsertionPoint :=
      [⟨.before, .number 1⟩, ⟨.after, .number 1⟩, ⟨.after, .number (-1)⟩, ⟨.before, .fragment "x"⟩]
    have hpoints : InsertionPoint.parseList "at" "before:1, after:1, after:-1, before:'x'" =
        .ok points := toOption_eq_some.mp (by decide +kernel)
    have hedits : insertingDirective.EditsBy [] none :=
      Directive.editsBy_nothing (by decide +kernel) (by decide +kernel)
    have hat : insertingDirective.value? "at" =
        .ok (some "before:1, after:1, after:-1, before:'x'") := rfl
    have hreach := groups_reach_line_mod.2.2.2 insertingDirective .internal [] none _ points
      emptyGroups rfl (.inl rfl) hedits hat hpoints rfl
    exact ⟨_, (hreach _).mpr ⟨rfl, rfl⟩, by decide +kernel⟩

end Doctest
