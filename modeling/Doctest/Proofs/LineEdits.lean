import Doctest.Proofs.DeclaredLineMods
import Doctest.Proofs.NamedLines
import Mathlib.Data.List.Nodup
import Mathlib.Data.List.Perm.Basic
import Mathlib.Data.List.Sort

/-!
# What line mods make of lines

A line mod counts lines twice: ignored lines in the lines as given, insertions in the lines that are
kept. Here its result is compared with a list of pieces, each of which is a kept line or the group of
a rule.

* `Keeps`: the lines that are kept, said by their numbers.
* `Piece.arrange`: kept lines in their order with the groups of rules around them.
* `inserted_arrange_perm`: no group is lost and none is put in twice, since every locator of a declared
  line mod names a line that exists.
* `edit_arranged`: when lines can be edited, and what the result is.
-/

namespace Doctest

/-! ## Lists cut by keys -/

/-- Entries collected key by key are all entries, if their keys are among the keys. -/
theorem flatMap_filter_perm {α κ : Type} [DecidableEq κ] (key : α → κ) {keys : List κ}
    (hkeys : keys.Nodup) {xs : List α} (h : ∀ x ∈ xs, key x ∈ keys) :
    (keys.flatMap fun k => xs.filter fun x => key x = k).Perm xs := by
  induction keys generalizing xs with
  | nil =>
    have hnil : xs = [] := List.eq_nil_iff_forall_not_mem.mpr fun x hx => List.not_mem_nil (h x hx)
    rw [hnil]
    rfl
  | cons k keys ih =>
    obtain ⟨hk, hnodup⟩ := List.nodup_cons.mp hkeys
    let others := xs.filter fun x => !decide (key x = k)
    -- The other keys find their entries among those that the first key leaves.
    have hothers : ∀ k' ∈ keys, (xs.filter fun x => key x = k') = others.filter fun x => key x = k' := by
      intro k' hk'
      have hne : k' ≠ k := fun heq => hk (heq ▸ hk')
      rw [List.filter_filter]
      refine List.filter_congr fun x _ => ?_
      by_cases hx : key x = k'
      · simp [hx, hne]
      · simp [hx]
    have hrest : ∀ x ∈ others, key x ∈ keys := by
      intro x hx
      obtain ⟨hmem, hne⟩ := List.mem_filter.mp hx
      have hor := List.mem_cons.mp (h x hmem)
      exact hor.resolve_left (by simpa using hne)
    rw [List.flatMap_cons, List.flatMap_congr hothers]
    exact ((ih hnodup hrest).append_left _).trans (List.filter_append_perm _ _)

/-! ## Where locators lead -/

namespace Locator

/-- The number of the line, if there is one. -/
def number? (locator : Locator) (lines : Lines) : Option Nat := (locator.resolve lines).toOption

theorem number?_eq_some_iff {locator : Locator} {lines : Lines} {n : Nat} :
    locator.number? lines = some n ↔ locator.resolve lines = .ok n := toOption_eq_some

end Locator

theorem LineSet.resolve_nil (lines : Lines) : LineSet.resolve [] lines = .ok [] := by
  simp only [LineSet.resolve, List.mapM_nil, pure_bind, List.flatten_nil, List.mergeSort_nil]
  rfl

/-! ## Pieces -/

namespace Insertion

/-- Every rule names one of the kept lines. -/
def Resolvable (rules : List Insertion) (kept : Lines) : Prop :=
  ∀ rule ∈ rules, ∃ n, rule.point.locator.resolve kept = .ok n

/-- The rule with another group. -/
def regroup (groups : Insertion → Lines) (rule : Insertion) : Insertion :=
  { rule with group := groups rule }

end Insertion

/-- A piece of the lines after an edit. -/
inductive Piece
  | kept (line : String)
  | inserted (rule : Insertion)

namespace Piece

def lines : Piece → Lines
  | .kept line => [line]
  | .inserted rule => rule.group

def kept? : Piece → Option String
  | .kept line => some line
  | .inserted _ => none

def inserted? : Piece → Option Insertion
  | .kept _ => none
  | .inserted rule => some rule

def regroup (groups : Insertion → Lines) : Piece → Piece
  | .kept line => .kept line
  | .inserted rule => .inserted (rule.regroup groups)

/-- The rules for one side of the line with a number, in their order. -/
def rulesAt (rules : List Insertion) (kept : Lines) (side : Side) (number : Nat) : List Insertion :=
  rules.filter fun rule =>
    rule.point.side = side && rule.point.locator.number? kept = some number

/-- A kept line with a number, between the groups of the rules for it. -/
def around (rules : List Insertion) (kept : Lines) (line : String) (number : Nat) : List Piece :=
  (rulesAt rules kept .before number).map .inserted ++
    .kept line :: (rulesAt rules kept .after number).map .inserted

/-- The kept lines in their order with the groups of the rules around them. -/
def arrange (rules : List Insertion) (kept : Lines) : List Piece :=
  (kept.zipIdx 1).flatMap fun (line, number) => around rules kept line number

/-! ## What pieces hold -/

@[simp] theorem filterMap_kept?_around (rules : List Insertion) (kept : Lines) (line : String)
    (number : Nat) : (around rules kept line number).filterMap kept? = [line] := by
  simp [around, List.filterMap_map, Function.comp_def, kept?]

@[simp] theorem filterMap_inserted?_around (rules : List Insertion) (kept : Lines) (line : String)
    (number : Nat) :
    (around rules kept line number).filterMap inserted? =
      rulesAt rules kept .before number ++ rulesAt rules kept .after number := by
  simp [around, List.filterMap_cons, List.filterMap_map, Function.comp_def, inserted?]

/-- No line is lost, and their order stays. -/
theorem filterMap_kept?_arrange (rules : List Insertion) (kept : Lines) :
    (arrange rules kept).filterMap kept? = kept := by
  have hfirst : (kept.zipIdx 1).map Prod.fst = kept := List.zipIdx_map_fst 1 kept
  unfold arrange
  rw [List.filterMap_flatMap]
  simp only [filterMap_kept?_around]
  rw [← List.map_eq_flatMap]
  exact hfirst

/-- The rules for both sides of a line are the rules whose locator names it. -/
theorem rulesAt_append_perm (rules : List Insertion) (kept : Lines) (number : Nat) :
    (rulesAt rules kept .before number ++ rulesAt rules kept .after number).Perm
      (rules.filter fun rule => rule.point.locator.number? kept = some number) := by
  let here := rules.filter fun rule => rule.point.locator.number? kept = some number
  have hbefore : rulesAt rules kept .before number =
      here.filter fun rule => rule.point.side = .before := by
    unfold rulesAt
    rw [List.filter_filter]
  have hafter : rulesAt rules kept .after number =
      here.filter fun rule => !decide (rule.point.side = .before) := by
    unfold rulesAt
    rw [List.filter_filter]
    refine List.filter_congr fun rule _ => ?_
    cases rule.point.side <;> simp
  rw [hbefore, hafter]
  exact List.filter_append_perm _ here

/-- **Every group is inserted once.** All rules whose locators name a line are among the pieces, and
each of them is there as often as it was given. -/
theorem inserted_arrange_perm {rules : List Insertion} {kept : Lines}
    (h : ∀ rule ∈ rules, ∃ n, rule.point.locator.number? kept = some n ∧ 1 ≤ n ∧ n ≤ kept.length) :
    ((arrange rules kept).filterMap inserted?).Perm rules := by
  let numbers := List.range' 1 kept.length
  have hnumbers : (kept.zipIdx 1).map Prod.snd = numbers := List.zipIdx_map_snd 1 kept
  have hflat : (arrange rules kept).filterMap inserted? = numbers.flatMap fun n =>
      rulesAt rules kept .before n ++ rulesAt rules kept .after n := by
    unfold arrange
    rw [List.filterMap_flatMap, ← hnumbers, List.flatMap_map]
    simp only [filterMap_inserted?_around]
  have hsides : (numbers.flatMap fun n =>
        rulesAt rules kept .before n ++ rulesAt rules kept .after n).Perm
      (numbers.flatMap fun n =>
        rules.filter fun rule => rule.point.locator.number? kept = some n) :=
    List.Perm.flatMap_left numbers fun n _ => rulesAt_append_perm rules kept n
  have hnodup : (numbers.map some).Nodup :=
    List.Nodup.map (fun _ _ heq => Option.some.inj heq) List.nodup_range'
  have hmem : ∀ rule ∈ rules, rule.point.locator.number? kept ∈ numbers.map some := by
    intro rule hrule
    obtain ⟨n, hn, hlow, hhigh⟩ := h rule hrule
    rw [hn]
    refine List.mem_map_of_mem (List.mem_range'_1.mpr ?_)
    omega
  have hkeys := flatMap_filter_perm (fun rule : Insertion => rule.point.locator.number? kept) hnodup hmem
  rw [List.flatMap_map] at hkeys
  rw [hflat]
  exact hsides.trans hkeys

theorem rulesAt_regroup (groups : Insertion → Lines) (rules : List Insertion) (kept : Lines)
    (side : Side) (number : Nat) :
    rulesAt (rules.map (·.regroup groups)) kept side number =
      (rulesAt rules kept side number).map (·.regroup groups) := by
  unfold rulesAt
  rw [List.filter_map]
  rfl

/-- **No locator counts inserted lines.** With other groups all lines and groups have the same
places. -/
theorem arrange_regroup (groups : Insertion → Lines) (rules : List Insertion) (kept : Lines) :
    arrange (rules.map (·.regroup groups)) kept = (arrange rules kept).map (regroup groups) := by
  unfold arrange
  rw [List.map_flatMap]
  refine List.flatMap_congr fun (line, number) _ => ?_
  dsimp only [around]
  rw [rulesAt_regroup, rulesAt_regroup, List.map_append, List.map_cons, List.map_map, List.map_map,
    List.map_map, List.map_map]
  rfl

/-- Lines and groups add up. -/
theorem length_flatMap_lines (pieces : List Piece) :
    (pieces.flatMap lines).length = (pieces.filterMap kept?).length +
      ((pieces.filterMap inserted?).flatMap (·.group)).length := by
  induction pieces with
  | nil => rfl
  | cons piece pieces ih =>
    rw [List.flatMap_cons, List.length_append, ih]
    cases piece with
    | kept line =>
      simp only [lines, kept?, inserted?, List.filterMap_cons, List.length_cons, List.length_nil]
      omega
    | inserted rule =>
      simp only [lines, kept?, inserted?, List.filterMap_cons, List.flatMap_cons, List.length_append]
      omega

end Piece

/-! ## Insertions -/

namespace Insertion

instance : Inhabited Insertion := ⟨⟨⟨.before, .number 1⟩, []⟩⟩

/-- Every rule with the number of the line that it is for. -/
def numbered (rules : List Insertion) (kept : Lines) : List (Insertion × Nat) :=
  rules.map fun rule => (rule, (rule.point.locator.number? kept).getD 0)

theorem groupsAt_numbered {rules : List Insertion} {kept : Lines}
    (h : ∀ rule ∈ rules, ∃ n, rule.point.locator.number? kept = some n) (side : Side) (number : Nat) :
    groupsAt (numbered rules kept) side number =
      (Piece.rulesAt rules kept side number).flatMap (·.group) := by
  unfold groupsAt numbered Piece.rulesAt
  rw [List.filter_map, List.flatMap_map]
  congr 1
  refine List.filter_congr fun rule hrule => ?_
  obtain ⟨n, hn⟩ := h rule hrule
  simp [hn]

theorem flatMap_lines_around (rules : List Insertion) (kept : Lines) (line : String) (number : Nat) :
    (Piece.around rules kept line number).flatMap Piece.lines =
      (Piece.rulesAt rules kept .before number).flatMap (·.group) ++
        line :: (Piece.rulesAt rules kept .after number).flatMap (·.group) := by
  unfold Piece.around
  rw [List.flatMap_append, List.flatMap_cons, List.flatMap_map, List.flatMap_map]
  rfl

theorem numbered_eq_ok {rules : List Insertion} {kept : Lines} {resolved : List (Insertion × Nat)} :
    (rules.mapM fun rule => do
        let n ← rule.point.locator.resolve kept
        return (rule, n)) = .ok resolved ↔
      Resolvable rules kept ∧ resolved = numbered rules kept := by
  have hstep : ∀ rule : Insertion, ∀ n, rule.point.locator.resolve kept = .ok n →
      (rule, (rule.point.locator.number? kept).getD 0) = (rule, n) := by
    intro rule n hn
    rw [Locator.number?_eq_some_iff.mpr hn, Option.getD_some]
  rw [mapM_eq_ok]
  constructor
  · rintro ⟨g, hg, rfl⟩
    have hfound : ∀ rule ∈ rules, ∃ n, rule.point.locator.resolve kept = .ok n ∧ (rule, n) = g rule := by
      intro rule hrule
      obtain ⟨n, hn, h⟩ := bind_eq_ok.mp (hg rule hrule)
      exact ⟨n, hn, Except.ok.inj h⟩
    refine ⟨fun rule hrule => ?_, List.map_congr_left fun rule hrule => ?_⟩
    · obtain ⟨n, hn, -⟩ := hfound rule hrule
      exact ⟨n, hn⟩
    · obtain ⟨n, hn, h⟩ := hfound rule hrule
      rw [hstep rule n hn, h]
  · rintro ⟨hresolve, rfl⟩
    refine ⟨_, fun rule hrule => ?_, rfl⟩
    obtain ⟨n, hn⟩ := hresolve rule hrule
    exact bind_eq_ok.mpr ⟨n, hn, congrArg Except.ok (hstep rule n hn).symm⟩

/-- Groups can be inserted if and only if all locators name lines. -/
theorem apply_eq_ok {rules : List Insertion} {kept out : Lines} :
    apply rules kept = .ok out ↔
      Resolvable rules kept ∧ out = (Piece.arrange rules kept).flatMap Piece.lines := by
  have hlines : Resolvable rules kept →
      (kept.zipIdx.flatMap fun (l, i) =>
          groupsAt (numbered rules kept) .before (i + 1) ++
            l :: groupsAt (numbered rules kept) .after (i + 1)) =
        (Piece.arrange rules kept).flatMap Piece.lines := by
    intro hresolve
    have hnumber : ∀ rule ∈ rules, ∃ n, rule.point.locator.number? kept = some n :=
      fun rule hrule => (hresolve rule hrule).imp fun _ => Locator.number?_eq_some_iff.mpr
    unfold Piece.arrange
    rw [List.flatMap_assoc, List.zipIdx_succ, List.flatMap_map]
    refine List.flatMap_congr fun (l, i) _ => ?_
    dsimp only [Prod.map]
    rw [flatMap_lines_around, groupsAt_numbered hnumber, groupsAt_numbered hnumber]
  unfold apply
  rw [bind_eq_ok]
  constructor
  · rintro ⟨resolved, hresolved, h⟩
    obtain ⟨hresolve, rfl⟩ := numbered_eq_ok.mp hresolved
    exact ⟨hresolve, (Except.ok.inj h).symm.trans (hlines hresolve)⟩
  · rintro ⟨hresolve, rfl⟩
    exact ⟨_, numbered_eq_ok.mpr ⟨hresolve, rfl⟩, congrArg Except.ok (hlines hresolve)⟩

end Insertion

/-! ## Line mods -/

namespace LineMod

variable {m : LineMod}

/-- The line with text replaced, if the line mod replaces any. -/
def rewrite (m : LineMod) (line : String) : String := m.substitution.elim line (·.apply line)

/-- What is kept of lines: all lines whose numbers are not ignored, in ascending order, with text
replaced. -/
def Keeps (m : LineMod) (ignored : List Nat) (lines kept : Lines) : Prop :=
  ∃ numbers : List Nat, numbers.Pairwise (· < ·) ∧
    (∀ n, n ∈ numbers ↔ 1 ≤ n ∧ n ≤ lines.length ∧ n ∉ ignored) ∧
    kept.map some = numbers.map fun n => lines[n - 1]?.map m.rewrite

theorem keeps_keep (m : LineMod) (ignored : List Nat) (lines : Lines) :
    m.Keeps ignored lines (m.keep ignored lines) := by
  let entries := lines.zipIdx.filter fun (_, i) => !ignored.contains (i + 1)
  have hentries : ∀ l i, (l, i) ∈ entries ↔ lines[i]? = some l ∧ i + 1 ∉ ignored := by
    intro l i
    simp [entries, List.mem_zipIdx_iff_getElem?]
  have hascending : lines.zipIdx.Pairwise fun a b => a.2 < b.2 := by
    rw [← List.pairwise_map, List.zipIdx_map_snd]
    exact List.pairwise_lt_range'
  refine ⟨entries.map fun (_, i) => i + 1, ?_, fun n => ?_, ?_⟩
  · rw [List.pairwise_map]
    exact (hascending.filter _).imp Nat.succ_lt_succ
  · constructor
    · intro hn
      obtain ⟨⟨l, i⟩, hmem, rfl⟩ := List.mem_map.mp hn
      obtain ⟨hl, hkept⟩ := (hentries l i).mp hmem
      have hlt := (List.getElem?_eq_some_iff.mp hl).1
      exact ⟨Nat.le_add_left 1 i, hlt, hkept⟩
    · rintro ⟨hlow, hhigh, hkept⟩
      have hlt : n - 1 < lines.length := by omega
      have hsucc : n - 1 + 1 = n := by omega
      refine List.mem_map.mpr ⟨(lines[n - 1], n - 1), (hentries _ _).mpr ?_, hsucc⟩
      exact ⟨List.getElem?_eq_getElem hlt, hsucc.symm ▸ hkept⟩
  · unfold keep
    rw [List.map_map, List.map_map]
    refine List.map_congr_left fun (l, i) hmem => ?_
    have hl := ((hentries l i).mp hmem).1
    simp only [Function.comp_apply, Nat.add_sub_cancel, hl, Option.map_some, rewrite]
    cases m.substitution <;> rfl

/-- What is kept is fixed by the ignored numbers. -/
theorem Keeps.unique {ignored : List Nat} {lines kept kept' : Lines} (h : m.Keeps ignored lines kept)
    (h' : m.Keeps ignored lines kept') : kept = kept' := by
  obtain ⟨numbers, hsorted, hmem, hlines⟩ := h
  obtain ⟨numbers', hsorted', hmem', hlines'⟩ := h'
  have hnumbers : numbers = numbers' :=
    hsorted.eq_of_mem_iff hsorted' fun n => (hmem n).trans (hmem' n).symm
  subst hnumbers
  exact List.map_injective_iff.mpr (fun _ _ => Option.some.inj) (hlines.trans hlines'.symm)

/-- The ignored numbers are resolved in the lines as given, the rules in the lines that are kept. -/
theorem edit_eq_ok {lines out : Lines} :
    m.edit lines = .ok out ↔ ∃ ignored kept, m.ignored.resolve lines = .ok ignored ∧
      m.Keeps ignored lines kept ∧ Insertion.Resolvable m.insertions kept ∧
      out = (Piece.arrange m.insertions kept).flatMap Piece.lines := by
  unfold edit
  rw [bind_eq_ok]
  constructor
  · rintro ⟨ignored, hignored, h⟩
    exact ⟨ignored, _, hignored, keeps_keep m ignored lines, Insertion.apply_eq_ok.mp h⟩
  · rintro ⟨ignored, kept, hignored, hkept, h⟩
    rw [hkept.unique (keeps_keep m ignored lines)] at h
    exact ⟨ignored, hignored, Insertion.apply_eq_ok.mpr h⟩

theorem edit_of_plain {lines : Lines} (hignored : m.ignored = []) (hsubstitution : m.substitution = none)
    (hinsertions : m.insertions = []) : m.edit lines = .ok lines := by
  have hkept : m.Keeps [] lines lines := by
    refine ⟨List.range' 1 lines.length, List.pairwise_lt_range', fun n => ?_, ?_⟩
    · rw [List.mem_range'_1]
      simp only [List.not_mem_nil, not_false_eq_true, and_true]
      omega
    · refine List.ext_getElem (by simp) fun i hi _ => ?_
      have hlt : i < lines.length := by simpa using hi
      simp [rewrite, hsubstitution, Nat.add_comm 1, hlt]
  have hlines : (Piece.arrange [] lines).flatMap Piece.lines = lines := by
    have hfirst : (lines.zipIdx 1).map Prod.fst = lines := List.zipIdx_map_fst 1 lines
    unfold Piece.arrange
    rw [List.flatMap_assoc]
    simp only [Insertion.flatMap_lines_around, Piece.rulesAt, List.filter_nil, List.flatMap_nil,
      List.nil_append]
    rw [← List.map_eq_flatMap]
    exact hfirst
  refine edit_eq_ok.mpr ⟨[], lines, ?_, hkept, ?_, ?_⟩
  · rw [hignored]
    exact LineSet.resolve_nil lines
  · rw [hinsertions]
    exact fun rule hrule => absurd hrule List.not_mem_nil
  · rw [hinsertions]
    exact hlines.symm

/-- **What a declared line mod makes of lines.** Ignored lines are found in the lines as given, places
of groups in the lines that are kept. If all of them are found, the kept lines come in their order with
the groups around them; each group is there once, as it was written, and moves nothing else. -/
theorem edit_arranged {d : Directive} {kind : LineModKind} (h : LineMod.ofDirective d kind = .ok m)
    (lines : Lines) :
    (∀ out, m.edit lines = .ok out ↔ ∃ ignored kept, m.ignored.resolve lines = .ok ignored ∧
      m.Keeps ignored lines kept ∧ Insertion.Resolvable m.insertions kept ∧
      out = (Piece.arrange m.insertions kept).flatMap Piece.lines) ∧
    (∀ ignored, ∃! kept, m.Keeps ignored lines kept) ∧
    (∀ kept, Insertion.Resolvable m.insertions kept →
      let pieces := Piece.arrange m.insertions kept
      pieces.filterMap Piece.kept? = kept ∧
      (pieces.filterMap Piece.inserted?).Perm m.insertions ∧
      (pieces.flatMap Piece.lines).length =
        kept.length + (m.insertions.flatMap (·.group)).length ∧
      ∀ groups, Piece.arrange (m.insertions.map (·.regroup groups)) kept =
        pieces.map (Piece.regroup groups)) ∧
    (m.ignored = [] → m.substitution = none → m.insertions = [] → m.edit lines = .ok lines) := by
  refine ⟨fun out => edit_eq_ok, fun ignored => ?_, fun kept hresolve => ?_, edit_of_plain⟩
  · exact ⟨_, keeps_keep m ignored lines, fun kept hkept => hkept.unique (keeps_keep m ignored lines)⟩
  · -- A rule that finds a line finds one of those that are arranged, as no locator is zero.
    have hlocators := (declaredBy_of_ofDirective h).locators
    have hfound : ∀ rule ∈ m.insertions,
        ∃ n, rule.point.locator.number? kept = some n ∧ 1 ≤ n ∧ n ≤ kept.length := by
      intro rule hrule
      have hzero : rule.point.locator ≠ .number 0 :=
        hlocators _ (List.mem_append_right _ (List.mem_map_of_mem hrule))
      obtain ⟨n, hn⟩ := hresolve rule hrule
      exact ⟨n, Locator.number?_eq_some_iff.mpr hn, ((Locator.resolve_eq_ok hzero).mp hn).bounds⟩
    have hperm := Piece.inserted_arrange_perm hfound
    refine ⟨Piece.filterMap_kept?_arrange _ _, hperm, ?_, fun groups => Piece.arrange_regroup _ _ _⟩
    rw [Piece.length_flatMap_lines, Piece.filterMap_kept?_arrange, (hperm.flatMap_right _).length_eq]

/-- A line is ignored, text is replaced, and two groups stand before the line that is the last one kept. -/
def busyLineMod : Directive :=
  ⟨3, .ofList [("ignoreLines", some "2"), ("searchAndReplace", some "/l/L/g"),
      ("at", some "after:1, before:-1, before:'gamma'")],
    some .insert, ["-- one", "•••", "-- two", "-- three", "•••", "-- four"]⟩

theorem edit_arranged_busy : ∃ m, LineMod.ofDirective busyLineMod .internal = .ok m ∧
    m.edit ["alpha", "beta", "gamma"] =
      .ok ["aLpha", "-- one", "-- two", "-- three", "-- four", "gamma"] ∧
    ∃ kept, Insertion.Resolvable m.insertions kept ∧
      ((Piece.arrange m.insertions kept).filterMap Piece.inserted?).Perm m.insertions ∧
      6 = kept.length + (m.insertions.flatMap (·.group)).length := by
  have hrun : (LineMod.ofDirective busyLineMod .internal >>= fun m =>
      m.edit ["alpha", "beta", "gamma"]).toOption =
        some ["aLpha", "-- one", "-- two", "-- three", "-- four", "gamma"] := by decide +kernel
  obtain ⟨m, hm, hedit⟩ := bind_eq_ok.mp (toOption_eq_some.mp hrun)
  obtain ⟨hok, -, harranged, -⟩ := edit_arranged hm ["alpha", "beta", "gamma"]
  obtain ⟨ignored, kept, -, -, hresolve, hout⟩ := (hok _).mp hedit
  obtain ⟨-, hperm, hlength, -⟩ := harranged kept hresolve
  exact ⟨m, hm, hedit, kept, hresolve, hperm, (congrArg List.length hout).trans hlength⟩

end LineMod

end Doctest
