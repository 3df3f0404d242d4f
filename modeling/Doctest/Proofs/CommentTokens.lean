import Doctest.Document.Token
import Doctest.Proofs.CommentScan
import Mathlib.Data.List.Induction

/-!
# Comments among the tokens

Whatever a Markdown reader finds in a text, each comment in its HTML becomes one token, between the
tokens of the blocks around it, or it has no end and is a fault. HTML inside headings is the
exception: it is not looked at.

* `Block.stretches`: the stretches of HTML in a block that are looked at.
* `foldl_withHtml`, `foldl_step`: what the scan of some stretches adds, and what all blocks up to a
  place come to.
* `ofBlocks_comments`: the tokens of a text, or the one fault that is found.
* `ofSource_commentInHeading`: a comment inside a heading is lost.
-/

namespace Doctest

open Markdown (Block Inline Range)

/-- The place of HTML inside running text. -/
def Markdown.Inline.html? : Inline → Option Range
  | .html r => some r
  | .text _ | .code _ | .softBreak | .hardBreak => none

/-- The stretches of HTML in a block. Those inside a heading do not count. -/
def Markdown.Block.stretches : Block → List Range
  | .html r => [r]
  | .running content => content.filterMap Inline.html?
  | .code .. | .heading .. => []

namespace Token

open Comment (IsClosed Opens Outer Scanned Scans stopAt textAt)

/-- The token that a block is itself. -/
def own (source : List Char) : Block → List Token
  | .code start info text =>
    [.codeBlock (Source.lineOfIndex source start) (String.ofList ((Text.words info).headD []))
      ((Text.lineList text).map String.ofList)]
  | .heading start content => [.heading (Source.lineOfIndex source start) (headingText content)]
  | .html _ | .running _ => []

/-- The comment that starts at `s`. -/
def commentAt (source : List Char) (s : Nat) : Token :=
  .comment (Source.lineOfIndex source s) (String.ofList (textAt source s))

/-- The text behind the opening mark at `s` starts with the directive's word. -/
def SaysDirective (source : List Char) (s : Nat) : Prop :=
  Directive.keyword <+: Text.trimStart (source.drop (s + Comment.opening.length))

instance (source : List Char) (s : Nat) : Decidable (SaysDirective source s) :=
  inferInstanceAs (Decidable (_ <+: _))

/-- The fault of a directive that starts at `s` and does not end. -/
def unended (source : List Char) (s : Nat) : Fault :=
  .atLine (Source.lineOfIndex source s) DirectiveCause.unterminatedDirective

/-- The comments among these that are tokens. -/
def commentsAt (source : List Char) (starts : List Nat) : List Token :=
  (starts.filter fun s => IsClosed source s).map (commentAt source)

/-- The faults among these. -/
def faultsAt (source : List Char) (starts : List Nat) : List Fault :=
  (starts.filter fun s => ¬ IsClosed source s ∧ SaysDirective source s).map (unended source)

variable {source : List Char} {p : Progress} {r : Range} {stretches : List Range}
  {starts : List Nat}

/-- What one stretch adds. -/
theorem withHtml_eq (source : List Char) (p : Progress) (r : Range) :
    ∃ more, Scans source r (max r.start p.consumed) more ∧
      p.withHtml source r = ⟨p.tokens ++ commentsAt source more, p.faults ++ faultsAt source more,
        (more.getLast?.map (stopAt source)).getD p.consumed⟩ := by
  obtain ⟨more, hscans, hfound⟩ :=
    Comment.scanFrom_eq source p.consumed (max r.start p.consumed) (le_max_left _ _)
  refine ⟨more, hscans, ?_⟩
  have hdirective (s : Nat) : (Directive.keyword.isPrefixOf
      (Text.trimStart (source.drop (s + Comment.opening.length))) = true) ↔ SaysDirective source s :=
    List.isPrefixOf_iff_prefix
  have hfaults := hscans.toList_unterminated fun s => Directive.keyword.isPrefixOf
    (Text.trimStart (source.drop (s + Comment.opening.length)))
  simp only [hdirective] at hfaults
  simp only [Progress.withHtml, Comment.scan, hfound, Comment.foundAt, hfaults, List.map_map]
  rfl

/-- **What several stretches add.** Those in front of them, with the comments in them, are known. -/
theorem foldl_withHtml (rs : List Range) (h : Scanned source stretches starts p.consumed)
    (horder : (stretches ++ rs).Pairwise fun r r' => r.start ≤ r'.start) :
    ∃ more consumed, rs.foldl (Progress.withHtml source) p =
        ⟨p.tokens ++ commentsAt source more, p.faults ++ faultsAt source more, consumed⟩ ∧
      Scanned source (stretches ++ rs) (starts ++ more) consumed ∧
      ∀ s ∈ more, ∃ r ∈ rs, Opens source r s := by
  induction rs generalizing p stretches starts with
  | nil => exact ⟨[], p.consumed, by simp [commentsAt, faultsAt], by simpa using h, by simp⟩
  | cons r rs ih =>
    obtain ⟨here, hscans, hhere⟩ := withHtml_eq source p r
    have hstart : ∀ r' ∈ stretches, r'.start ≤ r.start := fun r' hr' =>
      (List.pairwise_append.mp horder).2.2 r' hr' r List.mem_cons_self
    have hnext := h.concat hstart hscans
    rw [List.append_cons] at horder
    obtain ⟨more, consumed, hmore, hscanned, hopens⟩ :=
      ih (p := p.withHtml source r) (by rw [hhere]; exact hnext) horder
    refine ⟨here ++ more, consumed, ?_, ?_, ?_⟩
    · rw [List.foldl_cons, hmore, hhere]
      simp [commentsAt, faultsAt]
    · rw [List.append_cons, ← List.append_assoc]
      exact hscanned
    · intro s hs
      rcases List.mem_append.mp hs with hs | hs
      · exact ⟨r, List.mem_cons_self, (hscans.opens s hs).2⟩
      · obtain ⟨r', hr', hs⟩ := hopens s hs
        exact ⟨r', List.mem_cons_of_mem r hr', hs⟩

theorem step_eq (p : Progress) (b : Block) :
    p.step source b = b.stretches.foldl (Progress.withHtml source)
      { p with tokens := p.tokens ++ own source b } := by
  cases b with
  | html r => simp [Progress.step, Block.stretches, own]
  | code start info text => rfl
  | heading start content => rfl
  | running content =>
    simp only [Progress.step, Block.stretches, own, List.append_nil, List.foldl_filterMap]
    congr 1
    funext q i
    cases i <;> rfl

/-- **What all blocks add.** Each block comes with the starts of the comments in it. -/
theorem foldl_step (source : List Char) (blocks : List Block)
    (horder : (blocks.flatMap Block.stretches).Pairwise fun r r' => r.start ≤ r'.start) :
    ∃ (placed : List (Block × List Nat)) (consumed : Nat), placed.map Prod.fst = blocks ∧
      blocks.foldl (Progress.step source) ⟨[], [], 0⟩ =
        ⟨placed.flatMap fun (b, starts) => own source b ++ commentsAt source starts,
          faultsAt source (placed.flatMap Prod.snd), consumed⟩ ∧
      Scanned source (blocks.flatMap Block.stretches) (placed.flatMap Prod.snd) consumed ∧
      ∀ b starts, (b, starts) ∈ placed → ∀ s ∈ starts, ∃ r ∈ b.stretches, Opens source r s := by
  induction blocks using List.reverseRecOn with
  | nil => exact ⟨[], 0, rfl, rfl, Scanned.nil source, by simp⟩
  | append_singleton blocks b ih =>
    rw [List.flatMap_append, List.flatMap_singleton] at horder ⊢
    obtain ⟨placed, consumed, hblocks, hfold, hscanned, hopens⟩ :=
      ih (List.pairwise_append.mp horder).1
    obtain ⟨more, consumed', hmore, hscanned', hopens'⟩ :=
      foldl_withHtml (p := { blocks.foldl (Progress.step source) ⟨[], [], 0⟩ with
          tokens := (blocks.foldl (Progress.step source) ⟨[], [], 0⟩).tokens ++ own source b })
        b.stretches (by rw [hfold]; exact hscanned) horder
    refine ⟨placed ++ [(b, more)], consumed', by simp [hblocks], ?_, ?_, ?_⟩
    · rw [List.foldl_append, List.foldl_cons, List.foldl_nil, step_eq, hmore, hfold]
      simp [faultsAt]
    · simpa using hscanned'
    · intro b' starts hmem
      rcases List.mem_append.mp hmem with hmem | hmem
      · exact hopens b' starts hmem
      · cases List.mem_singleton.mp hmem
        exact hopens'

/-- **No comment outside headings is lost.** Let the stretches of HTML stand in the order of the text.
A directive without an end that starts in one of them, and not inside an earlier comment, is the one
fault that is found. Without such a directive every comment that starts so and has an end becomes one
token, with its own line and text, behind the tokens of the blocks in front of it and in front of
those of the blocks behind it. -/
theorem ofBlocks_comments (source : List Char) (blocks : List Block)
    (horder : (blocks.flatMap Block.stretches).Pairwise fun r r' => r.start ≤ r'.start) :
    let stretches := blocks.flatMap Block.stretches
    (∀ s, Outer source stretches s → ¬ IsClosed source s → SaysDirective source s →
      ofBlocks source blocks = .error
        [.atLine (Source.lineOfIndex source s) DirectiveCause.unterminatedDirective]) ∧
    ((∀ s, Outer source stretches s → ¬ IsClosed source s → ¬ SaysDirective source s) →
      ∃ placed : List (Block × List Nat), placed.map Prod.fst = blocks ∧
        ofBlocks source blocks = .ok (placed.flatMap fun (b, starts) =>
          own source b ++ starts.map fun s =>
            .comment (Source.lineOfIndex source s) (String.ofList (textAt source s))) ∧
        (placed.flatMap Prod.snd).Pairwise (· < ·) ∧
        (∀ s, s ∈ placed.flatMap Prod.snd ↔ Outer source stretches s ∧ IsClosed source s) ∧
        ∀ b starts, (b, starts) ∈ placed → ∀ s ∈ starts, ∃ r ∈ b.stretches, Opens source r s) := by
  intro stretches
  obtain ⟨placed, consumed, hblocks, hfold, hscanned, hopens⟩ :=
    foldl_step source blocks horder
  unfold ofBlocks
  rw [hfold]
  dsimp only
  constructor
  · intro s houter hopen hdirective
    have hfaults : faultsAt source (placed.flatMap Prod.snd) = [unended source s] := by
      unfold faultsAt
      rw [hscanned.filter_of_not_closed ((hscanned.mem s).mpr houter) hopen
        (fun s' hs' => (of_decide_eq_true hs').1) (decide_eq_true ⟨hopen, hdirective⟩)]
      rfl
    rw [hfaults]
    rfl
  · intro hnone
    have hfaults : faultsAt source (placed.flatMap Prod.snd) = [] := by
      refine List.map_eq_nil_iff.mpr (List.filter_eq_nil_iff.mpr fun s hs hfault => ?_)
      obtain ⟨hopen, hdirective⟩ := of_decide_eq_true hfault
      exact hnone s ((hscanned.mem s).mp hs) hopen hdirective
    rw [hfaults]
    have hclosed : (placed.map fun (b, starts) =>
          (b, starts.filter fun s => IsClosed source s)).flatMap Prod.snd =
        (placed.flatMap Prod.snd).filter fun s => IsClosed source s := by
      rw [List.flatMap_map, List.filter_flatMap]
    have hascending : (placed.flatMap Prod.snd).Pairwise (· < ·) :=
      hscanned.ascending.imp_of_mem fun hs _ hle => (hscanned.lt_stopAt hs).trans_le hle
    refine ⟨placed.map fun (b, starts) => (b, starts.filter fun s => IsClosed source s), ?_, ?_, ?_,
      fun s => ?_, ?_⟩
    · rw [List.map_map]
      exact hblocks
    · rw [List.flatMap_map]
      rfl
    · rw [hclosed]
      exact hascending.filter _
    · rw [hclosed, List.mem_filter, hscanned.mem, decide_eq_true_eq]
    · intro b starts hmem s hs
      obtain ⟨⟨b', starts'⟩, hmem', ⟨⟩⟩ := List.mem_map.mp hmem
      exact hopens _ _ hmem' s (List.mem_filter.mp hs).1

/-- Comments in a list, in a cell of a table and between paragraphs. The last one but one goes on over
two lines. -/
def scattered : String :=
  "- a <!--markcheck skip-->\n\n| <!-- b --> |\n|---|\n\n<!-- c\n--> d <!-- e -->\n"

theorem ofBlocks_comments_scattered :
    let source := scattered.toList
    let blocks := Block.read source
    (blocks.flatMap Block.stretches).Pairwise (fun r r' => r.start ≤ r'.start) ∧
      ∃ placed : List (Block × List Nat), placed.map Prod.fst = blocks ∧
        ofSource scattered = .ok (placed.flatMap fun (b, starts) =>
          own source b ++ starts.map fun s =>
            .comment (Source.lineOfIndex source s) (String.ofList (textAt source s))) ∧
        (placed.flatMap Prod.snd).Pairwise (· < ·) ∧ 4 ∈ placed.flatMap Prod.snd := by
  intro source blocks
  have horder : (blocks.flatMap Block.stretches).Pairwise fun r r' => r.start ≤ r'.start := by
    decide +kernel
  have hclosed : ∀ s < source.length, Comment.opening <+: source.drop s → IsClosed source s := by
    decide +kernel
  have hfirst : ∃ r ∈ blocks.flatMap Block.stretches, r.start ≤ 4 ∧ 4 + Comment.opening.length ≤ r.stop ∧
      Comment.opening <+: source.drop 4 := by
    decide +kernel
  have hbefore : ∀ s < 4, ¬ Comment.opening <+: source.drop s := by
    decide +kernel
  obtain ⟨placed, hblocks, htokens, hascending, hmem, -⟩ :=
    (ofBlocks_comments source blocks horder).2 fun s houter hopen => by
      obtain ⟨⟨r, -, hopens⟩, -⟩ := Comment.outer_iff.mp houter
      have hlength := hopens.add_le_length
      rw [Comment.length_opening] at hlength
      exact absurd (hclosed s (by omega) hopens.mark) hopen
  refine ⟨horder, placed, hblocks, htokens, hascending, (hmem 4).mpr ⟨?_, ?_⟩⟩
  · obtain ⟨r, hr, hstart, hstop, hmark⟩ := hfirst
    refine Comment.outer_iff.mpr ⟨⟨r, hr, hstart, hstop, hmark⟩, fun s hs houter => ?_⟩
    obtain ⟨⟨r', -, hopens⟩, -⟩ := Comment.outer_iff.mp houter
    exact absurd hopens.mark (hbefore s hs)
  · decide +kernel

/-- **A comment in a heading is lost.** It starts in HTML that the Markdown reader finds, and in front of
every other comment, but there is no token for it. -/
theorem ofSource_commentInHeading :
    let source := "# Title <!--markcheck skip-->\n"
    ∃ start content r s, Block.heading start content ∈ Block.read source.toList ∧
      Inline.html r ∈ content ∧ Opens source.toList r s ∧ IsClosed source.toList s ∧
      (∀ s' < s, ¬ Comment.opening <+: source.toList.drop s') ∧
      ofSource source = .ok [.heading 1 "Title"] := by
  intro source
  refine ⟨0, [.text "Title ".toList, .html ⟨8, 29⟩], ⟨8, 29⟩, 8, ?_, ?_, ⟨?_, ?_, ?_⟩, ?_, ?_, ?_⟩ <;>
    decide +kernel

end Token

end Doctest
