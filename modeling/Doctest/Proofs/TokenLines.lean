import Doctest.Proofs.BlockOrder
import Doctest.Proofs.CommentTokens
import Doctest.Proofs.FaultPlaces

/-!
# The lines of tokens

The tokens of a Markdown text come in the order of the text. Several comments can stand on one line, but
no heading shares its line with another token.

* `Token.Within`: the token starts between two places.
* `ofBlocks_inOrder`: what is found in blocks that are in order is in order.
* `HeadingsApart`, `headingsApart_of_ofSource`: a heading has a line number above those of the tokens in
  front of it and below those of the tokens behind it.
-/

namespace Doctest

open Markdown (Block Inline Range)

namespace Token

/-- The token starts between two places. -/
def Within (source : List Char) (start stop : Nat) (t : Token) : Prop :=
  ∃ place, start ≤ place ∧ place < stop ∧ t.line = Source.lineOfIndex source place

def IsHeading (t : Token) : Prop := t.heading?.isSome

/-- A heading has a line number above those of the tokens in front of it and below those of the tokens
behind it. -/
def HeadingsApart (tokens : List Token) : Prop :=
  tokens.Pairwise fun t u => t.IsHeading ∨ u.IsHeading → t.line < u.line

variable {source : List Char} {start stop : Nat}

/-- A stretch of HTML adds comments that start in it. -/
theorem withHtml_within (source : List Char) (p : Progress) {r : Range} (h : r.Inside start stop) :
    ∃ more, (p.withHtml source r).tokens = p.tokens ++ more ∧
      ∀ t ∈ more, t.Within source start stop ∧ ¬ t.IsHeading := by
  obtain ⟨starts, hscans, heq⟩ := withHtml_eq source p r
  refine ⟨commentsAt source starts, by rw [heq], fun t ht => ?_⟩
  obtain ⟨s, hs, rfl⟩ := List.mem_map.mp ht
  have hopens := (hscans.opens s (List.mem_filter.mp hs).1).2
  have hlast := hopens.last
  have hlength := Comment.length_opening
  exact ⟨⟨s, Nat.le_trans h.1 hopens.first, Nat.lt_of_lt_of_le (by omega) h.2, rfl⟩, nofun⟩

theorem foldl_withHtml_within (source : List Char) (p : Progress) {rs : List Range}
    (h : ∀ r ∈ rs, r.Inside start stop) :
    ∃ more, (rs.foldl (Progress.withHtml source) p).tokens = p.tokens ++ more ∧
      ∀ t ∈ more, t.Within source start stop ∧ ¬ t.IsHeading := by
  induction rs generalizing p with
  | nil => exact ⟨[], (List.append_nil _).symm, by simp⟩
  | cons r rs ih =>
    obtain ⟨here, hhere, hin⟩ := withHtml_within source p (h r List.mem_cons_self)
    obtain ⟨more, hmore, hin'⟩ := ih (p.withHtml source r)
      fun r' hr' => h r' (List.mem_cons_of_mem r hr')
    refine ⟨here ++ more, by rw [List.foldl_cons, hmore, hhere, List.append_assoc], fun t ht => ?_⟩
    rcases List.mem_append.mp ht with ht | ht
    · exact hin t ht
    · exact hin' t ht

theorem inside_of_mem_stretches {b : Block} (h : b.Within start stop) :
    ∀ r ∈ b.stretches, r.Inside start stop := by
  intro r hr
  cases b with
  | html r' =>
    obtain rfl := List.mem_singleton.mp hr
    exact h
  | running content =>
    obtain ⟨i, hi, hir⟩ := List.mem_filterMap.mp hr
    cases i with
    | html r' =>
      cases hir
      exact h r hi
    | text _ | code _ | softBreak | hardBreak => cases hir
  | code place info text | heading place content => cases hr

/-- **What one block adds.** -/
theorem step_within (source : List Char) (p : Progress) {b : Block} (h : b.Within start stop) :
    ∃ more, (p.step source b).tokens = p.tokens ++ more ∧
      ∀ t ∈ more, t.Within source start stop ∧ (t.IsHeading → b.IsHeading) := by
  rw [step_eq]
  obtain ⟨more, hmore, hin⟩ := foldl_withHtml_within source
    { p with tokens := p.tokens ++ own source b } (inside_of_mem_stretches h)
  refine ⟨own source b ++ more, by rw [hmore, List.append_assoc], fun t ht => ?_⟩
  rcases List.mem_append.mp ht with ht | ht
  · cases b with
    | html r | running content => cases ht
    | code place info text =>
      obtain rfl := List.mem_singleton.mp ht
      exact ⟨⟨place, h.1, h.2, rfl⟩, nofun⟩
    | heading place content =>
      obtain rfl := List.mem_singleton.mp ht
      exact ⟨⟨place, h.1, h.2, rfl⟩, fun _ => trivial⟩
  · exact ⟨(hin t ht).1, fun hheading => absurd hheading (hin t ht).2⟩

/-- Blocks that share their lines add tokens none of which is a heading. -/
theorem foldl_step_within (source : List Char) (p : Progress) {blocks : List Block}
    (h : ∀ b ∈ blocks, b.Within start stop ∧ ¬ b.IsHeading) :
    ∃ more, (blocks.foldl (Progress.step source) p).tokens = p.tokens ++ more ∧
      ∀ t ∈ more, t.Within source start stop ∧ ¬ t.IsHeading := by
  induction blocks generalizing p with
  | nil => exact ⟨[], (List.append_nil _).symm, by simp⟩
  | cons b blocks ih =>
    obtain ⟨hb, hblocks⟩ := List.forall_mem_cons.mp h
    obtain ⟨here, hhere, hin⟩ := step_within source p hb.1
    obtain ⟨more, hmore, hin'⟩ := ih (p.step source b) hblocks
    refine ⟨here ++ more, by rw [List.foldl_cons, hmore, hhere, List.append_assoc], fun t ht => ?_⟩
    rcases List.mem_append.mp ht with ht | ht
    · exact ⟨(hin t ht).1, fun hheading => hb.2 ((hin t ht).2 hheading)⟩
    · exact hin' t ht

/-- **What blocks in order add.** -/
theorem foldl_step_inOrder (p : Progress) {blocks : List Block}
    (h : InOrder source Block.Within Block.IsHeading start blocks stop) :
    ∃ more, (blocks.foldl (Progress.step source) p).tokens = p.tokens ++ more ∧
      InOrder source (Within source) IsHeading start more stop := by
  induction h generalizing p with
  | group hle h =>
    obtain ⟨more, hmore, hin⟩ := foldl_step_within source p h
    exact ⟨more, hmore, .group hle hin⟩
  | @alone start stop b hle h =>
    cases b with
    | heading place content => exact ⟨_, rfl, .alone hle ⟨place, h.1, h.2, rfl⟩⟩
    | html _ | code _ _ _ | running _ =>
      obtain ⟨more, hmore, hin⟩ := step_within source p h
      exact ⟨more, hmore, .group hle hin⟩
  | append _ hcut _ ihas ihbs =>
    obtain ⟨first, hfirst, hinFirst⟩ := ihas p
    rw [List.foldl_append]
    obtain ⟨more, hmore, hin⟩ := ihbs _
    exact ⟨first ++ more, by rw [hmore, hfirst, List.append_assoc], hinFirst.append hcut hin⟩

theorem ofBlocks_inOrder {blocks : List Block} {tokens : List Token}
    (horder : InOrder source Block.Within Block.IsHeading start blocks stop)
    (h : ofBlocks source blocks = .ok tokens) :
    InOrder source (Within source) IsHeading start tokens stop := by
  obtain ⟨more, hmore, hin⟩ := foldl_step_inOrder ⟨[], [], 0⟩ horder
  unfold ofBlocks at h
  dsimp only at h
  split at h
  · cases h
    rw [hmore]
    exact hin
  · cases h

/-- **Headings have lines of their own,** where every carriage return is part of a line end with a
newline. -/
theorem headingsApart_of_ofSource {source : String} {tokens : List Token}
    (h : ofSource source = .ok tokens) (hreturns : Source.NoLoneReturn source.toList) :
    HeadingsApart tokens :=
  (ofBlocks_inOrder (Block.read_inOrder source.toList) h).pairwise_line hreturns id (Nat.le_refl _)

end Token

end Doctest
