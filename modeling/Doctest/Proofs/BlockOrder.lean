import Doctest.Markdown.Block
import Doctest.Proofs.CursorPlaces
import Doctest.Proofs.InlinePlaces
import Doctest.Proofs.SourceLines

/-!
# Blocks in the order of the text

Each kind of block takes some lines and leaves the others. What it finds in them stands in these
lines, so the blocks of a text are in the order of their places, whatever interrupts what.

* `RawBlock.Within`, `RawBlock.Takes`: where a block stands, and blocks taken off the front of lines.
* `continuation_takes`, `rows_takes`, `codeLines_chained`, `rawHtml_chained`, `flowHtml_chained`: one
  lemma for each way to go on from line to line.
* `leaf_takes`: what one block takes.
* `Block.read_inOrder`: the blocks of a text are in order, and a heading shares no line with another
  block.
-/

namespace Doctest.Markdown

open Source (Cut)
open Line (Chained)

variable {source : List Char} {l : Line} {below : List Line} {start mid stop : Nat}

/-! ## Places inside a line -/

theorem SegmentsInside.mono {start' stop' : Nat} {segments : List Segment}
    (h : SegmentsInside start stop segments) (hstart : start' ≤ start) (hstop : stop ≤ stop') :
    SegmentsInside start' stop' segments := by
  induction segments with
  | nil => trivial
  | cons s more ih =>
    obtain ⟨hs, ht, hend, hmore⟩ := h
    exact ⟨by omega, by omega, fun h => Nat.lt_of_lt_of_le (hend h) hstop, ih hmore⟩

theorem Line.Chained.on_le (h : Chained source start (l :: below) stop) {c : Cursor} (hc : c.On l) :
    start ≤ c.index ∧ c.index + c.rest.length ≤ l.stop := by
  have hstart := hc.start_le
  have hstop := hc.stop_eq
  have hline := h.start_eq
  unfold Line.stop
  omega

/-- A line that another one follows ends behind its text. -/
theorem Line.Chained.on_lt (h : Chained source start (l :: below) stop) {c : Cursor} (hc : c.On l)
    (hbelow : below ≠ []) : c.index + c.rest.length < l.stop := by
  have hlt := h.text_lt hbelow
  have hstop := hc.stop_eq
  omega

namespace Table

theorem cellLength_le (escaped : Bool) (cs : List Char) : cellLength escaped cs ≤ cs.length := by
  induction cs generalizing escaped with
  | nil => exact Nat.le_refl _
  | cons c cs ih =>
    unfold cellLength
    split
    · exact Nat.zero_le _
    · exact Nat.succ_le_succ (ih _)

theorem inside_of_mem_cells (fuel : Nat) {place : Nat} {cs : List Char} {cell : Nat × List Char}
    (h : cell ∈ cells fuel place cs) :
    place ≤ cell.1 ∧ cell.1 + cell.2.length ≤ place + cs.length := by
  induction fuel generalizing place cs with
  | zero => cases h
  | succ fuel ih =>
    have hbar : ((Text.afterWord? ['|'] cs).getD cs).length ≤ cs.length := by
      cases hafter : Text.afterWord? ['|'] cs with
      | none => exact Nat.le_refl _
      | some rest =>
        rw [Text.afterWord?_eq_some_iff.mp hafter]
        simp
    have hblanks : (dropInlineSpace ((Text.afterWord? ['|'] cs).getD cs)).length ≤
        ((Text.afterWord? ['|'] cs).getD cs).length := (List.dropWhile_sublist _).length_le
    rw [cells] at h
    dsimp only at h
    generalize dropInlineSpace ((Text.afterWord? ['|'] cs).getD cs) = text at h hblanks
    split at h
    · cases h
    · have hlength := cellLength_le false text
      rcases List.mem_cons.mp h with rfl | h
      · simp only [List.length_take]
        omega
      · have hmore := ih h
        rw [List.length_drop] at hmore
        omega

end Table

/-- The block stands between two places: what starts it, or the HTML in it. -/
def Block.Within (start stop : Nat) : Block → Prop
  | .html r => r.Inside start stop
  | .code place _ _ | .heading place _ => start ≤ place ∧ place < stop
  | .running content => ∀ r, Inline.html r ∈ content → r.Inside start stop

def Block.IsHeading : Block → Prop
  | .heading .. => True
  | .html _ | .code .. | .running _ => False

/-! ## Lines taken one after the other -/

namespace RawBlock

/-- The block stands between two places. -/
def Within (start stop : Nat) : RawBlock → Prop
  | .html r => r.Inside start stop
  | .code place _ _ | .heading place _ => start ≤ place ∧ place < stop
  | .running content => SegmentsInside start stop content
  | .definition _ => True

def IsHeading : RawBlock → Prop
  | .heading .. => True
  | .html _ | .code .. | .running _ | .definition _ => False

/-- The blocks stand in the lines from `start` on up to those that are left, in this order. -/
def Takes (source : List Char) (start stop : Nat) (blocks : List RawBlock) (rest : List Line) :
    Prop :=
  ∃ mid, InOrder source Within IsHeading start blocks mid ∧ Chained source mid rest stop

/-- The lines that a paragraph goes on with stand between its first line and what is left. -/
theorem continuation_takes (cs : List Container) {lines : List Line}
    (h : Chained source start lines stop) :
    ∃ mid, start ≤ mid ∧ SegmentsInside start mid (continuation cs lines).1 ∧
      Chained source mid (continuation cs lines).2.2 stop := by
  induction lines generalizing start with
  | nil => exact ⟨start, Nat.le_refl _, trivial, h⟩
  | cons l rest ih =>
    have hstop := h.le_stop
    have hshallow := (Container.on_pass cs (Cursor.on_ofLine l)).pass 4
    unfold continuation
    dsimp only
    split
    · exact ⟨l.stop, hstop, trivial, h.tail⟩
    · split
      · exact ⟨start, Nat.le_refl _, trivial, h⟩
      · split
        · exact ⟨start, Nat.le_refl _, trivial, h⟩
        · obtain ⟨mid, hmid, hmore, hleft⟩ := ih h.tail
          have hle := h.on_le hshallow.passAll
          refine ⟨mid, by omega, ⟨hle.1, by dsimp only; omega, fun hne => ?_, hmore.mono hstop (Nat.le_refl _)⟩,
            hleft⟩
          have hbelow : rest ≠ [] := by
            rintro rfl
            exact hne rfl
          have hlt := h.on_lt hshallow.passAll hbelow
          dsimp only
          omega

theorem within_row (columns : Nat) {place : Nat} {text : List Char} (hstart : start ≤ place)
    (hstop : place + text.length ≤ stop) :
    ∀ b ∈ row columns place text, b.Within start stop ∧ ¬ b.IsHeading := by
  intro b hb
  obtain ⟨cell, hcell, rfl⟩ := List.mem_map.mp hb
  have hinside := Table.inside_of_mem_cells _ (List.mem_of_mem_take hcell)
  exact ⟨⟨by dsimp only; omega, by dsimp only; omega, absurd rfl, trivial⟩, id⟩

theorem rows_takes (cs : List Container) (columns : Nat) {lines : List Line}
    (h : Chained source start lines stop) :
    Takes source start stop (rows cs columns lines).1 (rows cs columns lines).2 := by
  induction lines generalizing start with
  | nil => exact ⟨start, .nil (Nat.le_refl _), h⟩
  | cons l rest ih =>
    have hcell := (Container.on_pass cs (Cursor.on_ofLine l)).passAll
    unfold rows
    dsimp only
    split
    · exact ⟨start, .nil (Nat.le_refl _), h⟩
    · obtain ⟨mid, hmore, hleft⟩ := ih h.tail
      have hle := h.on_le hcell
      exact ⟨mid, (InOrder.group (by omega) (within_row columns hle.1 hle.2)).append h.tail.cut hmore,
        hleft⟩

theorem codeLines_chained (cs : List Container) (mark : Char) (length indent fuel : Nat)
    {lines : List Line} (h : Chained source start lines stop) :
    ∃ mid, start ≤ mid ∧
      Chained source mid (codeLines cs mark length indent fuel lines).2 stop := by
  induction fuel generalizing start lines with
  | zero => cases lines <;> exact ⟨start, Nat.le_refl _, h⟩
  | succ fuel ih =>
    cases lines with
    | nil => exact ⟨start, Nat.le_refl _, h⟩
    | cons l rest =>
      obtain ⟨-, hwhole, hbehind⟩ := h.throughNewline
      have hstop := h.le_stop
      unfold codeLines
      dsimp only
      split
      · exact ⟨start, Nat.le_refl _, h⟩
      · split
        · exact ⟨l.stop, hstop, h.tail⟩
        · obtain ⟨mid, hmid, hleft⟩ := ih hbehind
          exact ⟨mid, by omega, hleft⟩

/-- A block of HTML ends in front of the lines that it leaves. -/
theorem rawHtml_chained (cs : List Container) (closing : List Char) (fuel : Nat) (text : List Char)
    (h : Chained source start (l :: below) stop) :
    l.stop ≤ (rawHtml cs closing fuel text l below).1 ∧
      Chained source (rawHtml cs closing fuel text l below).1
        (rawHtml cs closing fuel text l below).2 stop := by
  induction fuel generalizing start text l below with
  | zero => exact ⟨Nat.le_refl _, h.tail⟩
  | succ fuel ih =>
    obtain ⟨-, hwhole, hbehind⟩ := h.throughNewline
    unfold rawHtml
    dsimp only
    split
    · next hnone =>
      rw [hnone] at hbehind
      exact ⟨hwhole, hbehind⟩
    · next next more hmore =>
      rw [hmore] at hbehind
      split
      · exact ⟨hwhole, hbehind⟩
      · obtain ⟨hnext, hleft⟩ := ih _ hbehind
        exact ⟨Nat.le_trans (Nat.le_trans hwhole hbehind.le_stop) hnext, hleft⟩

theorem flowHtml_chained (cs : List Container) (fuel : Nat)
    (h : Chained source start (l :: below) stop) :
    l.stop ≤ (flowHtml cs fuel l below).1 ∧
      Chained source (flowHtml cs fuel l below).1 (flowHtml cs fuel l below).2 stop := by
  induction fuel generalizing start l below with
  | zero => exact ⟨Nat.le_refl _, h.tail⟩
  | succ fuel ih =>
    obtain ⟨-, hwhole, hbehind⟩ := h.throughNewline
    unfold flowHtml
    dsimp only
    split
    · next hnone =>
      rw [hnone] at hbehind
      exact ⟨hwhole, hbehind⟩
    · next next more hmore =>
      rw [hmore] at hbehind
      split
      · exact ⟨hwhole, hbehind⟩
      · obtain ⟨hnext, hleft⟩ := ih hbehind
        exact ⟨Nat.le_trans (Nat.le_trans hwhole hbehind.le_stop) hnext, hleft⟩

/-! ## Blocks -/

theorem paragraph_takes (cs : List Container) {c : Cursor} (hc : c.On l) (hrest : c.rest ≠ [])
    (h : Chained source start (l :: below) stop) :
    Takes source start stop (paragraph cs ⟨c.index, c.rest⟩ below).1
      (paragraph cs ⟨c.index, c.rest⟩ below).2 := by
  obtain ⟨mid, hmid, hmore, hleft⟩ := continuation_takes cs h.tail
  have hle := h.on_le hc
  have hsegments : SegmentsInside start mid (⟨c.index, c.rest⟩ :: (continuation cs below).1) := by
    refine ⟨hle.1, by dsimp only; omega, fun hne => ?_, hmore.mono (by omega) (Nat.le_refl _)⟩
    have hbelow : below ≠ [] := by
      rintro rfl
      exact hne rfl
    have hlt := h.on_lt hc hbelow
    dsimp only
    omega
  unfold paragraph
  dsimp only
  split
  · -- The lines behind a definition belong to the next block, so the chain is followed anew.
    next label rest hlabel =>
    obtain ⟨behind, hbehind, hleft⟩ :=
      h.tail.drop ((continuation cs below).1.length - rest.count '\n')
    refine ⟨behind, .group (by omega) fun b hb => ?_, hleft⟩
    obtain rfl := List.mem_singleton.mp hb
    exact ⟨trivial, id⟩
  · split
    · next columns hcolumns =>
      obtain ⟨behind, hbehind, hrule⟩ := h.tail.drop 1
      obtain ⟨last, hbody, hleft⟩ := rows_takes cs columns hrule
      exact ⟨last, (InOrder.group (by omega)
        (within_row columns hle.1 (by omega))).append hrule.cut hbody, hleft⟩
    · split
      · have hpos := List.length_pos_iff.mpr hrest
        exact ⟨mid, .alone (by omega) ⟨hle.1, by omega⟩, hleft⟩
      · refine ⟨mid, .group (by omega) fun b hb => ?_, hleft⟩
        obtain rfl := List.mem_singleton.mp hb
        exact ⟨hsegments, id⟩

/-- **What one block takes.** -/
theorem leaf_takes (cs : List Container) (indent : Nat) {c : Cursor} (hc : c.On l)
    (hrest : c.rest ≠ []) (h : Chained source start (l :: below) stop) :
    Takes source start stop (leaf cs indent c l below).1 (leaf cs indent c l below).2 := by
  have hle := h.on_le hc
  have hpos := List.length_pos_iff.mpr hrest
  unfold leaf
  dsimp only
  split
  · next last rest hhtml =>
    have hlast : l.stop ≤ last ∧ Chained source last rest stop := by
      split at hhtml
      · split at hhtml
        · next closing _ =>
          have hraw := rawHtml_chained cs closing (below.length + 1) c.rest h
          rw [Option.some.inj hhtml] at hraw
          exact hraw
        · split at hhtml
          · have hflow := flowHtml_chained cs (below.length + 1) h
            rw [Option.some.inj hhtml] at hflow
            exact hflow
          · cases hhtml
      · cases hhtml
    refine ⟨last, .group (by omega) fun b hb => ?_, hlast.2⟩
    obtain rfl := List.mem_singleton.mp hb
    exact ⟨⟨hle.1, Nat.le_refl _⟩, id⟩
  · split
    · exact ⟨l.stop, .nil (by omega), h.tail⟩
    · split
      · exact ⟨l.stop, .alone (by omega) ⟨hle.1, by omega⟩, h.tail⟩
      · next mark length _ _ =>
        obtain ⟨-, hwhole, hbehind⟩ := h.throughNewline
        obtain ⟨mid, hmid, hleft⟩ := codeLines_chained cs mark length indent
          ((l.throughNewline below).2.length + 1) hbehind
        refine ⟨mid, .group (by omega) fun b hb => ?_, hleft⟩
        obtain rfl := List.mem_singleton.mp hb
        exact ⟨⟨hle.1, by omega⟩, id⟩
      · exact paragraph_takes cs hc hrest h

theorem readFrom_inOrder (fuel : Nat) (cs : List Container) (fresh : Bool) {lines : List Line}
    (h : Chained source start lines stop) :
    InOrder source Within IsHeading start (readFrom fuel cs fresh lines) stop := by
  induction fuel generalizing start cs fresh lines with
  | zero => exact .nil h.le
  | succ fuel ih =>
    cases lines with
    | nil => exact .nil h.le
    | cons l below =>
      have hstop := h.le_stop
      -- A line that is no part of a block is passed over.
      have hbelow : ∀ cs fresh,
          InOrder source Within IsHeading start (readFrom fuel cs fresh below) stop :=
        fun cs fresh => (InOrder.nil hstop).append h.tail.cut (ih cs fresh h.tail)
      have hopened := Container.on_openAll ((Container.pass cs (.ofLine l)).2.rest.length + 1)
        (cs.take (Container.pass cs (.ofLine l)).1) (Container.on_pass cs (Cursor.on_ofLine l))
      unfold readFrom
      dsimp only
      split
      · exact hbelow _ _
      · split
        · split <;> exact hbelow _ _
        · next hblank =>
          split
          · exact hbelow _ _
          · obtain ⟨mid, hblocks, hleft⟩ := leaf_takes _ _ (hopened.pass 4)
              (fun hrest => hblank (Cursor.isBlankLine_of_pass hrest)) h
            exact hblocks.append hleft.cut (ih _ _ hleft)

theorem within_of_read? {known : List Link.Label} {raw : RawBlock} {b : Block}
    (h : raw.Within start stop) (hb : raw.read? known = some b) : b.Within start stop := by
  cases raw with
  | html r | code place info text | heading place content =>
    cases hb
    exact h
  | running content =>
    cases hb
    exact fun r hr => Inline.html_of_mem_read known h hr
  | definition label => cases hb

theorem isHeading_of_read? {known : List Link.Label} {raw : RawBlock} {b : Block}
    (hb : raw.read? known = some b) (h : b.IsHeading) : raw.IsHeading := by
  cases raw with
  | heading place content => trivial
  | html r | code place info text | running content =>
    cases hb
    exact h
  | definition label => cases hb

end RawBlock

/-- **The blocks of a text are in the order of their places.** -/
theorem Block.read_inOrder (source : List Char) :
    InOrder source Block.Within Block.IsHeading 0 (Block.read source) source.length :=
  (RawBlock.readFrom_inOrder _ [] false (Line.chained_split source)).filterMap
    RawBlock.within_of_read? RawBlock.isHeading_of_read?

end Doctest.Markdown
