import Doctest.Markdown.Container

/-!
# Places in a line

A Markdown reader goes through a line with a cursor. Passing blanks and the marks of containers keeps
the cursor inside the line.

* `Cursor.On`: the cursor is at a place in a line.
* `Container.on_pass`, `Container.on_openAll`: so it is behind the marks of the open containers, and
  behind those that the line opens.
-/

namespace Doctest.Markdown

namespace Cursor

/-- The cursor is at a place in the text of the line. -/
structure On (c : Cursor) (l : Line) : Prop where
  start_le : l.start ≤ c.index
  stop_eq : c.index + c.rest.length = l.start + l.text.length

variable {c next : Cursor} {l : Line}

theorem on_ofLine (l : Line) : (ofLine l).On l := ⟨Nat.le_refl _, rfl⟩

theorem on_passFrom {cs : List Char} (n index column : Nat) (hstart : l.start ≤ index)
    (hstop : index + cs.length = l.start + l.text.length) :
    (passFrom n index column cs).2.On l := by
  induction cs generalizing n index column with
  | nil => exact ⟨hstart, hstop⟩
  | cons d cs ih =>
    have hnext : index + 1 + cs.length = l.start + l.text.length := by
      rw [← hstop, List.length_cons]
      omega
    unfold passFrom
    split
    · exact ⟨hstart, hstop⟩
    · split
      · exact ih _ _ _ (by omega) hnext
      · split
        · dsimp only
          split
          · exact ih _ _ _ (by omega) hnext
          · exact ⟨by dsimp only; omega, hnext⟩
        · exact ⟨hstart, hstop⟩

/-- Only blanks are passed. -/
theorem isBlankLine_of_passFrom {n index column : Nat} {cs : List Char}
    (h : (passFrom n index column cs).2.rest = []) : isBlankLine cs = true := by
  induction cs generalizing n index column with
  | nil => rfl
  | cons d cs ih =>
    unfold passFrom at h
    have hcons : isInlineSpace d = true → isBlankLine cs = true → isBlankLine (d :: cs) = true :=
      fun hd hcs => by simpa [isBlankLine, hd] using hcs
    split at h
    · cases h
    · split at h
      · next hd => exact hcons (by simp [isInlineSpace, hd]) (ih h)
      · split at h
        · next hd =>
          dsimp only at h
          split at h
          · exact hcons (by simp [isInlineSpace, hd]) (ih h)
          · exact hcons (by simp [isInlineSpace, hd]) (by rw [show cs = [] from h]; rfl)
        · cases h

theorem isBlankLine_of_pass {n : Nat} (h : (c.pass n).2.rest = []) :
    isBlankLine c.rest = true := by
  unfold Cursor.pass at h
  split at h
  · rw [show c.rest = [] from h]
    rfl
  · exact isBlankLine_of_passFrom h

namespace On

theorem pass (h : c.On l) (n : Nat) : (c.pass n).2.On l := by
  unfold Cursor.pass
  split
  · exact ⟨h.start_le, h.stop_eq⟩
  · exact on_passFrom _ _ _ h.start_le h.stop_eq

theorem pass? (h : c.On l) {n : Nat} (hnext : c.pass? n = some next) : next.On l := by
  have hpass := h.pass n
  unfold Cursor.pass? at hnext
  split at hnext
  · next heq =>
    cases hnext
    rw [heq] at hpass
    exact hpass
  · cases hnext

theorem passAll (h : c.On l) : c.passAll.On l := by
  have hle : (c.rest.dropWhile fun d => d = ' ' || d = '\t').length ≤ c.rest.length :=
    (List.dropWhile_sublist _).length_le
  have hstart := h.start_le
  have hstop := h.stop_eq
  constructor
  · show l.start ≤ c.index + _
    omega
  · show c.index + (c.rest.length - _) + (c.rest.dropWhile _).length = _
    omega

theorem skip (h : c.On l) {n : Nat} (hn : n ≤ c.rest.length) : (c.skip n).On l := by
  have hstart := h.start_le
  have hstop := h.stop_eq
  constructor
  · show l.start ≤ c.index + n
    omega
  · show c.index + n + (c.rest.drop n).length = _
    rw [List.length_drop]
    omega

end On

end Cursor

namespace Container

variable {c next : Cursor} {l : Line}

theorem on_quoteMark? (h : c.On l) (hnext : quoteMark? c = some next) : next.On l := by
  unfold quoteMark? at hnext
  dsimp only at hnext
  split at hnext
  · next hmark =>
    cases hnext
    have hhead : (c.pass 3).2.rest.head? = some '>' := by simp_all
    have hlength : 1 ≤ (c.pass 3).2.rest.length := by
      cases hrest : (c.pass 3).2.rest with
      | nil => simp [hrest] at hhead
      | cons d rest => simp
    exact ((h.pass 3).skip hlength).pass 1
  · cases hnext

theorem on_passOne {container : Container} (h : c.On l) (hnext : container.passOne c = some next) :
    next.On l := by
  cases container with
  | quote => exact on_quoteMark? h hnext
  | item indent =>
    unfold passOne at hnext
    dsimp only at hnext
    split at hnext <;> cases hnext
    exact h.pass indent

theorem on_pass (cs : List Container) (h : c.On l) : (pass cs c).2.On l := by
  induction cs generalizing c with
  | nil => exact h
  | cons container more ih =>
    unfold pass
    cases hnext : container.passOne c with
    | none => exact h
    | some next => exact ih (on_passOne h hnext)

theorem length_listMark? {cs : List Char} {mark : Nat × Option Nat} (h : listMark? cs = some mark) :
    mark.1 ≤ cs.length := by
  unfold listMark? at h
  split at h
  · cases h
  · next d rest =>
    split at h
    · cases h
      simp
    · dsimp only at h
      split at h
      · next hdigits =>
        cases h
        -- The delimiter behind the digits is one more character.
        have hdelimiter : ((d :: rest).drop ((d :: rest).takeWhile Char.isDigit).length).head?.isSome := by
          simp only [Bool.and_eq_true, Bool.or_eq_true, decide_eq_true_eq] at hdigits
          rcases hdigits.2 with hdot | hparenthesis
          · rw [hdot]; rfl
          · rw [hparenthesis]; rfl
        rw [List.head?_drop, Option.isSome_iff_exists] at hdelimiter
        obtain ⟨d', hd'⟩ := hdelimiter
        exact (List.getElem?_eq_some_iff.mp hd').1
      · cases h

theorem on_itemMark? {indent : Nat} {opened : Nat × Cursor} (h : c.On l)
    (hopened : itemMark? indent c = some opened) : opened.2.On l := by
  unfold itemMark? at hopened
  obtain ⟨⟨length, number⟩, hmark, hopened⟩ := Option.bind_eq_some_iff.mp hopened
  -- The content of an item starts behind its mark and the blanks that count.
  have hcontent : ∀ (next : Cursor) (indent : Nat), next.On l →
      (if isBlankLine next.rest then some (indent, next)
        else if (next.pass 4).1 = 0 then some (indent, next)
        else some (indent + (4 - (next.pass 4).1), (next.pass 4).2)) = some opened →
      opened.2.On l := by
    intro next indent hnext heq
    split at heq
    · cases heq
      exact hnext
    · split at heq <;> cases heq
      · exact hnext
      · exact hnext.pass 4
  have hskip := h.skip (length_listMark? hmark)
  dsimp only at hopened hskip
  split at hopened
  · cases hopened
  · split at hopened
    · exact hcontent _ _ hskip hopened
    · obtain ⟨next, hnext, hopened⟩ := Option.bind_eq_some_iff.mp hopened
      exact hcontent _ _ (hskip.pass? hnext) hopened

theorem on_openAll (fuel : Nat) (opened : List Container) (h : c.On l) :
    (openAll fuel opened c).2.1.On l := by
  induction fuel generalizing opened c with
  | zero => exact h
  | succ fuel ih =>
    unfold openAll
    dsimp only
    split
    · exact h
    · split
      · next indent next hitem =>
        have hnext : next.On l := on_itemMark? (h.pass 4) hitem
        split
        · exact hnext
        · exact ih _ hnext
      · split
        · next next hquote => exact ih _ (on_quoteMark? (h.pass 4) hquote)
        · exact h

end Container

end Doctest.Markdown
