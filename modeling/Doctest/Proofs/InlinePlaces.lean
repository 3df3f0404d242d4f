import Doctest.Markdown.Inline

/-!
# HTML inside running text

Running text is read with the place of each of its characters. Reading pairs marks, drops the targets
of links and settles one part after the other. Whatever it does, the HTML that is left is HTML that it
met, so it stands between the places of the text.

* `Piece.HtmlIn`: the HTML that a piece may be stands between two places.
* `html_of_mem_settle`: settling adds no HTML.
* `Reading.Inside.step`: one step of reading stays between the places of its text.
* `Inline.html_of_mem_read`: HTML that is read stands inside the text.
-/

namespace Doctest.Markdown

/-- HTML between two places. -/
def Range.Inside (r : Range) (start stop : Nat) : Prop := start ≤ r.start ∧ r.stop ≤ stop

variable {start stop : Nat}

namespace Piece

/-- If the piece is HTML, it stands between the places. -/
def HtmlIn (start stop : Nat) (p : Piece) : Prop :=
  ∀ r, p.plain = .html r → r.Inside start stop

theorem htmlIn_marks {c : Char} {length count : Nat} {opens closes : Bool} :
    (marks c length count opens closes).HtmlIn start stop := by
  intro r h
  cases h

theorem htmlIn_bracket {isImage active : Bool} {label : List Char} :
    (bracket isImage active label).HtmlIn start stop := by
  intro r h
  cases h

theorem htmlIn_text {t : List Char} : (done (.text t)).HtmlIn start stop := by
  intro r h
  cases h

/-- What is found is made up of what was there. -/
theorem mem_of_findOpening {c : Char} {length : Nat} {both : Bool} {before : List Piece}
    {between front : List Piece} {openLength openCount : Nat} {openBoth : Bool}
    (h : findOpening c length both before = some (between, openLength, openCount, openBoth, front)) :
    ∀ p ∈ between ++ front, p ∈ before := by
  induction before generalizing between with
  | nil => cases h
  | cons first before ih =>
    have hmore : ∀ {found : List Piece × Nat × Nat × Bool × List Piece},
        findOpening c length both before = some found →
        (first :: found.1, found.2) = (between, openLength, openCount, openBoth, front) →
        ∀ p ∈ between ++ front, p ∈ first :: before := by
      rintro ⟨between', found⟩ hfound ⟨⟩ p hp
      rcases List.mem_cons.mp hp with rfl | hp
      · exact List.mem_cons_self
      · exact List.mem_cons_of_mem _ (ih hfound p hp)
    cases first with
    | marks d l n opens closes =>
      rw [findOpening] at h
      split at h
      · cases h
        exact fun p hp => List.mem_cons_of_mem _ hp
      · obtain ⟨found, hfound, heq⟩ := Option.map_eq_some_iff.mp h
        exact hmore hfound heq
    | done i =>
      obtain ⟨found, hfound, heq⟩ := Option.map_eq_some_iff.mp h
      exact hmore hfound heq
    | bracket isImage active label =>
      obtain ⟨found, hfound, heq⟩ := Option.map_eq_some_iff.mp h
      exact hmore hfound heq

variable {before : List Piece}

theorem htmlIn_close (c : Char) (length : Nat) (both : Bool) (fuel count : Nat)
    (h : ∀ p ∈ before, p.HtmlIn start stop) :
    ∀ p ∈ (close c length both fuel count before).2, p.HtmlIn start stop := by
  induction fuel generalizing count before with
  | zero => exact h
  | succ fuel ih =>
    unfold close
    split
    · exact h
    · split
      · exact h
      · next between openLength openCount openBoth front hfound =>
        have hold : ∀ p ∈ between ++ front, p.HtmlIn start stop :=
          fun p hp => h p (mem_of_findOpening hfound p hp)
        refine ih _ fun p hp => ?_
        rcases List.mem_append.mp hp with hp | hp
        · rcases List.mem_append.mp hp with hp | hp
          · obtain ⟨q, hq, rfl⟩ := List.mem_map.mp hp
            exact hold q (List.mem_append_left _ hq)
          · split at hp
            · cases hp
            · obtain rfl := List.mem_singleton.mp hp
              exact htmlIn_marks
        · exact hold p (List.mem_append_right _ hp)

theorem htmlIn_push {q : Piece} (h : ∀ p ∈ before, p.HtmlIn start stop)
    (hq : q.HtmlIn start stop) : ∀ p ∈ push before q, p.HtmlIn start stop := by
  have hcons : ∀ {q : Piece} {pieces : List Piece}, q.HtmlIn start stop →
      (∀ p ∈ pieces, p.HtmlIn start stop) → ∀ p ∈ q :: pieces, p.HtmlIn start stop :=
    fun hq hpieces => List.forall_mem_cons.mpr ⟨hq, hpieces⟩
  cases q with
  | done i => exact hcons hq h
  | bracket isImage active label => exact hcons hq h
  | marks c length count opens closes =>
    have hleft : ∀ p ∈ (if closes then close c length (opens && closes) count count before
        else (count, before)).2, p.HtmlIn start stop := by
      split
      · exact htmlIn_close c length _ count count h
      · exact h
    rw [push]
    generalize (if closes then close c length (opens && closes) count count before
      else (count, before)) = left at hleft ⊢
    obtain ⟨left, before⟩ := left
    dsimp only at hleft ⊢
    split
    · exact hleft
    · split
      · exact hcons htmlIn_marks hleft
      · exact hcons htmlIn_text hleft

/-- Settling leaves HTML where it is. -/
theorem html_of_mem_settle {pieces : List Piece} (h : ∀ p ∈ pieces, p.HtmlIn start stop)
    {r : Range} (hr : .html r ∈ settle pieces) : r.Inside start stop := by
  have hpushed : ∀ p ∈ pieces.foldl push [], p.HtmlIn start stop :=
    List.foldlRecOn (motive := fun before => ∀ p ∈ before, p.HtmlIn start stop) pieces push
      (by simp) fun _ hbefore q hq => htmlIn_push hbefore (h q hq)
  obtain ⟨p, hp, heq⟩ := List.mem_map.mp (List.mem_reverse.mp hr)
  exact hpushed p hp r heq

end Piece

namespace Reading

/-- What is left to be read stands between the places, and so does the HTML found so far. -/
structure Inside (start stop : Nat) (r : Reading) : Prop where
  rest : ∀ x ∈ r.rest, start ≤ x.2 ∧ x.2 < stop
  found : ∀ p ∈ r.found, p.HtmlIn start stop

variable {r : Reading}

namespace Inside

theorem ite {c : Prop} [Decidable c] {r' : Reading} (h : r.Inside start stop)
    (h' : r'.Inside start stop) : (if c then r else r').Inside start stop := by
  split
  · exact h
  · exact h'

theorem flush (h : r.Inside start stop) : r.flush.Inside start stop := by
  unfold Reading.flush
  split
  · exact h
  · exact ⟨h.rest, List.forall_mem_cons.mpr ⟨Piece.htmlIn_text, h.found⟩⟩

theorem literal (h : r.Inside start stop) (cs : List Char) {rest : List Placed}
    (hrest : ∀ x ∈ rest, x ∈ r.rest) : (r.literal cs rest).Inside start stop :=
  ⟨fun x hx => h.rest x (hrest x hx), h.found⟩

theorem take (h : r.Inside start stop) (n : Nat) {p : Piece} (hp : p.HtmlIn start stop) :
    (r.take n p).Inside start stop :=
  ⟨fun x hx => h.rest x (List.mem_of_mem_drop hx), List.forall_mem_cons.mpr ⟨hp, h.flush.found⟩⟩

end Inside

theorem mem_of_splitAtBracket {pieces between front : List Piece} {bracket : Bool × Bool × List Char}
    (h : splitAtBracket pieces = some (between, bracket, front)) :
    ∀ p ∈ between ++ front, p ∈ pieces := by
  induction pieces generalizing between with
  | nil => cases h
  | cons first pieces ih =>
    have hmore : ∀ {found : List Piece × (Bool × Bool × List Char) × List Piece},
        splitAtBracket pieces = some found →
        (first :: found.1, found.2) = (between, bracket, front) →
        ∀ p ∈ between ++ front, p ∈ first :: pieces := by
      rintro ⟨between', found⟩ hfound ⟨⟩ p hp
      rcases List.mem_cons.mp hp with rfl | hp
      · exact List.mem_cons_self
      · exact List.mem_cons_of_mem _ (ih hfound p hp)
    cases first with
    | bracket isImage active label =>
      cases h
      exact fun p hp => List.mem_cons_of_mem _ hp
    | done i =>
      obtain ⟨found, hfound, heq⟩ := Option.map_eq_some_iff.mp h
      exact hmore hfound heq
    | marks c length count opens closes =>
      obtain ⟨found, hfound, heq⟩ := Option.map_eq_some_iff.mp h
      exact hmore hfound heq

theorem htmlIn_deactivate {p : Piece} (h : p.HtmlIn start stop) :
    (deactivate p).HtmlIn start stop := by
  unfold deactivate
  split
  · exact Piece.htmlIn_bracket
  · exact h

namespace Inside

theorem closeBracket (known : List Link.Label) (h : r.Inside start stop) :
    (closeBracket known r).Inside start stop := by
  have hflush := h.flush
  have htext : ∀ {found : List Piece}, (∀ p ∈ found, p.HtmlIn start stop) →
      Reading.Inside start stop ({ r.flush with found }.literal [']'] (r.flush.rest.drop 1)) :=
    fun hfound => ⟨fun x hx => hflush.rest x (List.mem_of_mem_drop hx), hfound⟩
  unfold Reading.closeBracket
  dsimp only
  split
  · exact htext hflush.found
  · next between isImage active label front hsplit =>
    have hold : ∀ p ∈ between ++ front, p.HtmlIn start stop :=
      fun p hp => hflush.found p (mem_of_splitAtBracket hsplit p hp)
    have hfront : ∀ p ∈ front, p.HtmlIn start stop :=
      fun p hp => hold p (List.mem_append_right _ hp)
    split
    · -- No link: the bracket is text, too.
      refine htext fun p hp => ?_
      rcases List.mem_append.mp hp with hp | hp
      · exact hold p (List.mem_append_left _ hp)
      · rcases List.mem_cons.mp hp with rfl | hp
        · exact Piece.htmlIn_text
        · exact hfront p hp
    · refine ⟨fun x hx => hflush.rest x (List.mem_of_mem_drop hx), fun p hp => ?_⟩
      rcases List.mem_append.mp hp with hp | hp
      · obtain ⟨i, hi, rfl⟩ := List.mem_map.mp hp
        rintro range rfl
        refine Piece.html_of_mem_settle (fun q hq => ?_) (List.mem_reverse.mp hi)
        exact hold q (List.mem_append_left _ (List.mem_reverse.mp hq))
      · split at hp
        · exact hfront p hp
        · obtain ⟨q, hq, rfl⟩ := List.mem_map.mp hp
          exact htmlIn_deactivate (hfront q hq)

theorem escape (h : r.Inside start stop) : r.escape.Inside start stop := by
  have hbreak : (Piece.done .hardBreak).HtmlIn start stop := fun _ heq => by cases heq
  unfold Reading.escape
  split
  · next d place rest hrest =>
    have hmem : ∀ x ∈ rest, x ∈ r.rest := fun x hx =>
      List.mem_of_mem_drop (hrest ▸ List.mem_cons_of_mem _ hx)
    split
    · exact h.take 2 hbreak
    · split
      · exact ⟨fun x hx => h.rest x (hmem x hx), h.flush.found⟩
      · exact h.literal _ fun x hx => List.mem_of_mem_drop hx
  · exact h.literal _ (by simp)

theorem lineBreak (h : r.Inside start stop) : r.lineBreak.Inside start stop := by
  unfold Reading.lineBreak
  dsimp only
  split
  · have hcut : Reading.Inside start stop
        { r with text := r.text.drop (r.text.takeWhile isInlineSpace).length } :=
      ⟨h.rest, h.found⟩
    exact hcut.take 1 fun _ heq => by cases heq
  · exact h.take 1 fun _ heq => by cases heq

theorem code (cs : List Char) (h : r.Inside start stop) : (r.code cs).Inside start stop := by
  unfold Reading.code
  dsimp only
  split
  · exact h.take _ fun _ heq => by cases heq
  · exact h.literal _ fun x hx => List.mem_of_mem_drop hx

/-- HTML starts at the place of its bracket and ends behind the last character that is taken. -/
theorem angle {place : Nat} (cs : List Char) (h : r.Inside start stop)
    (hplace : start ≤ place ∧ place < stop) : (r.angle place cs).Inside start stop := by
  unfold Reading.angle
  dsimp only
  split
  · exact h.take _ fun _ heq => by cases heq
  · split
    · exact h.literal _ fun x hx => List.mem_of_mem_drop hx
    · next after _ =>
      refine h.take _ ?_
      rintro range ⟨⟩
      refine ⟨hplace.1, ?_⟩
      show _ + 1 ≤ stop
      cases hlast : r.rest[1 + cs.length - after.length - 1]? with
      | none => exact hplace.2
      | some x => exact (h.rest x (List.mem_of_getElem? hlast)).2

theorem emphasis (c : Char) (cs : List Char) (h : r.Inside start stop) :
    (r.emphasis c cs).Inside start stop := by
  unfold Reading.emphasis
  dsimp only
  split
  · exact h.take _ Piece.htmlIn_marks
  · exact h.literal _ fun x hx => List.mem_of_mem_drop hx

/-- **One step of reading.** -/
theorem step (known : List Link.Label) (h : r.Inside start stop) :
    (r.step known).Inside start stop := by
  unfold Reading.step
  split
  · exact h
  · next c place more hrest =>
    have hplace : start ≤ place ∧ place < stop := h.rest (c, place) (hrest ▸ List.mem_cons_self)
    have hmore : ∀ x ∈ more, x ∈ r.rest := fun x hx => hrest ▸ List.mem_cons_of_mem _ hx
    have hliteral := h.literal [c] hmore
    dsimp only
    -- One case for each mark, in the order in which they are told apart.
    refine .ite hliteral (.ite h.escape (.ite h.lineBreak (.ite (h.closeBracket known)
      (.ite (h.code _) (.ite (h.angle _ hplace) (.ite (h.emphasis c _)
        (.ite (h.take 2 Piece.htmlIn_bracket) (.ite (h.take 1 Piece.htmlIn_bracket)
          (.ite ?_ hliteral)))))))))
    split
    · exact ⟨fun x hx => h.rest x (hmore x (List.mem_of_mem_drop hx)), h.found⟩
    · exact hliteral

theorem run (known : List Link.Label) (fuel : Nat) (h : r.Inside start stop) :
    (run known fuel r).Inside start stop := by
  induction fuel generalizing r with
  | zero => exact h
  | succ fuel ih =>
    unfold Reading.run
    split
    · exact h
    · exact ih (h.step known)

end Inside

end Reading

/-! ## Text of several lines -/

/-- Lines of running text between two places. Each but the last one is followed by its end. -/
def SegmentsInside (start stop : Nat) : List Segment → Prop
  | [] => True
  | s :: more =>
    start ≤ s.start ∧ s.start + s.text.length ≤ stop ∧
      (more ≠ [] → s.start + s.text.length < stop) ∧ SegmentsInside start stop more

theorem inside_of_mem_placed {segments : List Segment} (h : SegmentsInside start stop segments) :
    ∀ x ∈ placed segments, start ≤ x.2 ∧ x.2 < stop := by
  have htext : ∀ {s : Segment}, start ≤ s.start → s.start + s.text.length ≤ stop →
      ∀ x ∈ s.text.zipIdx s.start, start ≤ x.2 ∧ x.2 < stop := by
    rintro s hstart hstop ⟨c, place⟩ hx
    have hplace := List.mem_zipIdx hx
    dsimp only
    omega
  induction segments with
  | nil => exact fun x hx => by cases hx
  | cons s more ih =>
    obtain ⟨hstart, hstop, hend, hmore⟩ := h
    cases more with
    | nil => exact htext hstart hstop
    | cons t more =>
      have hlt := hend (List.cons_ne_nil _ _)
      intro x hx
      rcases List.mem_append.mp hx with hx | hx
      · exact htext hstart hstop x hx
      · rcases List.mem_cons.mp hx with rfl | hx
        · exact ⟨Nat.le_trans hstart (Nat.le_add_right _ _), hlt⟩
        · exact ih hmore x hx

/-- **HTML inside running text.** -/
theorem Inline.html_of_mem_read (known : List Link.Label) {segments : List Segment}
    (h : SegmentsInside start stop segments) {r : Range}
    (hr : .html r ∈ Inline.read known segments) : r.Inside start stop := by
  have hbegin : Reading.Inside start stop ⟨placed segments, none, [], []⟩ :=
    ⟨inside_of_mem_placed h, by simp⟩
  have hend := (hbegin.run known (placed segments).length).flush
  refine Piece.html_of_mem_settle (fun p hp => ?_) hr
  exact hend.found p (List.mem_reverse.mp hp)

end Doctest.Markdown
