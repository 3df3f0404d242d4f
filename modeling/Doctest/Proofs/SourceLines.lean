import Doctest.Markdown.Line
import Doctest.Source

/-!
# Places and lines of a source

A Markdown text is taken apart line by line, and what is found keeps its place in the text. Line
numbers count newlines alone. Here both are brought together.

* `Source.Cut`: a line starts at the place, or the text ends there.
* `Line.Chained`, `Line.chained_split`: lines that follow each other without a gap.
* `InOrder`: things in an order of their places, with a cut between what stands before and behind.
* `InOrder.pairwise_line`: of two things one of which has lines of its own, the first has the smaller
  line number, unless a carriage return without a newline ends a line.
-/

namespace Doctest

namespace Source

/-- A line starts at the place, or the text ends there. -/
def Cut (source : List Char) (place : Nat) : Prop :=
  place = 0 ∨ place = source.length ∨ source[place - 1]? = some '\n' ∨
    source[place - 1]? = some '\r' ∧ source[place]? ≠ some '\n'

/-- Every carriage return stands in front of a newline. -/
def NoLoneReturn (source : List Char) : Prop :=
  ∀ place, source[place]? = some '\r' → source[place + 1]? = some '\n'

/-- Behind a cut the line numbers are greater. -/
theorem lineOfIndex_lt {source : List Char} (hreturns : NoLoneReturn source) {cut i j : Nat}
    (hcut : Cut source cut) (hi : i < cut) (hcutj : cut ≤ j) (hj : j < source.length) :
    lineOfIndex source i < lineOfIndex source j := by
  have hnewline : source[cut - 1]? = some '\n' := by
    rcases hcut with hcut | hcut | hcut | ⟨hcut, hnext⟩
    · omega
    · omega
    · exact hcut
    · have hafter := hreturns _ hcut
      rw [Nat.sub_add_cancel (by omega)] at hafter
      exact absurd hafter hnext
  obtain ⟨hlength, hchar⟩ := List.getElem?_eq_some_iff.mp hnewline
  have hmore : (source.take (cut - 1)).count '\n' < (source.take cut).count '\n' := by
    have hcutpos : cut = cut - 1 + 1 := by omega
    rw [hcutpos, List.take_succ_eq_append_getElem hlength, List.count_append, hchar]
    simp
  have hfront : (source.take i).count '\n' ≤ (source.take (cut - 1)).count '\n' :=
    (List.take_sublist_take_left (by omega)).count_le _
  have hback : (source.take cut).count '\n' ≤ (source.take j).count '\n' :=
    (List.take_sublist_take_left hcutj).count_le _
  unfold lineOfIndex
  omega

end Source

/-! ## Lines that follow each other -/

namespace Markdown.Line

open Source (Cut)

/-- The lines cover the source from one place to another. Only the last one may be without an
end. -/
inductive Chained (source : List Char) : Nat → List Line → Nat → Prop
  | nil {place : Nat} (h : Cut source place) : Chained source place [] place
  | cons {l : Line} {rest : List Line} {start stop : Nat} (hstart : l.start = start)
      (h : Cut source start) (hend : rest ≠ [] → l.ending ≠ .none)
      (hrest : Chained source l.stop rest stop) : Chained source start (l :: rest) stop

variable {source : List Char} {l : Line} {lines rest : List Line} {start stop : Nat}

theorem Ending.length_pos {ending : Ending} (h : ending ≠ .none) : 0 < ending.length := by
  cases ending with
  | none => exact absurd rfl h
  | newline | carriageReturn | both => simp [Ending.length]

namespace Chained

theorem cut (h : Chained source start lines stop) : Cut source start := by
  cases h with
  | nil h => exact h
  | cons _ h _ _ => exact h

theorem le (h : Chained source start lines stop) : start ≤ stop := by
  induction h with
  | nil _ => exact Nat.le_refl _
  | cons hstart _ _ _ ih =>
    unfold Line.stop at ih
    omega

theorem ending (h : Chained source start (l :: rest) stop) : rest ≠ [] → l.ending ≠ .none := by
  cases h with
  | cons _ _ hend _ => exact hend

theorem start_eq (h : Chained source start (l :: rest) stop) : start = l.start := by
  cases h with
  | cons hstart _ _ _ => exact hstart.symm

theorem tail (h : Chained source start (l :: rest) stop) : Chained source l.stop rest stop := by
  cases h with
  | cons _ _ _ hrest => exact hrest

theorem le_stop (h : Chained source start (l :: rest) stop) : start ≤ l.stop := by
  rw [h.start_eq]
  unfold Line.stop
  omega

/-- The text of a line ends in front of what follows the line, if anything does. -/
theorem text_lt (h : Chained source start (l :: rest) stop) (hrest : rest ≠ []) :
    l.start + l.text.length < l.stop := by
  have hpos := Ending.length_pos (h.ending hrest)
  unfold Line.stop
  omega

/-- Lines behind the first ones. -/
theorem drop (h : Chained source start lines stop) (n : Nat) :
    ∃ mid, start ≤ mid ∧ Chained source mid (lines.drop n) stop := by
  induction n generalizing start lines with
  | zero => exact ⟨start, Nat.le_refl _, h⟩
  | succ n ih =>
    cases lines with
    | nil => exact ⟨start, Nat.le_refl _, h⟩
    | cons l rest =>
      obtain ⟨mid, hmid, hrest⟩ := ih h.tail
      exact ⟨mid, Nat.le_trans h.le_stop hmid, hrest⟩

/-- A line and what follows it up to the next newline make up a line, too. -/
theorem throughNewline (h : Chained source start (l :: rest) stop) :
    (l.throughNewline rest).1.start = l.start ∧ l.stop ≤ (l.throughNewline rest).1.stop ∧
      Chained source (l.throughNewline rest).1.stop (l.throughNewline rest).2 stop := by
  induction rest generalizing l start with
  | nil => exact ⟨rfl, Nat.le_refl _, h.tail⟩
  | cons next rest ih =>
    unfold Line.throughNewline
    split
    · next hreturn =>
      have hnext : l.stop = next.start := h.tail.start_eq
      have hstop : l.stop = l.start + l.text.length + 1 := by
        unfold Line.stop
        rw [hreturn]
        rfl
      have hjoined : (Line.mk l.start (l.text ++ '\r' :: next.text) next.ending).stop =
          next.stop := by
        simp only [Line.stop, List.length_append, List.length_cons] at hstop hnext ⊢
        omega
      have hchain : Chained source l.start
          (⟨l.start, l.text ++ '\r' :: next.text, next.ending⟩ :: rest) stop := by
        refine .cons rfl (h.start_eq ▸ h.cut) h.tail.ending ?_
        rw [hjoined]
        exact h.tail.tail
      obtain ⟨hstart, hle, hrest⟩ := ih hchain
      refine ⟨hstart, Nat.le_trans ?_ hle, hrest⟩
      rw [hjoined, hnext]
      unfold Line.stop
      omega
    · exact ⟨rfl, Nat.le_refl _, h.tail⟩

end Chained

/-- Behind a newline a line starts, and behind a carriage return without one. -/
theorem cut_of_append {front rest : List Char} {c : Char} (hsource : source = front ++ c :: rest)
    (hc : c = '\n' ∨ c = '\r' ∧ rest.head? ≠ some '\n') : Cut source (front.length + 1) := by
  subst hsource
  rcases hc with rfl | ⟨rfl, hrest⟩
  · exact .inr (.inr (.inl (by simp)))
  · refine .inr (.inr (.inr ⟨by simp, ?_⟩))
    rw [List.getElem?_append_right (by omega)]
    simpa [List.head?_eq_getElem?] using hrest

/-- The lines from a place on cover the rest of the source. `passed` is what stands in front of the
rest in the first line. -/
theorem chained_splitFrom {start : Nat} {passed cs : List Char} (front : List Char)
    (hsource : source = front ++ passed.reverse ++ cs) (hstart : front.length = start)
    (hcut : Cut source start) :
    Chained source start (splitFrom start passed cs) source.length := by
  induction start, passed, cs using splitFrom.induct generalizing front with
  | case1 start passed hempty =>
    obtain rfl := List.isEmpty_iff.mp hempty
    have hstop : start = source.length := by simp [hsource, hstart]
    rw [splitFrom, if_pos hempty, ← hstop]
    exact .nil hcut
  | case2 start passed hempty =>
    have hstop : start + passed.reverse.length + 0 = source.length := by simp [hsource, hstart]
    rw [splitFrom, if_neg hempty]
    refine .cons rfl hcut (absurd rfl) ?_
    show Chained source (start + passed.reverse.length + 0) [] _
    rw [hstop]
    exact .nil (.inr (.inl rfl))
  | case3 start passed cs ih =>
    have hfront : (front ++ passed.reverse).length = start + passed.length := by simp [hstart]
    have hnext : Cut source (start + passed.length + 1) :=
      hfront ▸ cut_of_append hsource (.inl rfl)
    have hrest := ih (front ++ passed.reverse ++ ['\n']) (by simp [hsource]) (by simp [hstart]; omega)
      hnext
    rw [splitFrom]
    refine .cons rfl hcut (fun _ => by simp) ?_
    simpa [Line.stop, Ending.length] using hrest
  | case4 start passed cs ih =>
    have hfront : (front ++ passed.reverse ++ ['\r']).length = start + passed.length + 1 := by
      simp [hstart]; omega
    have hboth : source = front ++ passed.reverse ++ ['\r'] ++ '\n' :: cs := by simp [hsource]
    have hnext : Cut source (start + passed.length + 1 + 1) :=
      hfront ▸ cut_of_append hboth (.inl rfl)
    have hrest := ih (front ++ passed.reverse ++ ['\r', '\n']) (by simp [hsource])
      (by simp [hstart]; omega) hnext
    rw [splitFrom]
    refine .cons rfl hcut (fun _ => by simp) ?_
    simpa [Line.stop, Ending.length] using hrest
  | case5 start passed cs hnewline ih =>
    have hfront : (front ++ passed.reverse).length = start + passed.length := by simp [hstart]
    have hlone : cs.head? ≠ some '\n' := by
      intro hhead
      cases cs with
      | nil => cases hhead
      | cons c cs => exact hnewline cs (by rw [Option.some.inj hhead])
    have hnext : Cut source (start + passed.length + 1) :=
      hfront ▸ cut_of_append hsource (.inr ⟨rfl, hlone⟩)
    have hrest := ih (front ++ passed.reverse ++ ['\r']) (by simp [hsource]) (by simp [hstart]; omega)
      hnext
    rw [splitFrom.eq_4 _ _ _ hnewline]
    refine .cons rfl hcut (fun _ => by simp) ?_
    simpa [Line.stop, Ending.length] using hrest
  | case6 start passed c cs hnewline hboth hreturn ih =>
    rw [splitFrom.eq_5 _ _ _ _ hnewline hboth hreturn]
    exact ih front (by simp [hsource]) hstart hcut

theorem chained_split (source : List Char) :
    Chained source 0 (split source) source.length :=
  chained_splitFrom [] rfl rfl (.inl rfl)

end Markdown.Line

/-! ## Things in order -/

/-- Things that stand between two places of the source, in their order. `within` says what it means
for one of them to stand there. Things that do not stand alone may stand on one line; all others have
a cut in front and behind. -/
inductive InOrder {α : Type} (source : List Char) (within : Nat → Nat → α → Prop)
    (isAlone : α → Prop) : Nat → List α → Nat → Prop
  | group {start stop : Nat} {as : List α} (hle : start ≤ stop)
      (h : ∀ a ∈ as, within start stop a ∧ ¬ isAlone a) : InOrder source within isAlone start as stop
  | alone {start stop : Nat} {a : α} (hle : start ≤ stop) (h : within start stop a) :
      InOrder source within isAlone start [a] stop
  | append {start mid stop : Nat} {as bs : List α}
      (has : InOrder source within isAlone start as mid) (hcut : Source.Cut source mid)
      (hbs : InOrder source within isAlone mid bs stop) :
      InOrder source within isAlone start (as ++ bs) stop

namespace InOrder

variable {α β : Type} {source : List Char} {within : Nat → Nat → α → Prop} {isAlone : α → Prop}
  {start stop : Nat} {as : List α}

theorem le (h : InOrder source within isAlone start as stop) : start ≤ stop := by
  induction h with
  | group hle _ => exact hle
  | alone hle _ => exact hle
  | append _ _ _ ihas ihbs => exact Nat.le_trans ihas ihbs

theorem nil (hle : start ≤ stop) : InOrder source within isAlone start [] stop :=
  .group hle (by simp)

/-- Some of the things, in another form. -/
theorem filterMap {within' : Nat → Nat → β → Prop} {isAlone' : β → Prop} {f : α → Option β}
    (hwithin : ∀ {start stop a b}, within start stop a → f a = some b → within' start stop b)
    (halone : ∀ {a b}, f a = some b → isAlone' b → isAlone a)
    (h : InOrder source within isAlone start as stop) :
    InOrder source within' isAlone' start (as.filterMap f) stop := by
  induction h with
  | group hle h =>
    refine .group hle fun b hb => ?_
    obtain ⟨a, ha, hab⟩ := List.mem_filterMap.mp hb
    exact ⟨hwithin (h a ha).1 hab, fun hb => (h a ha).2 (halone hab hb)⟩
  | @alone start stop a hle h =>
    cases hab : f a with
    | none => simpa [hab] using nil hle
    | some b => simpa [hab] using InOrder.alone hle (hwithin h hab)
  | append _ hcut _ ihas ihbs =>
    rw [List.filterMap_append]
    exact ihas.append hcut ihbs

/-- Each of the things stands somewhere between the two places. -/
theorem exists_within (h : InOrder source within isAlone start as stop) {a : α} (ha : a ∈ as) :
    ∃ first last, start ≤ first ∧ last ≤ stop ∧ within first last a := by
  induction h with
  | group _ h => exact ⟨_, _, Nat.le_refl _, Nat.le_refl _, (h a ha).1⟩
  | alone _ h =>
    obtain rfl := List.mem_singleton.mp ha
    exact ⟨_, _, Nat.le_refl _, Nat.le_refl _, h⟩
  | append has _ hbs ihas ihbs =>
    rcases List.mem_append.mp ha with ha | ha
    · obtain ⟨first, last, hfirst, hlast, ha⟩ := ihas ha
      exact ⟨first, last, hfirst, Nat.le_trans hlast hbs.le, ha⟩
    · obtain ⟨first, last, hfirst, hlast, ha⟩ := ihbs ha
      exact ⟨first, last, Nat.le_trans has.le hfirst, hlast, ha⟩

/-- **Line numbers in order.** Of two things one of which stands alone, the first has the smaller
line number. -/
theorem pairwise_line {line : α → Nat} (hreturns : Source.NoLoneReturn source)
    (hline : ∀ {start stop a}, within start stop a →
      ∃ place, start ≤ place ∧ place < stop ∧ line a = Source.lineOfIndex source place)
    (h : InOrder source within isAlone start as stop) (hstop : stop ≤ source.length) :
    as.Pairwise fun a b => isAlone a ∨ isAlone b → line a < line b := by
  induction h with
  | group _ h =>
    refine List.pairwise_of_forall_mem_list fun a ha b hb halone => ?_
    exact absurd halone (not_or_intro (h a ha).2 (h b hb).2)
  | alone _ _ => exact List.pairwise_singleton _ _
  | append has hcut hbs ihas ihbs =>
    refine List.pairwise_append.mpr ⟨ihas (Nat.le_trans hbs.le hstop), ihbs hstop, ?_⟩
    intro a ha b hb _
    obtain ⟨first, last, -, hlast, ha⟩ := has.exists_within ha
    obtain ⟨first', last', hfirst', hlast', hb⟩ := hbs.exists_within hb
    obtain ⟨i, -, hi, ha⟩ := hline ha
    obtain ⟨j, hj, hj', hb⟩ := hline hb
    rw [ha, hb]
    exact Source.lineOfIndex_lt hreturns hcut (by omega) (by omega) (by omega)

end InOrder

end Doctest
