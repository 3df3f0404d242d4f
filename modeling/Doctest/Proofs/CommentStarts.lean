import Doctest.Config.Notation
import Doctest.Proofs.LineStrings
import Mathlib.Data.List.Forall2

/-!
# Where the comment of a line starts

A comment starts at the first two slashes that touch no string and have nothing in front of them, a blank,
a comma or an opening bracket. The search for it goes through the line once and knows of the strings only
whether it is in one.

* `CommentAt`: where a comment may start, by the strings of the line.
* `outside_of_plain`, `plain_of_outside`: what the search knows is what the strings say, at every slash.
* `startFrom?_eq_some_iff`: what the search finds, by what it knows.
* `start?_eq_some_iff`: what it finds, by the strings.
* `stripLine_uncommented`, `pieces_strip`: what is left of a line and of a text.
-/

namespace Doctest.LineComment

open Text (isBlank)

/-- A comment may start in front of the character with this number. -/
structure CommentAt (line : List Char) (n : Nat) : Prop where
  slashes : ['/', '/'] <+: line.drop n
  outside : ∀ closed i j, StringAt line closed i j → n + 2 ≤ i ∨ j ≤ n
  before : ∀ c ∈ (line.take n).getLast?, isBlank c ∨ c = ',' ∨ c = '{' ∨ c = '['

/-! ## What the search knows -/

namespace Inside

variable {q c : Char} {xs ys inner : List Char} {inside : Inside}

/-- The state behind a text. -/
def after (inside : Inside) (cs : List Char) : Inside := cs.foldl Inside.next inside

@[simp] theorem after_nil (inside : Inside) : inside.after [] = inside := rfl

@[simp] theorem after_cons (inside : Inside) (c : Char) (cs : List Char) :
    inside.after (c :: cs) = (inside.next c).after cs := rfl

@[simp] theorem after_append (inside : Inside) (xs ys : List Char) :
    inside.after (xs ++ ys) = (inside.after xs).after ys := List.foldl_append

theorem next_plain (hc : ¬ IsQuote c) : plain.next c = plain := by
  have hc' : ¬ (c = '"' ∨ c = '\'') := hc
  simp [Inside.next, hc']

theorem next_opening (hq : IsQuote q) : plain.next q = quoted q false := by
  rcases hq with rfl | rfl <;> rfl

theorem next_closing (hq : IsQuote q) : (quoted q false).next q = plain := by
  rcases hq with rfl | rfl <;> rfl

theorem next_inner (hquote : c ≠ q) (hslash : q = '"' → c ≠ '\\') :
    (quoted q false).next c = quoted q false := by
  by_cases hq : q = '"'
  · simp [Inside.next, hquote, hslash hq]
  · simp [Inside.next, hquote, hq]

/-- The search stays in a string up to the quote that closes it. Where a quote is doubled it has left the
string and entered another one. -/
theorem after_inner (hq : IsQuote q) (h : Inner q inner) :
    (quoted q false).after inner = quoted q false := by
  induction h with
  | nil => rfl
  | guarded c h ih => exact ih hq
  | doubled h ih => exact ih hq
  | plain hquote hslash h ih =>
    rw [after_cons, next_inner hquote hslash]
    exact ih hq

theorem after_front {front back : List Part} {p : Part} (h : IsCut (front ++ p :: back)) :
    plain.after (textOf front) = plain := by
  induction front with
  | nil => rfl
  | cons p' front ih =>
    rw [List.cons_append] at h
    generalize hrest : front ++ p :: back = rest at h ih
    cases h with
    | plain hc h =>
      rw [textOf_plain, after_cons, next_plain hc]
      exact ih h
    | closed hq hcloses h =>
      rw [textOf_closed, after_cons, next_opening hq, after_append, after_inner hq hcloses.1,
        after_cons, next_closing hq]
      exact ih h
    | unclosed _ _ => simp at hrest

/-- Where the search has left a string for good, a quote has closed it. -/
theorem exists_closes (hxs : (quoted q false).after xs = plain) (hys : ys.head? ≠ some '\'') :
    ∃ inner rest, xs = inner ++ q :: rest ∧ Closes q inner (rest ++ ys) := by
  induction hlength : xs.length using Nat.strongRecOn generalizing xs with
  | ind n ih =>
    subst hlength
    cases xs with
    | nil => cases hxs
    | cons c xs =>
      by_cases hquote : c = q
      · subst hquote
        by_cases hdoubled : c = '\'' ∧ xs.head? = some '\''
        · obtain ⟨rfl, hhead⟩ := hdoubled
          obtain ⟨xs, rfl⟩ := List.head?_eq_some_iff.mp hhead
          have hbehind : (quoted '\'' false).after xs = plain := hxs
          have hlt : xs.length < ('\'' :: '\'' :: xs).length := by simp only [List.length_cons]; omega
          obtain ⟨inner, rest, rfl, hinner, hend⟩ := ih _ hlt hbehind rfl
          exact ⟨_, rest, rfl, .doubled hinner, hend⟩
        · refine ⟨[], xs, rfl, .nil, fun hc hhead => ?_⟩
          cases xs with
          | nil => exact hys hhead
          | cons d xs => exact hdoubled ⟨hc, hhead⟩
      · by_cases hguard : q = '"' ∧ c = '\\'
        · obtain ⟨rfl, rfl⟩ := hguard
          cases xs with
          | nil => cases hxs
          | cons d xs =>
            have hbehind : (quoted '"' false).after xs = plain := hxs
            have hlt : xs.length < ('\\' :: d :: xs).length := by simp only [List.length_cons]; omega
            obtain ⟨inner, rest, rfl, hinner, hend⟩ := ih _ hlt hbehind rfl
            exact ⟨_, rest, rfl, .guarded d hinner, hend⟩
        · have hslash : q = '"' → c ≠ '\\' := fun hq hc => hguard ⟨hq, hc⟩
          rw [after_cons, next_inner hquote hslash] at hxs
          obtain ⟨inner, rest, rfl, hinner, hend⟩ := ih _ (Nat.lt_succ_self _) hxs rfl
          exact ⟨_, rest, rfl, .plain hquote hslash hinner, hend⟩

end Inside

section Strings

variable {xs ys inner : List Char} {q : Char} {back : List Part} {closed : Bool} {i j : Nat}

theorem isQuote_of_cut (h : IsCut (.string q inner closed :: back)) : IsQuote q := by
  cases h with
  | closed hq _ _ => exact hq
  | unclosed hq _ => exact hq

theorem textOf_string (q : Char) (inner : List Char) (closed : Bool) (back : List Part) :
    ∃ behind, textOf (.string q inner closed :: back) = q :: behind := by
  cases closed with
  | true => exact ⟨_, textOf_closed q inner back⟩
  | false => exact ⟨_, textOf_unclosed q inner back⟩

/-- The search leaves a string only where it ends. -/
theorem length_string_le (h : IsCut (.string q inner closed :: back))
    (htext : textOf (.string q inner closed :: back) = q :: (xs ++ '/' :: ys))
    (hxs : (Inside.quoted q false).after xs = .plain) :
    (Part.string q inner closed).text.length ≤ xs.length + 1 := by
  have hhead : ('/' :: ys).head? ≠ some '\'' := by simp
  obtain ⟨inner', rest, rfl, hcloses⟩ := Inside.exists_closes hxs hhead
  cases h with
  | closed hq hcloses' h =>
    rw [textOf_closed, List.append_assoc, List.cons_append] at htext
    obtain ⟨rfl, -⟩ := hcloses'.unique hcloses (List.cons.inj htext).2
    simp only [Part.text, if_true, List.cons_append, List.length_cons, List.length_append,
      List.length_nil]
    omega
  | unclosed hq hopen =>
    rw [textOf_unclosed, textOf_nil, List.append_nil, List.append_assoc, List.cons_append] at htext
    exact absurd hcloses (hopen _ _ (List.cons.inj htext).2)

/-- Two slashes touch no string if the search is in none there. -/
theorem outside_of_plain (hxs : Inside.plain.after xs = .plain)
    (h : StringAt (xs ++ '/' :: '/' :: ys) closed i j) : xs.length + 2 ≤ i ∨ j ≤ xs.length := by
  obtain ⟨front, q, inner, back, hcut, htext, rfl, rfl⟩ := h
  have hfront : Inside.plain.after (textOf front) = .plain := Inside.after_front hcut
  have hq : IsQuote q := isQuote_of_cut hcut.of_append
  obtain ⟨behind, hbehind⟩ := textOf_string q inner closed back
  rw [textOf_append, hbehind] at htext
  rcases List.append_eq_append_iff.mp htext with ⟨xs', rfl, hrest⟩ | ⟨slashes, hslashes, hrest⟩
  · cases xs' with
    | nil => exact absurd (List.cons.inj hrest).1 hq.ne_slash
    | cons c xs' =>
      obtain ⟨rfl, rfl⟩ := List.cons.inj hrest
      rw [Inside.after_append, hfront, Inside.after_cons, Inside.next_opening hq] at hxs
      have hlength := length_string_le hcut.of_append hbehind hxs
      right
      rw [List.length_append, List.length_cons]
      omega
  · left
    match slashes, hrest with
    | [], hrest => exact absurd (List.cons.inj hrest).1.symm hq.ne_slash
    | [_], hrest => exact absurd (List.cons.inj (List.cons.inj hrest).2).1.symm hq.ne_slash
    | _ :: _ :: more, _ =>
      rw [hslashes]
      simp only [List.length_append, List.length_cons]
      omega

/-- The search is in no string in front of a slash that no string holds. -/
theorem plain_of_outside
    (h : ∀ closed i j, StringAt (xs ++ '/' :: ys) closed i j → xs.length + 2 ≤ i ∨ j ≤ xs.length) :
    Inside.plain.after xs = .plain := by
  obtain ⟨parts, hcut, htext⟩ := exists_cut (xs ++ '/' :: ys)
  obtain ⟨front, p, back, before, after, rfl, rfl, hp⟩ := exists_part htext
  cases p with
  | plain c =>
    -- A single character has nothing in front of it.
    have hbefore : before = [] := by
      cases before with
      | nil => rfl
      | cons d before => simp [Part.text] at hp
    subst hbefore
    rw [List.append_nil]
    exact Inside.after_front hcut
  | string q inner closed =>
    have hstring := h closed _ _ ⟨front, q, inner, back, hcut, htext, rfl, rfl⟩
    rw [hp] at hstring
    simp only [List.length_append, List.length_cons] at hstring
    omega

end Strings

/-! ## What the search finds -/

section Search

variable {c : Char} {line cs : List Char} {n : Nat} {inside : Inside} {before : Option Char}

/-- The search may stop here: it is in no string, and two slashes follow what a comment may follow. -/
structure Stop (inside : Inside) (before : Option Char) (line : List Char) (n : Nat) : Prop where
  plain : inside.after (line.take n) = .plain
  slashes : ['/', '/'] <+: line.drop n
  before : ((line.take n).getLast?.or before).all separates = true

theorem not_stop_nil : ¬ Stop inside before [] n := fun h => by
  have hslashes := h.slashes
  rw [List.drop_nil] at hslashes
  exact absurd (List.prefix_nil.mp hslashes) (List.cons_ne_nil _ _)

theorem slashes_iff : ['/', '/'] <+: c :: cs ↔ c = '/' ∧ cs.head? = some '/' := by
  cases cs with
  | nil => simp
  | cons d cs => simp [eq_comm]

theorem stop_zero_iff : Stop inside before (c :: cs) 0 ↔
    (inside = .plain && c = '/' && cs.head? = some '/' && before.all separates) = true := by
  constructor
  · rintro ⟨hplain, hslashes, hbefore⟩
    obtain ⟨hc, hcs⟩ := slashes_iff.mp hslashes
    have hinside : inside = .plain := hplain
    simpa [hinside, hc, hcs] using hbefore
  · intro h
    simp only [Bool.and_eq_true, decide_eq_true_eq] at h
    obtain ⟨⟨⟨hinside, hc⟩, hcs⟩, hbefore⟩ := h
    exact ⟨hinside, slashes_iff.mpr ⟨hc, hcs⟩, hbefore⟩

theorem stop_succ_iff :
    Stop inside before (c :: cs) (n + 1) ↔ Stop (inside.next c) (some c) cs n := by
  have hlast : ((c :: cs.take n).getLast?.or before) = (cs.take n).getLast?.or (some c) := by
    rw [List.getLast?_cons]
    cases (cs.take n).getLast? with
    | none => rfl
    | some d => rfl
  constructor
  · rintro ⟨hplain, hslashes, hbefore⟩
    rw [List.take_succ_cons, hlast] at hbefore
    exact ⟨hplain, hslashes, hbefore⟩
  · rintro ⟨hplain, hslashes, hbefore⟩
    refine ⟨hplain, hslashes, ?_⟩
    rw [List.take_succ_cons, hlast]
    exact hbefore

/-- The search finds the first place where it may stop. -/
theorem startFrom?_eq_some_iff : startFrom? inside before line = some n ↔
    Stop inside before line n ∧ ∀ m < n, ¬ Stop inside before line m := by
  induction line generalizing inside before n with
  | nil => simp [startFrom?, not_stop_nil]
  | cons c cs ih =>
    rw [startFrom?]
    by_cases hhere : Stop inside before (c :: cs) 0
    · rw [if_pos (stop_zero_iff.mp hhere)]
      constructor
      · rintro ⟨⟩
        exact ⟨hhere, fun m hm => absurd hm (Nat.not_lt_zero m)⟩
      · rintro ⟨-, hfirst⟩
        cases n with
        | zero => rfl
        | succ n => exact absurd hhere (hfirst 0 n.succ_pos)
    · rw [if_neg (mt stop_zero_iff.mpr hhere), Option.map_eq_some_iff]
      constructor
      · rintro ⟨n, hn, rfl⟩
        obtain ⟨hstop, hfirst⟩ := ih.mp hn
        refine ⟨stop_succ_iff.mpr hstop, fun m hm => ?_⟩
        cases m with
        | zero => exact hhere
        | succ m => exact mt stop_succ_iff.mp (hfirst m (Nat.lt_of_succ_lt_succ hm))
      · rintro ⟨hstop, hfirst⟩
        cases n with
        | zero => exact absurd hstop hhere
        | succ n =>
          refine ⟨n, ih.mpr ⟨stop_succ_iff.mp hstop, fun m hm => ?_⟩, rfl⟩
          exact mt stop_succ_iff.mpr (hfirst (m + 1) (Nat.succ_lt_succ hm))

theorem separates_iff :
    separates c = true ↔ isBlank c ∨ c = ',' ∨ c = '{' ∨ c = '[' := by
  simp [separates, or_assoc]

theorem exists_of_slashes (h : ['/', '/'] <+: line.drop n) :
    ∃ xs ys, line = xs ++ '/' :: '/' :: ys ∧ xs.length = n := by
  obtain ⟨ys, hys⟩ := h
  refine ⟨line.take n, ys, ?_, ?_⟩
  · conv_lhs => rw [← List.take_append_drop n line, ← hys]
    rfl
  · have hlength := congrArg List.length hys
    simp only [List.length_append, List.length_cons, List.length_drop] at hlength
    rw [List.length_take]
    omega

/-- What the search knows of the strings of a line is enough. -/
theorem commentAt_iff_stop : CommentAt line n ↔ Stop .plain none line n := by
  have hbefore : (∀ c ∈ (line.take n).getLast?, isBlank c ∨ c = ',' ∨ c = '{' ∨ c = '[') ↔
      ((line.take n).getLast?.or none).all separates = true := by
    rw [Option.or_none, Option.all_eq_true]
    simp only [separates_iff, Option.mem_def]
  constructor
  · rintro ⟨hslashes, houtside, hseparated⟩
    refine ⟨?_, hslashes, hbefore.mp hseparated⟩
    obtain ⟨xs, ys, rfl, rfl⟩ := exists_of_slashes hslashes
    rw [List.take_left]
    exact plain_of_outside houtside
  · rintro ⟨hplain, hslashes, hseparated⟩
    refine ⟨hslashes, fun closed i j hstring => ?_, hbefore.mpr hseparated⟩
    obtain ⟨xs, ys, rfl, rfl⟩ := exists_of_slashes hslashes
    rw [List.take_left] at hplain
    exact outside_of_plain hplain hstring

/-- **Where the comment of a line starts.** -/
theorem start?_eq_some_iff :
    start? line = some n ↔ CommentAt line n ∧ ∀ m < n, ¬ CommentAt line m := by
  simp only [start?, startFrom?_eq_some_iff, commentAt_iff_stop]

theorem start?_eq_none_iff : start? line = none ↔ ∀ n, ¬ CommentAt line n := by
  constructor
  · intro h n
    -- The first place where a comment may start would be found.
    induction n using Nat.strongRecOn with
    | ind n ih =>
      intro hn
      cases h.symm.trans (start?_eq_some_iff.mpr ⟨hn, ih⟩)
  · intro h
    cases hstart : start? line with
    | none => rfl
    | some n => exact absurd (start?_eq_some_iff.mp hstart).1 (h n)

end Search

/-! ## What is left of a line and of a text -/

/-- What is left of a line without its comment. -/
structure Uncommented (line left : List Char) : Prop where
  isPrefix : left <+: line
  /-- What is taken off is a comment. -/
  cut : left = line ∨ CommentAt line left.length
  noComment : ∀ n, ¬ CommentAt left n
  /-- A string is kept as a whole or taken off as a whole. -/
  wholeStrings : ∀ closed i j, StringAt line closed i j → left.length ≤ i ∨ j ≤ left.length

section Strip

variable {line : List Char} {n k : Nat}

theorem CommentAt.add_two_le (h : CommentAt line n) : n + 2 ≤ line.length := by
  have hlength := h.slashes.length_le
  simp only [List.length_cons, List.length_nil, List.length_drop] at hlength
  omega

theorem StringAt.le_length {closed : Bool} {i j : Nat} (h : StringAt line closed i j) :
    j ≤ line.length := by
  obtain ⟨front, q, inner, back, -, rfl, rfl, rfl⟩ := h
  simp only [textOf, List.flatMap_append, List.flatMap_cons, List.length_append]
  omega

/-- A comment in the front part of a line is one of the line. -/
theorem CommentAt.of_take (h : CommentAt (line.take k) n) : CommentAt line n := by
  have hle := h.add_two_le
  rw [List.length_take] at hle
  obtain ⟨hplain, hslashes, hbefore⟩ := commentAt_iff_stop.mp h
  rw [List.take_take, Nat.min_eq_left (by omega)] at hplain hbefore
  refine commentAt_iff_stop.mpr ⟨hplain, hslashes.trans ?_, hbefore⟩
  rw [List.drop_take]
  exact List.take_prefix _ _

theorem stripLine_uncommented (line : List Char) : Uncommented line (stripLine line) := by
  unfold stripLine
  cases hstart : start? line with
  | none =>
    rw [Option.getD_none, List.take_length]
    exact ⟨List.prefix_rfl, .inl rfl, start?_eq_none_iff.mp hstart,
      fun closed i j hstring => .inr hstring.le_length⟩
  | some n =>
    obtain ⟨hcomment, hfirst⟩ := start?_eq_some_iff.mp hstart
    have hle := hcomment.add_two_le
    have hlength : (line.take n).length = n := by
      rw [List.length_take]
      omega
    rw [Option.getD_some]
    refine ⟨List.take_prefix n line, .inr (hlength.symm ▸ hcomment), fun m hm => ?_,
      fun closed i j hstring => ?_⟩
    · have hlt := hm.add_two_le
      exact hfirst m (by omega) hm.of_take
    · rw [hlength]
      have houtside := hcomment.outside closed i j hstring
      omega

/-- The lines that are left are the lines of the text, one for one. -/
theorem pieces_strip {text : List Char} (h : text ≠ []) :
    Text.pieces (strip text) = (Text.lineList text).map stripLine := by
  have hne : (Text.lineList text).map stripLine ≠ [] := fun hnil =>
    Text.lineList_ne_nil h (List.map_eq_nil_iff.mp hnil)
  refine Text.pieces_intercalate hne fun left hleft hnewline => ?_
  obtain ⟨line, hline, rfl⟩ := List.mem_map.mp hleft
  obtain ⟨p, hp, hprefix⟩ := Text.exists_piece_of_mem_lineList hline
  have hmem := ((stripLine_uncommented line).isPrefix.trans hprefix).mem hnewline
  exact Text.newline_not_mem_of_mem_pieces hp hmem

/-- **Only comments are taken off.** Every line has its strings in one way, a comment starts at the first two
slashes that touch none of them and stand where a comment may start, and a text keeps its lines, each up to
its comment, with a newline between each two of them. So a last line that is only a comment is still there, as
an empty piece behind the last newline. -/
theorem strip_only_comments :
    (∀ line, ∃! parts, IsCut parts ∧ textOf parts = line) ∧
    (∀ line n, start? line = some n ↔ CommentAt line n ∧ ∀ m < n, ¬ CommentAt line m) ∧
    (∀ line, start? line = none ↔ ∀ n, ¬ CommentAt line n) ∧
    ∀ text, ∃ left, List.Forall₂ Uncommented (Text.lineList text) left ∧
      strip text = ['\n'].intercalate left ∧ (text ≠ [] → Text.pieces (strip text) = left) := by
  refine ⟨existsUnique_cut, fun line n => start?_eq_some_iff, fun line => start?_eq_none_iff,
    fun text => ⟨(Text.lineList text).map stripLine, ?_, rfl, pieces_strip⟩⟩
  rw [List.forall₂_map_right_iff, List.forall₂_same]
  exact fun line _ => stripLine_uncommented line

/-- An escaped backslash in front of a closing quote, a doubled quote, slashes that no comment can start
with, and a string that is not closed. -/
theorem strip_only_comments_mixedQuotes :
    let text := "\x7ba: \"\\\\\", // \"b\"\r\n 'it''s // in', x//y // '\n\"open // 'end'".toList
    text ≠ [] ∧ ∃ left, List.Forall₂ Uncommented (Text.lineList text) left ∧
      Text.pieces (strip text) = left ∧
      left.map String.ofList = ["\x7ba: \"\\\\\", ", " 'it''s // in', x//y ", "\"open // 'end'"] := by
  intro text
  have htext : text ≠ [] := by decide
  obtain ⟨left, hleft, -, hpieces⟩ := strip_only_comments.2.2.2 text
  refine ⟨htext, left, hleft, hpieces htext, ?_⟩
  rw [← hpieces htext]
  decide +kernel

end Strip

end Doctest.LineComment
