import Doctest.Proofs.CommentTokens
import Doctest.Proofs.TokenContext
import Mathlib.Data.List.Forall2

/-!
# The words of headings

A heading can go over several lines. Its token has the words of its text with single blanks between
them, but the breaks between the lines are left out before the text is cut into words, not after it. So
two words are glued together where a break is all that stands between them.

* `Text.words_append`, `Text.words_append_blank`, `Text.length_words_append`: the words of two texts that
  stand next to each other.
* `Inline.shown`, `Glues`: what a heading shows to its reader, and where two of its words become one.
* `words_kept_eq_iff`: the words that are kept are those that are shown if and only if none are glued.
* `ofBlocks_headings`: the same of all headings among the tokens of a text.
* `ofSource_gluedHeading`: a heading over two lines whose words are glued.
-/

namespace Doctest

open Markdown (Block Inline)

/-! ## Words of texts next to each other -/

namespace Text

variable {c d : Char} {w xs ys : List Char} {ws : List (List Char)}

theorem words_cons_blank (hc : isBlank c) (cs : List Char) : words (c :: cs) = words cs := by
  rw [words.eq_def]
  exact if_pos hc

theorem words_cons_end (hc : isBlank c = false) (hxs : ∀ d ∈ xs.head?, isBlank d) :
    words (c :: xs) = [c] :: words xs := by
  cases xs with
  | nil => simp [words, hc]
  | cons d xs => simp [words, hc, hxs d rfl]

theorem words_cons_cons (hc : isBlank c = false) (hd : isBlank d = false)
    (h : words (d :: xs) = w :: ws) : words (c :: d :: xs) = (c :: w) :: ws := by
  rw [words]
  simp [hc, hd, h]

theorem exists_words_cons (hc : isBlank c = false) (xs : List Char) :
    ∃ w ws, words (c :: xs) = w :: ws := by
  induction xs generalizing c with
  | nil => exact ⟨_, _, words_cons_end hc (by simp)⟩
  | cons d xs ih =>
    by_cases hd : isBlank d
    · exact ⟨_, _, words_cons_end hc (by simpa using hd)⟩
    · rw [Bool.not_eq_true] at hd
      obtain ⟨w, ws, h⟩ := ih hd
      exact ⟨_, _, words_cons_cons hc hd h⟩

/-- A character belongs to no word, is a word of its own, or is put in front of the first word. -/
theorem words_cons_cases (c : Char) (xs : List Char) :
    (isBlank c ∧ words (c :: xs) = words xs) ∨
      (isBlank c = false ∧ (∀ d ∈ xs.head?, isBlank d) ∧ words (c :: xs) = [c] :: words xs) ∨
      (isBlank c = false ∧ ∃ d ys w ws, xs = d :: ys ∧ isBlank d = false ∧
        words xs = w :: ws ∧ words (c :: xs) = (c :: w) :: ws) := by
  by_cases hc : isBlank c
  · exact .inl ⟨hc, words_cons_blank hc xs⟩
  · rw [Bool.not_eq_true] at hc
    by_cases hend : ∀ d ∈ xs.head?, isBlank d
    · exact .inr (.inl ⟨hc, hend, words_cons_end hc hend⟩)
    · obtain ⟨d, hhead, hd⟩ : ∃ d, xs.head? = some d ∧ isBlank d = false := by simpa using hend
      obtain ⟨ys, rfl⟩ := List.head?_eq_some_iff.mp hhead
      obtain ⟨w, ws, h⟩ := exists_words_cons hd ys
      exact .inr (.inr ⟨hc, d, ys, w, ws, rfl, hd, h, words_cons_cons hc hd h⟩)

/-- **Words are cut at a blank.** -/
theorem words_append_blank (hc : isBlank c) (xs ys : List Char) :
    words (xs ++ c :: ys) = words xs ++ words ys := by
  induction xs with
  | nil => exact words_cons_blank hc ys
  | cons x xs ih =>
    rw [List.cons_append]
    rcases words_cons_cases x xs with ⟨hx, h⟩ | ⟨hx, hend, h⟩ | ⟨hx, d, zs, w, ws, rfl, hd, hw, h⟩
    · rw [h, words_cons_blank hx, ih]
    · have hend' : ∀ d ∈ (xs ++ c :: ys).head?, isBlank d := by
        cases xs with
        | nil => simpa using hc
        | cons x' xs => exact hend
      rw [h, words_cons_end hx hend', ih]
      rfl
    · rw [hw] at ih
      rw [h]
      exact words_cons_cons hx hd ih

/-- The last word of the one text and the first word of the other are one word without a blank in
between. -/
def Joins (xs ys : List Char) : Prop :=
  (∃ c ∈ xs.getLast?, isBlank c = false) ∧ ∃ c ∈ ys.head?, isBlank c = false

theorem words_append (h : ¬ Joins xs ys) : words (xs ++ ys) = words xs ++ words ys := by
  by_cases hys : ∃ c ∈ ys.head?, isBlank c = false
  · have hxs : ¬ ∃ c ∈ xs.getLast?, isBlank c = false := fun hxs => h ⟨hxs, hys⟩
    rcases xs.eq_nil_or_concat' with rfl | ⟨xs, c, rfl⟩
    · rfl
    · have hc : isBlank c := by simpa using hxs
      rw [List.append_assoc, List.singleton_append, words_append_blank hc, words_append_blank hc]
      simp [words]
  · cases ys with
    | nil => simp [words]
    | cons c ys =>
      have hc : isBlank c := by simpa using hys
      rw [words_append_blank hc, words_cons_blank hc]

/-- A word ends where no more of it follows, so words are counted by their ends. -/
theorem length_words_cons (hc : isBlank c = false) (xs : List Char) :
    (words (c :: xs)).length = (words xs).length + (xs.head?.all isBlank).toNat := by
  rcases words_cons_cases c xs with ⟨hblank, -⟩ | ⟨-, hend, h⟩ | ⟨-, d, ys, w, ws, rfl, hd, hw, h⟩
  · rw [hc] at hblank
    cases hblank
  · have hall : xs.head?.all isBlank = true := by simpa [Option.all_eq_true] using hend
    rw [h, hall]
    rfl
  · rw [h, hw]
    simp [hd]

/-- Where two words become one, a word is lost. -/
theorem length_words_append (h : Joins xs ys) :
    (words (xs ++ ys)).length + 1 = (words xs).length + (words ys).length := by
  induction xs with
  | nil =>
    obtain ⟨⟨c, hc, -⟩, -⟩ := h
    cases hc
  | cons c xs ih =>
    obtain ⟨⟨last, hlast, hblank⟩, hys⟩ := h
    rw [List.cons_append]
    cases xs with
    | nil =>
      obtain rfl : c = last := Option.some.inj hlast
      obtain ⟨d, hhead, hd⟩ := hys
      obtain ⟨ys, rfl⟩ := List.head?_eq_some_iff.mp hhead
      rw [List.nil_append, length_words_cons hblank, length_words_cons hblank]
      simp [words, hd]
      omega
    | cons x xs =>
      have ih := ih ⟨⟨last, hlast, hblank⟩, hys⟩
      by_cases hc : isBlank c
      · rw [words_cons_blank hc, words_cons_blank hc]
        exact ih
      · rw [Bool.not_eq_true] at hc
        have hhead : (x :: xs ++ ys).head? = (x :: xs).head? := rfl
        rw [length_words_cons hc, length_words_cons hc, hhead]
        omega

theorem words_of_word (hne : w ≠ []) (hw : ∀ c ∈ w, isBlank c = false) : words w = [w] := by
  induction w with
  | nil => exact absurd rfl hne
  | cons c w ih =>
    obtain ⟨hc, hw⟩ := List.forall_mem_cons.mp hw
    cases w with
    | nil => exact words_cons_end hc (by simp)
    | cons d w => exact words_cons_cons hc (hw d List.mem_cons_self) (ih (List.cons_ne_nil _ _) hw)

theorem of_mem_words (h : w ∈ words xs) : w ≠ [] ∧ ∀ c ∈ w, isBlank c = false := by
  induction xs generalizing w with
  | nil => cases h
  | cons c xs ih =>
    rcases words_cons_cases c xs with ⟨-, hxs⟩ | ⟨hc, -, hxs⟩ | ⟨hc, d, ys, v, ws, -, -, hv, hxs⟩
    · rw [hxs] at h
      exact ih h
    · rw [hxs] at h
      rcases List.mem_cons.mp h with rfl | h
      · exact ⟨List.cons_ne_nil _ _, List.forall_mem_singleton.mpr hc⟩
      · exact ih h
    · rw [hxs] at h
      rw [hv] at ih
      rcases List.mem_cons.mp h with rfl | h
      · have hfirst := (ih List.mem_cons_self).2
        exact ⟨List.cons_ne_nil _ _, List.forall_mem_cons.mpr ⟨hc, hfirst⟩⟩
      · exact ih (List.mem_cons_of_mem _ h)

/-- The words with single blanks between them. -/
def spaced (xs : List Char) : List Char := [' '].intercalate (words xs)

theorem words_intercalate (hws : ∀ w ∈ ws, w ≠ [] ∧ ∀ c ∈ w, isBlank c = false) :
    words ([' '].intercalate ws) = ws := by
  induction ws with
  | nil => rfl
  | cons w ws ih =>
    obtain ⟨⟨hne, hw⟩, hws⟩ := List.forall_mem_cons.mp hws
    cases ws with
    | nil => simpa [List.intercalate] using words_of_word hne hw
    | cons w' ws =>
      have hcons : [' '].intercalate (w :: w' :: ws) = w ++ ' ' :: [' '].intercalate (w' :: ws) := by
        simp [List.intercalate]
      rw [hcons, words_append_blank (by decide), words_of_word hne hw, ih hws]
      rfl

theorem spaced_inj : spaced xs = spaced ys ↔ words xs = words ys := by
  constructor
  · intro h
    have hwords := congrArg words h
    rwa [spaced, spaced, words_intercalate fun _ => of_mem_words,
      words_intercalate fun _ => of_mem_words] at hwords
  · intro h
    rw [spaced, spaced, h]

end Text

open Text (words spaced spaced_inj Joins words_append words_append_blank length_words_append)

/-! ## One heading -/

namespace Markdown.Inline

/-- What the token of a heading keeps of a part of it. -/
def kept : Inline → List Char
  | .text t | .code t => t
  | .softBreak | .hardBreak | .html _ => []

/-- What a part of a heading shows: a break between two lines is a blank. -/
def shown : Inline → List Char
  | .text t | .code t => t
  | .softBreak | .hardBreak => [' ']
  | .html _ => []

def IsBreak : Inline → Prop
  | .softBreak | .hardBreak => True
  | .text _ | .code _ | .html _ => False

end Markdown.Inline

namespace Token

open Markdown.Inline (kept shown)

variable {content : List Inline}

/-- A break is all that stands between two words. -/
def Glues (content : List Inline) : Prop :=
  ∃ before b after, content = before ++ b :: after ∧ b.IsBreak ∧
    Joins (before.flatMap kept) (after.flatMap kept)

theorem headingText_eq (content : List Inline) :
    headingText content = String.ofList (spaced (content.flatMap kept)) :=
  rfl

/-- A part of a heading is a break, or all that it shows is kept. -/
theorem shown_of_isBreak {b : Inline} (h : b.IsBreak) : b.kept = [] ∧ b.shown = [' '] := by
  cases b with
  | softBreak | hardBreak => exact ⟨rfl, rfl⟩
  | text t | code t | html r => cases h

theorem shown_of_not_isBreak {i : Inline} (h : ¬ i.IsBreak) : i.shown = i.kept := by
  cases i with
  | softBreak | hardBreak => exact absurd trivial h
  | text t | code t | html r => rfl

theorem length_words_append_le (xs ys : List Char) :
    (words (xs ++ ys)).length ≤ (words xs).length + (words ys).length := by
  by_cases h : Joins xs ys
  · have hlost := length_words_append h
    omega
  · rw [words_append h, List.length_append]

/-- What is kept has no more words than what is shown, whatever stands in front. -/
theorem length_words_kept_le (front : List Char) (content : List Inline) :
    (words (front ++ content.flatMap kept)).length ≤
      (words (front ++ content.flatMap shown)).length := by
  induction content generalizing front with
  | nil => exact Nat.le_refl _
  | cons i content ih =>
    rw [List.flatMap_cons, List.flatMap_cons]
    by_cases hi : i.IsBreak
    · obtain ⟨hkept, hshown⟩ := shown_of_isBreak hi
      have hrest := ih []
      have hfront := length_words_append_le front (content.flatMap kept)
      rw [hkept, hshown, List.singleton_append, words_append_blank (by decide), List.length_append]
      exact Nat.le_trans hfront (Nat.add_le_add_left hrest _)
    · rw [shown_of_not_isBreak hi, ← List.append_assoc, ← List.append_assoc]
      exact ih (front ++ i.kept)

theorem words_kept_of_not_joins (front : List Char)
    (h : ∀ before b after, content = before ++ b :: after → b.IsBreak →
      ¬ Joins (front ++ before.flatMap kept) (after.flatMap kept)) :
    words (front ++ content.flatMap kept) = words (front ++ content.flatMap shown) := by
  induction content generalizing front with
  | nil => rfl
  | cons i content ih =>
    rw [List.flatMap_cons, List.flatMap_cons]
    by_cases hi : i.IsBreak
    · obtain ⟨hkept, hshown⟩ := shown_of_isBreak hi
      have hhere : ¬ Joins front (content.flatMap kept) := by
        have hjoins := h [] i content rfl hi
        rwa [List.flatMap_nil, List.append_nil] at hjoins
      have hrest : words ([] ++ content.flatMap kept) = words ([] ++ content.flatMap shown) := by
        refine ih [] fun before b after hcontent hb hjoins => ?_
        refine h (i :: before) b after (by rw [hcontent, List.cons_append]) hb ⟨?_, hjoins.2⟩
        obtain ⟨c, hlast, hc⟩ := hjoins.1
        refine ⟨c, ?_, hc⟩
        rw [List.flatMap_cons, hkept, List.getLast?_append]
        exact Option.or_eq_some_iff.mpr (.inl hlast)
      rw [hkept, hshown, List.singleton_append, words_append_blank (by decide)]
      exact (words_append hhere).trans (congrArg _ hrest)
    · rw [shown_of_not_isBreak hi, ← List.append_assoc, ← List.append_assoc]
      refine ih (front ++ i.kept) fun before b after hcontent hb hjoins => ?_
      refine h (i :: before) b after (by rw [hcontent, List.cons_append]) hb ?_
      rwa [List.flatMap_cons, ← List.append_assoc]

/-- **The words that are kept are those that are shown if and only if none are glued.** -/
theorem words_kept_eq_iff (content : List Inline) :
    words (content.flatMap kept) = words (content.flatMap shown) ↔ ¬ Glues content := by
  constructor
  · intro heq ⟨before, b, after, hcontent, hb, hjoins⟩
    obtain ⟨hkept, hshown⟩ := shown_of_isBreak hb
    have hlost := length_words_append hjoins
    have hbefore := length_words_kept_le [] before
    have hafter := length_words_kept_le [] after
    rw [hcontent] at heq
    simp only [List.flatMap_append, List.flatMap_cons, hkept, hshown, List.nil_append,
      List.singleton_append] at heq hbefore hafter
    rw [words_append_blank (by decide)] at heq
    have hlength := congrArg List.length heq
    rw [List.length_append] at hlength
    omega
  · intro h
    refine words_kept_of_not_joins [] fun before b after hcontent hb hjoins => ?_
    exact h ⟨before, b, after, hcontent, hb, hjoins⟩

/-- The text of a heading as its reader sees it: all its words, with single blanks between them. -/
def shownText (content : List Inline) : String := String.ofList (spaced (content.flatMap shown))

theorem headingText_eq_shownText_iff (content : List Inline) :
    headingText content = shownText content ↔ ¬ Glues content := by
  rw [headingText_eq, shownText, String.ofList_inj, spaced_inj, words_kept_eq_iff]

/-! ## All headings of a text -/

end Token

/-- The place and the parts of the heading that a block is. -/
def Markdown.Block.heading? : Block → Option (Nat × List Inline)
  | .heading start content => some (start, content)
  | .html _ | .code .. | .running _ => none

/-- What becomes of a heading: the words that are kept of it, with single blanks between them. They are
the words that it shows if and only if none are glued. -/
structure Heading.Of (source : List Char) (found : Nat × List Inline) (h : Heading) : Prop where
  line : h.line = Source.lineOfIndex source found.1
  kept : h.content = String.ofList (spaced (found.2.flatMap Inline.kept))
  shown_iff : h.content = Token.shownText found.2 ↔ ¬ Token.Glues found.2

namespace Token

variable {source : List Char} {blocks : List Block} {tokens : List Token}

def headingOf (source : List Char) (found : Nat × List Inline) : Heading :=
  ⟨Source.lineOfIndex source found.1, headingText found.2⟩

theorem foldl_withHtml_headings (source : List Char) (p : Progress) (rs : List Markdown.Range) :
    (rs.foldl (Progress.withHtml source) p).tokens.filterMap heading? =
      p.tokens.filterMap heading? := by
  induction rs generalizing p with
  | nil => rfl
  | cons r rs ih =>
    obtain ⟨starts, -, heq⟩ := withHtml_eq source p r
    have hcomments : (commentsAt source starts).filterMap heading? = [] := by
      refine List.filterMap_eq_nil_iff.mpr fun t ht => ?_
      obtain ⟨s, -, rfl⟩ := List.mem_map.mp ht
      rfl
    rw [List.foldl_cons, ih, heq, List.filterMap_append, hcomments, List.append_nil]

theorem step_headings (source : List Char) (p : Progress) (b : Block) :
    (p.step source b).tokens.filterMap heading? =
      p.tokens.filterMap heading? ++ (b.heading?.map (headingOf source)).toList := by
  rw [step_eq, foldl_withHtml_headings, List.filterMap_append]
  cases b <;> rfl

theorem foldl_step_headings (source : List Char) (p : Progress) (blocks : List Block) :
    (blocks.foldl (Progress.step source) p).tokens.filterMap heading? =
      p.tokens.filterMap heading? ++ (blocks.filterMap Block.heading?).map (headingOf source) := by
  induction blocks generalizing p with
  | nil => exact (List.append_nil _).symm
  | cons b blocks ih =>
    rw [List.foldl_cons, ih, step_headings, List.append_assoc, List.filterMap_cons]
    cases b.heading? <;> rfl

/-- **Headings keep their words, and lose the breaks between them.** Each heading that the Markdown
reader finds becomes one token, in order. -/
theorem ofBlocks_headings (h : ofBlocks source blocks = .ok tokens) :
    List.Forall₂ (Heading.Of source) (blocks.filterMap Block.heading?)
      (tokens.filterMap heading?) := by
  have htokens : tokens.filterMap heading? =
      (blocks.filterMap Block.heading?).map (headingOf source) := by
    have hfold := foldl_step_headings source ⟨[], [], 0⟩ blocks
    unfold ofBlocks at h
    dsimp only at h
    split at h
    · cases h
      exact hfold
    · cases h
  rw [htokens, List.forall₂_map_right_iff, List.forall₂_same]
  intro found _
  exact ⟨rfl, headingText_eq found.2, headingText_eq_shownText_iff found.2⟩

/-- A heading over three lines, of which the second one ends with a tag, and a heading over one line. -/
def threeLines : String := "Foo\nbar <b>\n`baz`\n===\n\n# One `two`\n"

theorem ofBlocks_headings_threeLines :
    ofSource threeLines = .ok [.heading 1 "Foobar baz", .heading 6 "One two"] ∧
      List.Forall₂ (Heading.Of threeLines.toList)
        ((Block.read threeLines.toList).filterMap Block.heading?)
        [⟨1, "Foobar baz"⟩, ⟨6, "One two"⟩] := by
  have htokens : ofBlocks threeLines.toList (Block.read threeLines.toList) =
      .ok [.heading 1 "Foobar baz", .heading 6 "One two"] := by
    decide +kernel
  exact ⟨htokens, ofBlocks_headings htokens⟩

/-- **Words on two lines are glued.** -/
theorem ofSource_gluedHeading :
    let source := "Foo\nbar\n===\n"
    let content := [Inline.text "Foo".toList, .softBreak, .text "bar".toList]
    Block.read source.toList = [.heading 0 content] ∧ shownText content = "Foo bar" ∧
      ofSource source = .ok [.heading 1 "Foobar"] := by
  decide +kernel

end Token

end Doctest
