import Doctest.Config.Notation

/-!
# Text that has no line comments

The comments of a text are taken off before it is read as YAML. A text is kept there if no comment
starts in it and no line end has a carriage return; only its last line end goes. Where a comment may
start depends on what stands in front of it on its line, so a text is looked at from a `Point`.
-/

namespace Doctest.LineComment

/-- A point of a line: whether it is in a string, and the character in front of it. -/
structure Point where
  inside : Inside
  before : Option Char

namespace Point

/-- Where each line starts. -/
def start : Point := ⟨.plain, none⟩

def next (p : Point) (c : Char) : Point := if c = '\n' then start else ⟨p.inside.next c, some c⟩

/-- The point behind a text. -/
def after (p : Point) (text : List Char) : Point := text.foldl next p

/-- A comment may start here. -/
def Open (p : Point) : Prop := p.inside = .plain ∧ p.before.all separates = true

@[simp] theorem after_nil (p : Point) : p.after [] = p := rfl

@[simp] theorem after_cons (p : Point) (c : Char) (text : List Char) :
    p.after (c :: text) = (p.next c).after text := rfl

@[simp] theorem after_append (p : Point) (xs ys : List Char) :
    p.after (xs ++ ys) = (p.after xs).after ys := List.foldl_append

@[simp] theorem next_newline (p : Point) : p.next '\n' = start := if_pos rfl

theorem next_of_ne {c : Char} (h : c ≠ '\n') (p : Point) : p.next c = ⟨p.inside.next c, some c⟩ :=
  if_neg h

theorem open_start : start.Open := ⟨rfl, rfl⟩

theorem open_next_space {p : Point} (h : p.inside = .plain) : (p.next ' ').Open := by
  rw [next_of_ne (by decide), h]
  exact ⟨rfl, rfl⟩

/-- Without quotes no string is opened. -/
theorem after_of_no_quotes {p : Point} {text : List Char} (hp : p.inside = .plain)
    (hdouble : '"' ∉ text) (hsingle : '\'' ∉ text) : (p.after text).inside = .plain := by
  induction text generalizing p with
  | nil => exact hp
  | cons c text ih =>
    rw [List.mem_cons, not_or] at hdouble hsingle
    refine ih ?_ hdouble.2 hsingle.2
    by_cases hnewline : c = '\n'
    · rw [hnewline, next_newline]
      rfl
    · simp [next_of_ne hnewline, hp, Inside.next, Ne.symm hdouble.1, Ne.symm hsingle.1]

end Point

/-- Nothing is taken off a text that starts at this point, nor is a line end in it changed. -/
def Kept : Point → List Char → Prop
  | _, [] => True
  | p, c :: cs => c ≠ '\r' ∧ ¬ (p.Open ∧ c = '/' ∧ cs.head? = some '/') ∧ Kept (p.next c) cs

/-- The same of a text that ends with its last line. -/
structure KeptLines (p : Point) (text : List Char) : Prop where
  kept : Kept p text
  ends : p.after text = .start

@[simp] theorem kept_nil (p : Point) : Kept p [] := trivial

theorem kept_cons {c : Char} (hc : c ≠ '/') (p : Point) (cs : List Char) :
    Kept p (c :: cs) ↔ c ≠ '\r' ∧ Kept (p.next c) cs := by
  simp [Kept, hc]

@[simp] theorem kept_newline (p : Point) (cs : List Char) :
    Kept p ('\n' :: cs) ↔ Kept .start cs := by
  simp [kept_cons]

@[simp] theorem kept_space (p : Point) (cs : List Char) :
    Kept p (' ' :: cs) ↔ Kept (p.next ' ') cs := by
  simp [kept_cons]

/-- Two texts are kept one behind the other if each of them is, unless a slash of each makes a
comment. -/
theorem kept_append_iff {p : Point} {xs ys : List Char}
    (hslash : xs.getLast? ≠ some '/' ∨ ys.head? ≠ some '/') :
    Kept p (xs ++ ys) ↔ Kept p xs ∧ Kept (p.after xs) ys := by
  induction xs generalizing p with
  | nil => simp
  | cons c xs ih =>
    cases xs with
    | nil =>
      have hopen : ¬ (p.Open ∧ c = '/' ∧ ys.head? = some '/') := fun ⟨_, hc, hys⟩ => by
        rcases hslash with h | h
        · exact h (by rw [hc]; rfl)
        · exact h hys
      simp [Kept, hopen]
    | cons d xs =>
      have hrest := ih (p := p.next c) (by simpa using hslash)
      simp only [List.cons_append, Kept, List.head?_cons, Point.after_cons] at hrest ⊢
      rw [hrest]
      simp only [and_assoc]

theorem kept_append {p : Point} {xs ys : List Char} (hxs : Kept p xs) (hys : Kept (p.after xs) ys)
    (hslash : xs.getLast? ≠ some '/' ∨ ys.head? ≠ some '/') : Kept p (xs ++ ys) :=
  (kept_append_iff hslash).mpr ⟨hxs, hys⟩

/-- What follows a whole line stands at the start of its own. -/
theorem KeptLines.append {p : Point} {xs ys : List Char} (hxs : KeptLines p xs)
    (hys : KeptLines .start ys) : KeptLines p (xs ++ ys) := by
  refine ⟨kept_append hxs.kept (hxs.ends ▸ hys.kept) (.inl fun hlast => ?_), ?_⟩
  · obtain ⟨ws, rfl⟩ := List.getLast?_eq_some_iff.mp hlast
    have hends := hxs.ends
    simp [Point.next_of_ne (show '/' ≠ '\n' by decide), Point.start] at hends
  · rw [Point.after_append, hxs.ends, hys.ends]

/-- The character in front of a text counts only as one that a comment may follow or not. -/
theorem kept_congr {p q : Point} (hinside : p.inside = q.inside)
    (hbefore : p.before.all separates = q.before.all separates) (text : List Char) :
    Kept p text ↔ Kept q text := by
  cases text with
  | nil => simp
  | cons c cs =>
    have hnext : p.next c = q.next c := by simp [Point.next, hinside]
    simp [Kept, Point.Open, hinside, hbefore, hnext]

theorem Point.Open.kept_iff {p : Point} (hp : p.Open) (text : List Char) :
    Kept p text ↔ Kept .start text :=
  kept_congr hp.1 hp.2 text

/-- Spaces in front of a text do not matter where a comment may follow anyway, unless the first of
them is escaped. -/
theorem kept_spaces_append {p : Point} (hbefore : p.before.all separates = true)
    (hinside : p.inside.next ' ' = p.inside) (n : Nat) (text : List Char) :
    Kept p (List.replicate n ' ' ++ text) ↔ Kept p text := by
  induction n generalizing p with
  | zero => simp
  | succ n ih =>
    have hnext : p.next ' ' = ⟨p.inside, some ' '⟩ := by
      rw [Point.next_of_ne (by decide), hinside]
    rw [List.replicate_succ, List.cons_append, kept_space, hnext]
    have hsame : Kept ⟨p.inside, some ' '⟩ text ↔ Kept p text :=
      kept_congr (p := ⟨p.inside, some ' '⟩) (q := p) rfl hbefore.symm text
    exact (ih (p := ⟨p.inside, some ' '⟩) rfl hinside).trans hsame

theorem kept_prefix {p : Point} {xs ys : List Char} (h : Kept p (xs ++ ys)) : Kept p xs := by
  induction xs generalizing p with
  | nil => trivial
  | cons c xs ih =>
    obtain ⟨hc, hopen, hrest⟩ := h
    refine ⟨hc, fun ⟨hp, hslash, hhead⟩ => hopen ⟨hp, hslash, ?_⟩, ih hrest⟩
    simp [hhead]

theorem kept_dropLast {p : Point} {text : List Char} (h : Kept p text) : Kept p text.dropLast := by
  rcases List.eq_nil_or_concat text with rfl | ⟨xs, c, rfl⟩
  · exact h
  · rw [List.concat_eq_append] at h ⊢
    rw [List.dropLast_concat]
    exact kept_prefix h

/-- A text without slashes has no comment. -/
theorem kept_of_no_slash {text : List Char} (hslash : '/' ∉ text) (hreturn : '\r' ∉ text)
    (p : Point) : Kept p text := by
  induction text generalizing p with
  | nil => trivial
  | cons c cs ih =>
    rw [List.mem_cons, not_or] at hslash hreturn
    exact (kept_cons (Ne.symm hslash.1) p cs).mpr ⟨Ne.symm hreturn.1, ih hslash.2 hreturn.2 _⟩

theorem keptLines_of_no_slash (body : List Char) (hslash : '/' ∉ body) (hreturn : '\r' ∉ body)
    (p : Point) : KeptLines p (body ++ ['\n']) :=
  ⟨kept_of_no_slash (by simpa using hslash) (by simpa using hreturn) p, by simp⟩

theorem KeptLines.newline {text : List Char} (h : KeptLines .start text) (p : Point) :
    KeptLines p ('\n' :: text) := ⟨(kept_newline p text).mpr h.kept, by simp [h.ends]⟩

/-- A line is kept if no comment starts in it. -/
theorem kept_line_iff {p : Point} {line : List Char} (hline : '\n' ∉ line) :
    Kept p line ↔ '\r' ∉ line ∧ startFrom? p.inside p.before line = none := by
  induction line generalizing p with
  | nil => simp [startFrom?]
  | cons c cs ih =>
    rw [List.mem_cons, not_or] at hline
    have hrest := ih (p := p.next c) hline.2
    rw [Point.next_of_ne (Ne.symm hline.1)] at hrest
    rw [Kept, startFrom?, Point.next_of_ne (Ne.symm hline.1), hrest]
    have hopen : (p.inside = .plain && c = '/' && cs.head? = some '/' &&
        p.before.all separates) = true ↔ p.Open ∧ c = '/' ∧ cs.head? = some '/' := by
      simp only [Point.Open, Bool.and_eq_true, decide_eq_true_eq]
      exact ⟨fun ⟨⟨⟨hinside, hc⟩, hcs⟩, hbefore⟩ => ⟨⟨hinside, hbefore⟩, hc, hcs⟩,
        fun ⟨⟨hinside, hbefore⟩, hc, hcs⟩ => ⟨⟨⟨hinside, hc⟩, hcs⟩, hbefore⟩⟩
    by_cases h : p.Open ∧ c = '/' ∧ cs.head? = some '/'
    · rw [if_pos (hopen.mpr h)]
      simp [h]
    · rw [if_neg (mt hopen.mp h)]
      simp only [h, not_false_eq_true, true_and, Option.map_eq_none_iff, List.mem_cons, not_or,
        and_assoc, ne_comm]

/-- A text is kept if no comment starts in any of its lines. -/
theorem kept_start_iff (text : List Char) :
    Kept .start text ↔ '\r' ∉ text ∧ ∀ line ∈ Text.pieces text, start? line = none := by
  obtain ⟨ls, rest, rfl, hls, hrest⟩ := Text.exists_lines text
  rw [Text.pieces_lines hls hrest]
  induction ls with
  | nil => simp [kept_line_iff hrest, start?, Point.start]
  | cons l ls ih =>
    obtain ⟨hl, hls⟩ := List.forall_mem_cons.mp hls
    have hlines : (l :: ls).flatMap (· ++ ['\n']) ++ rest =
        l ++ '\n' :: (ls.flatMap (· ++ ['\n']) ++ rest) := by simp
    rw [hlines, kept_append_iff (.inr (by simp)), kept_newline, ih hls, kept_line_iff hl,
      List.cons_append, List.forall_mem_cons]
    have hreturn : '\r' ∉ l ++ '\n' :: (ls.flatMap (· ++ ['\n']) ++ rest) ↔
        '\r' ∉ l ∧ '\r' ∉ ls.flatMap (· ++ ['\n']) ++ rest := by simp
    rw [hreturn]
    exact and_and_and_comm

theorem KeptLines.exists_body {text : List Char} (h : KeptLines .start text) :
    text = [] ∨ ∃ body, text = body ++ ['\n'] ∧ Kept .start body := by
  rcases List.eq_nil_or_concat text with htext | ⟨body, c, htext⟩
  · exact .inl htext
  rw [List.concat_eq_append] at htext
  subst htext
  have hc : c = '\n' := Decidable.byContradiction fun hc => by
    have hbefore := congrArg Point.before h.ends
    simp [Point.next_of_ne hc, Point.start] at hbefore
  subst hc
  exact .inr ⟨body, rfl, ((kept_append_iff (.inr (by simp))).mp h.kept).1⟩

/-- Of whole lines that are kept, only the last line end goes. -/
theorem strip_eq_dropLast {text : List Char} (h : KeptLines .start text) :
    strip text = text.dropLast := by
  obtain rfl | ⟨body, rfl, hbody⟩ := h.exists_body
  · rfl
  obtain ⟨hreturn, hlines⟩ := (kept_start_iff body).mp hbody
  have hstrip : (Text.pieces body).map stripLine = Text.pieces body := by
    refine (List.map_congr_left fun l hl => ?_).trans (List.map_id _)
    simp [stripLine, hlines l hl]
  rw [strip, Text.lineList_concat_newline hreturn, hstrip, Text.intercalate_pieces,
    List.dropLast_concat]

end Doctest.LineComment
