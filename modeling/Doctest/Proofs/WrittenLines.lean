import Doctest.Proofs.LineComments

/-!
# The lines that are written

What is taken for a comment in a text that was written depends on the style of its scalars. A quoted
scalar hides its slashes from the search for comments. A plain scalar and the lines of a literal block
stand there as they are, so they are kept if no comment starts in the text itself. A plain key may
leave its line inside a string; what stands behind it has to be kept from there.
-/

namespace Doctest.Yaml.Writer

open LineComment (Point Kept KeptLines Inside kept_cons kept_append kept_append_iff)

/-- A text that is not quoted although a comment starts in one of its lines. -/
def Exposed (asKey : Bool) (s : String) : Prop :=
  (style asKey s = .plain ∨ style asKey s = .literal) ∧
    ∃ line ∈ Text.pieces s.toList, (LineComment.start? line).isSome

instance (asKey : Bool) (s : String) : Decidable (Exposed asKey s) :=
  inferInstanceAs (Decidable (_ ∧ _))

theorem isPrintable_of_style {asKey : Bool} {s : String} (h : style asKey s ≠ .double) {c : Char}
    (hc : c ∈ s.toList) : isPrintable c = true := by
  refine Decidable.byContradiction fun hnot => h ?_
  have hempty : s.toList.isEmpty = false := by
    rw [List.isEmpty_eq_false_iff]
    exact List.ne_nil_of_mem hc
  have hspecial : s.toList.all isPrintable = false := List.all_eq_false.mpr ⟨c, hc, hnot⟩
  have hplain : (traits s.toList).plainAllowed = false := by simp [traits, hempty, hspecial]
  have hsingle : (traits s.toList).singleAllowed = false := by simp [traits, hempty, hspecial]
  have hblock : (traits s.toList).blockAllowed = false := by simp [traits, hempty, hspecial]
  unfold style
  simp only [hplain, hsingle, hblock, Bool.not_false, Bool.true_or, Bool.and_true]
  generalize (if (asKey && (traits s.toList).multiline) = true then _ else _) = wanted
  cases wanted <;> rfl

theorem return_not_mem_of_style {asKey : Bool} {s : String} (h : style asKey s ≠ .double) :
    '\r' ∉ s.toList := fun hc => absurd (isPrintable_of_style h hc) (by decide)

theorem newline_not_mem_of_style {asKey : Bool} {s : String} (h : style asKey s = .single) :
    '\n' ∉ s.toList := by
  intro hc
  have hnone : ∀ word ∈ truthWords, '\n' ∉ word.toList := by decide
  have hwords : truthWords.contains s = false :=
    Bool.eq_false_iff.mpr fun hmem => hnone s (List.contains_iff_mem.mp hmem) hc
  have hcontains : s.toList.contains '\n' = true := List.contains_iff_mem.mpr hc
  unfold style at h
  simp only [hwords, hcontains, if_true, Bool.false_eq_true, if_false] at h
  by_cases hkey : (asKey && (traits s.toList).multiline) = true
  · simp [hkey] at h
  · simp only [hkey] at h
    by_cases hblock : (!(traits s.toList).blockAllowed || asKey) = true
    · simp [hblock] at h
    · simp [hblock] at h

/-- A text that is written as it is and is not exposed has nothing to lose. -/
theorem kept_of_not_exposed {asKey : Bool} {s : String} (h : ¬ Exposed asKey s)
    (hstyle : style asKey s = .plain ∨ style asKey s = .literal) : Kept .start s.toList := by
  have hdouble : style asKey s ≠ .double := by rcases hstyle with hstyle | hstyle <;> simp [hstyle]
  refine (LineComment.kept_start_iff _).mpr ⟨return_not_mem_of_style hdouble, fun line hline => ?_⟩
  have hnone := fun hsome => h ⟨hstyle, line, hline, hsome⟩
  simpa using hnone

/-! ### Quoted scalars -/

/-- In a string no comment starts. -/
theorem kept_cons_quoted {p : Point} {q c : Char} {escaped : Bool}
    (hp : p.inside = .quoted q escaped) (cs : List Char) :
    Kept p (c :: cs) ↔ c ≠ '\r' ∧ Kept (p.next c) cs := by
  have hopen : ¬ p.Open := fun h => by simp [Point.Open, hp] at h
  simp [Kept, hopen]

/-- The characters that neither end a string nor escape what follows, nor break its line. -/
def IsSteady (q c : Char) : Prop := c ≠ q ∧ c ≠ '\n' ∧ c ≠ '\r' ∧ (q = '"' → c ≠ '\\')

theorem next_quoted {p : Point} {q c : Char} (hp : p.inside = .quoted q false)
    (hc : IsSteady q c) : (p.next c).inside = .quoted q false := by
  obtain ⟨hq, hnewline, _, hescape⟩ := hc
  rw [Point.next_of_ne hnewline, hp]
  by_cases h : q = '"'
  · simp [Inside.next, h ▸ hq, hescape h, h]
  · simp [Inside.next, h, hq]

/-- Steady characters are kept in a string, and what follows is still in it. -/
theorem kept_steady_append {p : Point} {q : Char} {xs rest : List Char}
    (hp : p.inside = .quoted q false) (hxs : ∀ c ∈ xs, IsSteady q c)
    (hrest : ∀ p' : Point, p'.inside = .quoted q false → Kept p' rest) : Kept p (xs ++ rest) := by
  induction xs generalizing p with
  | nil => exact hrest p hp
  | cons c xs ih =>
    obtain ⟨hc, hxs⟩ := List.forall_mem_cons.mp hxs
    exact (kept_cons_quoted hp _).mpr ⟨hc.2.2.1, ih (next_quoted hp hc) hxs⟩

theorem isSteady_of_mem_spaces {q : Char} (hq : q = '\'' ∨ q = '"') {n : Nat} :
    ∀ c ∈ spaces n, IsSteady q c := by
  intro c hc
  obtain rfl := List.eq_of_mem_replicate hc
  rcases hq with rfl | rfl <;> exact ⟨by decide, by decide, by decide, by decide⟩

theorem keptBreak_of_isPrintable {c : Char} (hbreak : Scan.isBreak c = true)
    (hprintable : isPrintable c = true) : Scan.keptBreak c = c := by
  simp only [Scan.isBreak, Bool.or_eq_true, beq_iff_eq] at hbreak
  rcases hbreak with (((rfl | rfl) | rfl) | rfl) | rfl
  · rfl
  · exact absurd hprintable (by decide)
  · exact absurd hprintable (by decide)
  · rfl
  · rfl

/-- A quote that is written twice ends the string and opens the next one at once. -/
theorem kept_quoteTwice {p : Point} {rest : List Char} (hp : p.inside = .quoted '\'' false)
    (hrest : ∀ p' : Point, p'.inside = .quoted '\'' false → Kept p' rest) :
    Kept p ('\'' :: '\'' :: rest) := by
  -- Between the two quotes the point is outside the string, but no slash stands there.
  have hclosed : (p.next '\'').inside = .plain := by
    rw [Point.next_of_ne (by decide), hp]
    rfl
  have hopened : ((p.next '\'').next '\'').inside = .quoted '\'' false := by
    rw [Point.next_of_ne (by decide), hclosed]
    rfl
  rw [kept_cons (by decide), kept_cons (by decide)]
  exact ⟨by decide, by decide, hrest _ hopened⟩

/-- The text between single quotes stays in the string. -/
theorem kept_singleBody {p : Point} {indent : Nat} {breaks : Bool} {cs rest : List Char}
    (hp : p.inside = .quoted '\'' false) (hprintable : ∀ c ∈ cs, isPrintable c = true)
    (hnewline : '\n' ∉ cs) (hrest : ∀ p' : Point, p'.inside = .quoted '\'' false → Kept p' rest) :
    Kept p (singleBody indent breaks cs ++ rest) := by
  have hspaces (breaks : Bool) :
      ∀ c ∈ (if breaks then spaces indent else []), IsSteady '\'' c := by
    intro c hc
    split at hc
    · exact isSteady_of_mem_spaces (.inl rfl) c hc
    · cases hc
  induction cs generalizing p breaks with
  | nil => exact kept_steady_append hp (hspaces breaks) hrest
  | cons c cs ih =>
    obtain ⟨hc, hprintable⟩ := List.forall_mem_cons.mp hprintable
    rw [List.mem_cons, not_or] at hnewline
    have hreturn : c ≠ '\r' := fun h => absurd (h ▸ hc) (by decide)
    have ih {p : Point} (hp : p.inside = .quoted '\'' false) (breaks : Bool) :
        Kept p (singleBody indent breaks cs ++ rest) := ih hp hprintable hnewline.2
    rw [singleBody]
    split
    · next hbreak =>
      have hc' : IsSteady '\'' c := by
        refine ⟨?_, Ne.symm hnewline.1, hreturn, fun h => absurd h (by decide)⟩
        rintro rfl
        exact absurd hbreak (by decide)
      rw [keptBreak_of_isPrintable hbreak hc, if_neg (by simpa using fun _ => Ne.symm hnewline.1),
        List.nil_append, List.cons_append, kept_cons_quoted hp]
      exact ⟨hreturn, ih (next_quoted hp hc') true⟩
    · rw [List.append_assoc, List.append_assoc]
      refine kept_steady_append hp (hspaces breaks) fun p' hp' => ?_
      split
      · exact kept_quoteTwice hp' fun p' hp' => ih hp' false
      · next hquote =>
        have hc' : IsSteady '\'' c :=
          ⟨by simpa using hquote, Ne.symm hnewline.1, hreturn, fun h => absurd h (by decide)⟩
        exact kept_steady_append hp' (by simpa using hc') fun p' hp' => ih hp' false

theorem exists_digitChar_of_mem_toDigits {n : Nat} {c : Char} (hc : c ∈ Nat.toDigits 16 n) :
    ∃ d < 16, c = Nat.digitChar d := by
  induction n using Nat.strongRecOn with
  | ind n ih =>
    by_cases hn : n < 16
    · rw [Nat.toDigits_of_lt_base hn] at hc
      exact ⟨n, hn, List.mem_singleton.mp hc⟩
    · rw [Nat.toDigits_of_base_le (by decide) (Nat.le_of_not_lt hn)] at hc
      rcases List.mem_append.mp hc with hc | hc
      · exact ih (n / 16) (Nat.div_lt_self (by omega) (by decide)) hc
      · exact ⟨n % 16, Nat.mod_lt _ (by decide), List.mem_singleton.mp hc⟩

instance (q c : Char) : Decidable (IsSteady q c) := inferInstanceAs (Decidable (_ ∧ _))

theorem isSteady_of_mem_hexUpper {width n : Nat} : ∀ c ∈ hexUpper width n, IsSteady '"' c := by
  have hdigits : ∀ d < 16, IsSteady '"' (Nat.digitChar d).toUpper := by decide
  intro c hc
  rcases List.mem_append.mp hc with hc | hc
  · obtain rfl := List.eq_of_mem_replicate hc
    decide
  · obtain ⟨e, he, rfl⟩ := List.mem_map.mp hc
    obtain ⟨d, hd, rfl⟩ := exists_digitChar_of_mem_toDigits he
    exact hdigits d hd

/-- A character between double quotes is either written as it is, or with a backslash in front of
characters that stay in the string. -/
theorem escapeDouble_cases (c : Char) :
    (escapeDouble c = [c] ∧ IsSteady '"' c) ∨
      ∃ d ds, escapeDouble c = '\\' :: d :: ds ∧ d ≠ '\n' ∧ d ≠ '\r' ∧ ∀ e ∈ ds, IsSteady '"' e := by
  unfold escapeDouble
  split
  · next h =>
    simp only [Bool.and_eq_true, bne_iff_ne, Bool.not_eq_true'] at h
    obtain ⟨⟨⟨hprintable, hbreak⟩, hquote⟩, hslash⟩ := h
    refine .inl ⟨rfl, hquote, ?_, ?_, fun _ => hslash⟩
    · rintro rfl
      exact absurd hbreak (by decide)
    · rintro rfl
      exact absurd hbreak (by decide)
  · right
    split
    case h_16 =>
      dsimp only
      split
      · exact ⟨'x', _, rfl, by decide, by decide, isSteady_of_mem_hexUpper⟩
      · split
        · exact ⟨'u', _, rfl, by decide, by decide, isSteady_of_mem_hexUpper⟩
        · exact ⟨'U', _, rfl, by decide, by decide, isSteady_of_mem_hexUpper⟩
    all_goals exact ⟨_, [], rfl, by decide, by decide, by simp⟩

theorem kept_double {p : Point} {cs rest : List Char} (hp : p.inside = .quoted '"' false)
    (hrest : ∀ p' : Point, p'.inside = .quoted '"' false → Kept p' rest) :
    Kept p (cs.flatMap escapeDouble ++ rest) := by
  induction cs generalizing p with
  | nil => exact hrest p hp
  | cons c cs ih =>
    rw [List.flatMap_cons, List.append_assoc]
    rcases escapeDouble_cases c with ⟨hc, hsteady⟩ | ⟨d, ds, hc, hnewline, hreturn, hds⟩
    · rw [hc]
      exact kept_steady_append hp (by simpa using hsteady) fun p' hp' => ih hp'
    · -- The backslash protects `d`, whatever it is.
      have hslash : (p.next '\\').inside = .quoted '"' true := by
        rw [Point.next_of_ne (by decide), hp]
        rfl
      have hd : ((p.next '\\').next d).inside = .quoted '"' false := by
        rw [Point.next_of_ne hnewline, hslash]
        rfl
      rw [hc, List.cons_append, List.cons_append, kept_cons_quoted hp, kept_cons_quoted hslash]
      exact ⟨by decide, hreturn, kept_steady_append hd hds fun p' hp' => ih hp'⟩

/-! ### Literal blocks -/

/-- No string ends with a space. -/
def NoSpaceQuote (inside : Inside) : Prop := ∀ escaped, inside ≠ .quoted ' ' escaped

theorem NoSpaceQuote.next {inside : Inside} (h : NoSpaceQuote inside) (c : Char) :
    NoSpaceQuote (inside.next c) := by
  intro escaped
  cases inside with
  | plain =>
    simp only [Inside.next]
    split
    · next hquote =>
      rintro ⟨⟩
      simp at hquote
    · simp
  | quoted q e =>
    have hq : q ≠ ' ' := fun hq => h e (by rw [hq])
    simp only [Inside.next]
    split
    · simp [hq]
    · split
      · simp [hq]
      · split
        · simp
        · simp [hq]

theorem NoSpaceQuote.next_point {p : Point} (h : NoSpaceQuote p.inside) (c : Char) :
    NoSpaceQuote (p.next c).inside := by
  by_cases hc : c = '\n'
  · simp [hc, Point.start, NoSpaceQuote]
  · rw [Point.next_of_ne hc]
    exact h.next c

theorem ne_of_isBreak {c d : Char} (hc : Scan.isBreak c = true) (hd : Scan.isBreak d = false) :
    c ≠ d := by
  rintro rfl
  rw [hc] at hd
  cases hd

/-- Behind a line end the spaces of the indentation change nothing. -/
theorem settled_next_break {p : Point} {c : Char} (hp : NoSpaceQuote p.inside)
    (hc : Scan.isBreak c = true) :
    (p.next c).before.all LineComment.separates = true ∧
      (p.next c).inside.next ' ' = (p.next c).inside := by
  by_cases hnewline : c = '\n'
  · simp [hnewline, Point.start, Inside.next]
  rw [Point.next_of_ne hnewline]
  constructor
  · simp only [Scan.isBreak, Bool.or_eq_true, beq_iff_eq] at hc
    have hseparates : LineComment.separates c = true := by
      rcases hc with (((rfl | rfl) | rfl) | rfl) | rfl <;> decide
    simpa using hseparates
  · have hquotes : c ≠ '"' ∧ c ≠ '\'' ∧ c ≠ '\\' :=
      ⟨ne_of_isBreak hc (by decide), ne_of_isBreak hc (by decide), ne_of_isBreak hc (by decide)⟩
    cases hinside : p.inside with
    | plain => simp [Inside.next, hquotes]
    | quoted q e =>
      have hq : ' ' ≠ q := fun hq => hp e (by rw [hinside, hq])
      by_cases hcq : c = q
      · simp [Inside.next, ← hcq, hquotes]
      · simp [Inside.next, hquotes, hcq, hq]

theorem head?_literalBody {indent : Nat} {cs : List Char}
    (h : (literalBody indent false cs).head? = some '/') : cs.head? = some '/' := by
  cases cs with
  | nil => cases h
  | cons c cs =>
    rw [literalBody] at h
    split at h
    · next hbreak =>
      have hkept : Scan.keptBreak c = '/' := by simpa using h
      rw [Scan.keptBreak] at hkept
      split at hkept
      · exact absurd hkept (ne_of_isBreak hbreak (by decide))
      · cases hkept
    · simpa using h

theorem kept_literalBody {p : Point} {indent : Nat} {breaks : Bool} {cs : List Char}
    (hprintable : ∀ c ∈ cs, isPrintable c = true) (hp : NoSpaceQuote p.inside)
    (hbreaks : breaks = true → p.before.all LineComment.separates = true ∧
      p.inside.next ' ' = p.inside) (h : Kept p cs) : Kept p (literalBody indent breaks cs) := by
  induction cs generalizing p breaks with
  | nil => trivial
  | cons c cs ih =>
    obtain ⟨hc, hprintable⟩ := List.forall_mem_cons.mp hprintable
    obtain ⟨hreturn, hopen, hrest⟩ := h
    rw [literalBody]
    split
    · next hbreak =>
      rw [keptBreak_of_isPrintable hbreak hc]
      exact (kept_cons (ne_of_isBreak hbreak (by decide)) _ _).mpr
        ⟨hreturn, ih hprintable (hp.next_point c) (fun _ => settled_next_break hp hbreak) hrest⟩
    · have hline : Kept p (c :: literalBody indent false cs) :=
        ⟨hreturn, fun ⟨hp, hslash, hhead⟩ => hopen ⟨hp, hslash, head?_literalBody hhead⟩,
          ih hprintable (hp.next_point c) (fun h => by cases h) hrest⟩
      split
      · next hbreaks' =>
        obtain ⟨hbefore, hinside⟩ := hbreaks hbreaks'
        exact (LineComment.kept_spaces_append hbefore hinside indent _).mpr hline
      · exact hline

theorem mem_literalHints {c : Char} {cs : List Char} (hc : c ∈ literalHints cs) :
    c = '2' ∨ c = '-' ∨ c = '+' := by
  rcases List.mem_append.mp hc with hc | hc
  · split at hc
    · exact .inl (List.mem_singleton.mp hc)
    · cases hc
  · cases hrev : cs.reverse with
    | nil =>
      rw [hrev] at hc
      exact .inr (.inl (List.mem_singleton.mp hc))
    | cons last rest =>
      rw [hrev] at hc
      dsimp only at hc
      split at hc
      · exact .inr (.inl (List.mem_singleton.mp hc))
      · cases rest with
        | nil => exact .inr (.inr (List.mem_singleton.mp hc))
        | cons d rest =>
          dsimp only at hc
          split at hc
          · exact .inr (.inr (List.mem_singleton.mp hc))
          · cases hc

theorem kept_literal {p : Point} {indent : Nat} {cs : List Char}
    (hprintable : ∀ c ∈ cs, isPrintable c = true) (h : Kept .start cs) :
    Kept p ('|' :: literalHints cs ++ '\n' :: literalBody indent true cs) := by
  have hslash : '/' ∉ '|' :: literalHints cs := by
    simpa using fun hc => absurd (mem_literalHints hc) (by decide)
  have hreturn : '\r' ∉ '|' :: literalHints cs := by
    simpa using fun hc => absurd (mem_literalHints hc) (by decide)
  refine kept_append (LineComment.kept_of_no_slash hslash hreturn p) ?_ (.inr (by simp))
  rw [LineComment.kept_newline]
  exact kept_literalBody hprintable (by simp [NoSpaceQuote, Point.start])
    (fun _ => ⟨rfl, rfl⟩) h

/-! ### Scalars and trees -/

/-- A scalar is kept behind a space unless it is exposed. -/
theorem kept_scalar {p : Point} {indent : Nat} {asKey : Bool} {s : String} (hp : p.Open)
    (h : ¬ Exposed asKey s) : Kept p (scalar indent asKey s) := by
  have hquote {q : Char} (hq : q = '\'' ∨ q = '"') : (p.next q).inside = .quoted q false := by
    rcases hq with rfl | rfl <;> rw [Point.next_of_ne (by decide), hp.1] <;> rfl
  rw [scalar]
  cases hstyle : style asKey s with
  | plain => exact (hp.kept_iff _).mpr (kept_of_not_exposed h (.inl hstyle))
  | single =>
    have hdouble : style asKey s ≠ .double := by simp [hstyle]
    dsimp only
    rw [List.cons_append, kept_cons (by decide)]
    refine ⟨by decide, kept_singleBody (hquote (.inl rfl))
      (fun _ => isPrintable_of_style hdouble) (newline_not_mem_of_style hstyle) fun p' _ => ?_⟩
    exact LineComment.kept_of_no_slash (by decide) (by decide) p'
  | double =>
    dsimp only
    rw [List.cons_append, kept_cons (by decide)]
    refine ⟨by decide, kept_double (hquote (.inr rfl)) fun p' _ => ?_⟩
    exact LineComment.kept_of_no_slash (by decide) (by decide) p'
  | literal =>
    have hdouble : style asKey s ≠ .double := by simp [hstyle]
    have hkept : Kept p ('|' :: literalHints s.toList ++ '\n' :: literalBody indent true s.toList) :=
      kept_literal (fun _ => isPrintable_of_style hdouble) (kept_of_not_exposed h (.inr hstyle))
    dsimp only
    split
    · rw [← List.dropLast_append_of_ne_nil (by simp)]
      exact LineComment.kept_dropLast hkept
    · exact hkept

/-- Whole lines that are kept wherever a comment may start. -/
def KeptWhereOpen (text : List Char) : Prop := ∀ p : Point, p.Open → KeptLines p text

/-- A tree whose lines are kept behind the colon of a key. -/
def KeptBehind (inside : Inside) (value : Tree) : Prop :=
  ∀ column listColumn before, KeptLines ⟨inside, before⟩ (tree column listColumn false value)

/-- A tree whose lines are kept behind the mark of an item. -/
def KeptAsItem (item : Tree) : Prop :=
  ∀ column, KeptWhereOpen ('-' :: tree column column true item)

/-- An entry whose lines are kept. -/
def EntryKept (entry : String × Tree) : Prop := ∀ column, KeptWhereOpen (entryText column entry)

theorem KeptWhereOpen.indent {text : List Char} (h : KeptWhereOpen text) (n : Nat) :
    KeptWhereOpen (spaces n ++ text) := by
  intro p hp
  have hinside : p.inside.next ' ' = p.inside := by rw [hp.1]; rfl
  have hafter (n : Nat) : (p.after (spaces n)).Open := by
    induction n generalizing p with
    | zero => exact hp
    | succ n ih =>
      exact ih (p.next ' ') (Point.open_next_space hp.1) (by rw [(Point.open_next_space hp.1).1]; rfl)
  refine ⟨(LineComment.kept_spaces_append hp.2 hinside n text).mpr (h p hp).kept, ?_⟩
  rw [Point.after_append]
  exact (h _ (hafter n)).ends

theorem KeptWhereOpen.append {xs ys : List Char} (hxs : KeptWhereOpen xs)
    (hys : KeptLines .start ys) : KeptWhereOpen (xs ++ ys) := fun p hp => (hxs p hp).append hys

/-- Behind the mark of an item the line goes on outside strings. -/
theorem KeptWhereOpen.mark {text : List Char} (h : ∀ p : Point, p.inside = .plain → KeptLines p text) :
    KeptWhereOpen ('-' :: text) := by
  intro p hp
  have hinside : (p.next '-').inside = .plain := by
    rw [Point.next_of_ne (by decide), hp.1]
    rfl
  exact ⟨(kept_cons (by decide) _ _).mpr ⟨by decide, (h _ hinside).kept⟩, (h _ hinside).ends⟩

theorem keptLines_text {p : Point} {column listColumn : Nat} {inline : Bool} {s : String}
    (hp : p.inside = .plain) (h : ¬ Exposed false s) :
    KeptLines p (tree column listColumn inline (.text s)) := by
  rw [tree]
  refine ⟨?_, by simp⟩
  rw [List.cons_append, LineComment.kept_space]
  exact kept_append (kept_scalar (Point.open_next_space hp) h) (by simp) (.inr (by simp))

theorem keptAsItem_text {s : String} (h : ¬ Exposed false s) : KeptAsItem (.text s) := fun _ =>
  .mark fun _ hp => keptLines_text hp h

theorem keptLines_items (column : Nat) {all : List Tree} (h : ∀ item ∈ all, KeptAsItem item) :
    KeptLines .start (items column all) := by
  induction all with
  | nil => exact ⟨trivial, rfl⟩
  | cons item rest ih =>
    obtain ⟨hitem, hrest⟩ := List.forall_mem_cons.mp h
    rw [items]
    exact ((hitem (column + 2)).indent column |>.append (ih hrest)) .start Point.open_start

theorem keptAsItem_list {all : List Tree} (h : ∀ item ∈ all, KeptAsItem item) :
    KeptAsItem (.list all) := by
  refine fun column => .mark fun p hp => ?_
  cases all with
  | nil => exact LineComment.keptLines_of_no_slash " []".toList (by decide) (by decide) p
  | cons item rest =>
    obtain ⟨hitem, hrest⟩ := List.forall_mem_cons.mp h
    have hlines := (hitem (column + 2)).append (keptLines_items column hrest) _
      (Point.open_next_space hp)
    rw [tree]
    exact ⟨(LineComment.kept_space p _).mpr hlines.kept, hlines.ends⟩

theorem keptBehind_list {inside : Inside} {all : List Tree} (h : ∀ item ∈ all, KeptAsItem item) :
    KeptBehind inside (.list all) := by
  intro column listColumn before
  cases all with
  | nil => exact LineComment.keptLines_of_no_slash " []".toList (by decide) (by decide) _
  | cons item rest =>
    obtain ⟨hitem, hrest⟩ := List.forall_mem_cons.mp h
    have hlines := ((hitem (listColumn + 2)).indent listColumn).append
      (keptLines_items listColumn hrest) .start Point.open_start
    rw [tree]
    exact hlines.newline _

theorem keptLines_entries (column : Nat) {all : List (String × Tree)}
    (h : ∀ entry ∈ all, EntryKept entry) : KeptLines .start (entries column all) := by
  induction all with
  | nil => exact ⟨trivial, rfl⟩
  | cons entry rest ih =>
    obtain ⟨hentry, hrest⟩ := List.forall_mem_cons.mp h
    rw [entries]
    exact ((hentry column).indent column |>.append (ih hrest)) .start Point.open_start

theorem keptBehind_record {inside : Inside} {all : List (String × Tree)}
    (h : ∀ entry ∈ all, EntryKept entry) : KeptBehind inside (.record all) := by
  intro column listColumn before
  cases all with
  | nil => exact LineComment.keptLines_of_no_slash " \x7b\x7d".toList (by decide) (by decide) _
  | cons entry rest =>
    obtain ⟨hentry, hrest⟩ := List.forall_mem_cons.mp h
    have hlines := ((hentry column).indent column).append
      (keptLines_entries column hrest) .start Point.open_start
    rw [tree]
    exact hlines.newline _

/-- A key that is written as it is and opens no string. -/
def PlainWord (key : String) : Prop :=
  isSimpleKey key = true ∧ style true key = .plain ∧ '"' ∉ key.toList ∧ '\'' ∉ key.toList

instance (key : String) : Decidable (PlainWord key) := inferInstanceAs (Decidable (_ ∧ _ ∧ _ ∧ _))

/-- What stands in front of the colon of an entry is kept if the key is not exposed. -/
theorem exists_entryText (column : Nat) {key : String} (value : Tree) {p : Point} (hp : p.Open)
    (hkey : ¬ Exposed (isSimpleKey key) key) :
    ∃ front, entryText column (key, value) =
        front ++ [':'] ++ tree (column + 2) column false value ∧ Kept p front ∧
      (PlainWord key → (p.after front).inside = .plain) := by
  rw [entryText]
  by_cases hsimple : isSimpleKey key = true
  · rw [if_pos hsimple]
    rw [hsimple] at hkey
    refine ⟨_, rfl, kept_scalar hp hkey, fun ⟨_, hstyle, hdouble, hsingle⟩ => ?_⟩
    rw [scalar, hstyle]
    exact Point.after_of_no_quotes hp.1 hdouble hsingle
  · rw [if_neg hsimple]
    rw [Bool.not_eq_true _ |>.mp hsimple] at hkey
    have hmark : (p.next '?').inside = .plain := by
      rw [Point.next_of_ne (by decide), hp.1]
      rfl
    have hspaces : ∀ c ∈ spaces column, c = ' ' := fun c => List.eq_of_mem_replicate
    refine ⟨'?' :: ' ' :: scalar (column + 2) false key ++ '\n' :: spaces column, rfl,
      kept_append ?_ ?_ (.inr (by simp)), fun hword => absurd hword.1 hsimple⟩
    · rw [kept_cons (by decide), LineComment.kept_space]
      exact ⟨by decide, kept_scalar (Point.open_next_space hmark) hkey⟩
    · rw [LineComment.kept_newline]
      exact LineComment.kept_of_no_slash (fun hc => absurd (hspaces _ hc) (by decide))
        (fun hc => absurd (hspaces _ hc) (by decide)) _

/-- An entry is kept if its key is not exposed and its value is kept there where the key leaves its
line. -/
theorem entryKept {key : String} {value : Tree} (hkey : ¬ Exposed (isSimpleKey key) key)
    (hvalue : ∀ inside, (PlainWord key → inside = .plain) → KeptBehind inside value) :
    EntryKept (key, value) := by
  intro column p hp
  obtain ⟨front, htext, hfront, hword⟩ := exists_entryText column value hp hkey
  have hcolon : Kept (p.after front) [':'] :=
    LineComment.kept_of_no_slash (by decide) (by decide) _
  have hinside : PlainWord key → (p.after (front ++ [':'])).inside = .plain := fun h => by
    rw [Point.after_append]
    exact Point.after_of_no_quotes (hword h) (by simp) (by simp)
  have hlines := hvalue _ hinside (column + 2) column (p.after (front ++ [':'])).before
  rw [htext]
  exact ⟨kept_append (kept_append hfront hcolon (.inr (by simp))) hlines.kept (.inl (by simp)),
    by rw [Point.after_append]; exact hlines.ends⟩

end Doctest.Yaml.Writer
