import Doctest.Proofs.TranscriptBlocks
import Doctest.Text.Delimited

/-!
# Exceptions are quoted faithfully

The expectation of an exception holds its name and its message as literals. A literal is written by putting
a backslash in front of every backslash and then in front of every quote. It is read in one pass from left to
right, where a backslash takes the character behind it out of its role.

* `literal_eq_replaceChar`: the two replacements, one after the other.
* `EscapesNext`: which characters are escaped, by the backslashes in front of them alone.
* `not_escapesNext_iff`: the only quotes of a literal that are not escaped are its two ends.
* `readLiteral?_eq_some_iff`: a literal is read as the text that was written, and no other literal is.
* `Transcript.exceptions_quoted`: what the code for an uncaught exception says.
-/

namespace Doctest

open Text (escaped replaceChar splitFirstWord?)

namespace Interaction

variable {text before after front cs rest : List Char} {c : Char}

/-! ## Writing a literal -/

theorem literal_eq_escaped (text : List Char) : literal text = '"' :: escaped '"' text ++ ['"'] := by
  unfold literal
  congr 2
  induction text with
  | nil => rfl
  | cons c text ih =>
    rw [List.flatMap_cons, escaped, ih]
    by_cases hquote : c = '"'
    · simp [hquote]
    · by_cases hslash : c = '\\'
      · simp [hslash]
      · simp [hquote, hslash]

theorem replaceChar_cons (old : Char) (new : List Char) (c : Char) (cs : List Char) :
    replaceChar old new (c :: cs) = (if c = old then new else [c]) ++ replaceChar old new cs :=
  List.flatMap_cons

/-- Backslashes are doubled before quotes get theirs, so none of these is doubled. -/
theorem literal_eq_replaceChar (text : List Char) :
    literal text =
      '"' :: replaceChar '"' ['\\', '"'] (replaceChar '\\' ['\\', '\\'] text) ++ ['"'] := by
  rw [literal_eq_escaped]
  congr 2
  induction text with
  | nil => rfl
  | cons c text ih =>
    rw [escaped, ih, replaceChar_cons '\\']
    by_cases hslash : c = '\\'
    · subst hslash
      rfl
    · by_cases hquote : c = '"'
      · subst hquote
        rfl
      · simp [hslash, hquote, replaceChar_cons]

/-! ## Escaped characters -/

/-- The character behind this text is escaped: the backslashes right in front of it are odd in number, so
the last of them is not escaped itself. -/
def EscapesNext (before : List Char) : Prop :=
  (before.reverse.takeWhile (· = '\\')).length % 2 = 1

theorem not_escapesNext_nil : ¬ EscapesNext [] := nofun

theorem escapesNext_concat :
    EscapesNext (before ++ [c]) ↔ c = '\\' ∧ ¬ EscapesNext before := by
  unfold EscapesNext
  rw [List.reverse_append, List.reverse_singleton, List.singleton_append]
  by_cases hc : c = '\\'
  · rw [List.takeWhile_cons_of_pos (by simpa using hc), List.length_cons]
    simp only [hc, true_and]
    omega
  · rw [List.takeWhile_cons_of_neg (by simpa using hc)]
    simp [hc]

theorem not_escapesNext_pair (hfront : ¬ EscapesNext front) (c : Char) :
    ¬ EscapesNext (front ++ ['\\', c]) := by
  have hslash : EscapesNext (front ++ ['\\']) := escapesNext_concat.mpr ⟨rfl, hfront⟩
  rw [← List.singleton_append, ← List.append_assoc]
  exact fun h => (escapesNext_concat.mp h).2 hslash

theorem not_escapesNext_plain (hc : c ≠ '\\') (front : List Char) :
    ¬ EscapesNext (front ++ [c]) :=
  fun h => hc (escapesNext_concat.mp h).1

theorem ne_slash_of_plain (hc : ¬ (c = '"' || c = '\\') = true) : c ≠ '\\' := by
  simp only [Bool.or_eq_true, decide_eq_true_eq, not_or] at hc
  exact hc.2

/-- What is written of a text leaves no backslash behind that escapes something. -/
theorem not_escapesNext_escaped (hfront : ¬ EscapesNext front) (text : List Char) :
    ¬ EscapesNext (front ++ escaped '"' text) := by
  induction text generalizing front with
  | nil =>
    rw [escaped, List.append_nil]
    exact hfront
  | cons c text ih =>
    rw [escaped]
    split
    · have hrest := ih (not_escapesNext_pair hfront c)
      rwa [List.append_assoc] at hrest
    · next hc =>
      have hrest := ih (not_escapesNext_plain (ne_slash_of_plain hc) front)
      rwa [List.append_assoc] at hrest

/-- Every quote of a text is written with a backslash that escapes it. -/
theorem escapesNext_of_escaped (hfront : ¬ EscapesNext front)
    (h : escaped '"' text = before ++ '"' :: after) : EscapesNext (front ++ before) := by
  induction text generalizing front before with
  | nil => simp [escaped] at h
  | cons c text ih =>
    rw [escaped] at h
    split at h
    · cases before with
      | nil => simp at h
      | cons d before =>
        obtain ⟨rfl, hescaped⟩ := List.cons.inj h
        cases before with
        | nil => exact escapesNext_concat.mpr ⟨rfl, hfront⟩
        | cons e before =>
          obtain ⟨rfl, htail⟩ := List.cons.inj hescaped
          have hrest := ih (not_escapesNext_pair hfront c) htail
          rwa [List.append_assoc] at hrest
    · next hc =>
      cases before with
      | nil =>
        obtain ⟨rfl, -⟩ := List.cons.inj h
        simp at hc
      | cons d before =>
        obtain ⟨rfl, htail⟩ := List.cons.inj h
        have hrest := ih (not_escapesNext_plain (ne_slash_of_plain hc) front) htail
        rwa [List.append_assoc] at hrest

/-- **The ends of a literal.** Its first and last quote are the only ones that are not escaped. -/
theorem not_escapesNext_iff (h : literal text = before ++ '"' :: after) :
    ¬ EscapesNext before ↔ before = [] ∨ after = [] := by
  have hopening : ¬ EscapesNext ([] ++ ['"']) := not_escapesNext_plain (by decide) []
  rw [literal_eq_escaped] at h
  constructor
  · intro hbefore
    cases before with
    | nil => exact .inl rfl
    | cons d before =>
      rcases List.eq_nil_or_concat after with hafter | ⟨after, last, rfl⟩
      · exact .inr hafter
      · -- A quote further inside is one of the text.
        obtain ⟨rfl, hinside⟩ := List.cons.inj h
        have hends : escaped '"' text ++ ['"'] = before ++ '"' :: after ++ [last] := by
          simpa using hinside
        obtain ⟨hbody, -⟩ := List.append_inj' hends rfl
        exact absurd (escapesNext_of_escaped hopening hbody) hbefore
  · rintro (rfl | rfl)
    · exact not_escapesNext_nil
    · obtain ⟨rfl, -⟩ := List.append_inj' h rfl
      exact not_escapesNext_escaped hopening text

/-! ## Reading a literal -/

/-- The text up to the first quote that is not escaped, and what follows this quote. Nothing but a quote or a
backslash can be escaped. -/
def readInside? : List Char → Option (List Char × List Char)
  | [] => none
  | c :: cs =>
    if c = '"' then some ([], cs)
    else if c = '\\' then
      match cs with
      | [] => none
      | d :: ds =>
        if d = '"' ∨ d = '\\' then (readInside? ds).map fun (text, rest) => (d :: text, rest)
        else none
    else (readInside? cs).map fun (text, rest) => (c :: text, rest)

/-- The text of the literal that stands at the start, and what follows the literal. -/
def readLiteral? : List Char → Option (List Char × List Char)
  | [] => none
  | c :: cs => if c = '"' then readInside? cs else none

theorem readInside?_escape (hc : c = '"' ∨ c = '\\') (cs : List Char) :
    readInside? ('\\' :: c :: cs) =
      (readInside? cs).map fun (text, rest) => (c :: text, rest) := by
  rw [readInside?.eq_def]
  simp [hc]

theorem readInside?_plain (hquote : c ≠ '"') (hslash : c ≠ '\\') (cs : List Char) :
    readInside? (c :: cs) = (readInside? cs).map fun (text, rest) => (c :: text, rest) := by
  rw [readInside?.eq_def]
  simp [hquote, hslash]

theorem readInside?_escaped (text rest : List Char) :
    readInside? (escaped '"' text ++ '"' :: rest) = some (text, rest) := by
  induction text with
  | nil =>
    rw [escaped, List.nil_append, readInside?.eq_def]
    simp
  | cons c text ih =>
    rw [escaped]
    split
    · next hc =>
      rw [List.cons_append, List.cons_append, readInside?_escape (by simpa using hc), ih]
      rfl
    · next hc =>
      obtain ⟨hquote, hslash⟩ := not_or.mp (by simpa using hc)
      rw [List.cons_append, readInside?_plain hquote hslash, ih]
      rfl

theorem eq_escaped_of_readInside? (h : readInside? cs = some (text, rest)) :
    cs = escaped '"' text ++ '"' :: rest := by
  fun_induction readInside? cs generalizing text with
  | case1 => cases h
  | case2 cs =>
    cases h
    rfl
  | case3 => cases h
  | case4 d ds hd _ ih =>
    obtain ⟨_, hread, ⟨⟩⟩ := Option.map_eq_some_iff.mp h
    have hescaped : (d = '"' || d = '\\') = true := by simpa using hd
    rw [ih hread, escaped, if_pos hescaped]
    rfl
  | case5 => cases h
  | case6 c cs hquote hslash ih =>
    obtain ⟨_, hread, ⟨⟩⟩ := Option.map_eq_some_iff.mp h
    have hplain : ¬ (c = '"' || c = '\\') = true := by simp [hquote, hslash]
    rw [ih hread, escaped, if_neg hplain]
    rfl

/-- **Literals are read as they are written.** Every text has one literal, whatever follows it. -/
theorem readLiteral?_eq_some_iff :
    readLiteral? cs = some (text, rest) ↔ cs = literal text ++ rest := by
  rw [literal_eq_escaped, List.append_assoc, List.singleton_append]
  constructor
  · intro h
    cases cs with
    | nil => cases h
    | cons c cs =>
      rw [readLiteral?] at h
      split at h
      · next hc => rw [hc, eq_escaped_of_readInside? h, List.cons_append]
      · cases h
  · rintro rfl
    exact readInside?_escaped text rest

theorem literal_injective : Function.Injective literal := by
  intro text text' h
  have hread : readLiteral? (literal text) = some (text, []) :=
    readLiteral?_eq_some_iff.mpr (List.append_nil _).symm
  have hread' : readLiteral? (literal text) = some (text', []) :=
    readLiteral?_eq_some_iff.mpr (h.trans (List.append_nil _).symm)
  exact congrArg Prod.fst (Option.some.inj (hread.symm.trans hread'))

/-- A literal has the characters of its text besides quotes and backslashes. -/
theorem mem_literal_iff (hquote : c ≠ '"') (hslash : c ≠ '\\') :
    c ∈ literal text ↔ c ∈ text := by
  unfold literal
  simp only [List.cons_append, List.mem_cons, List.mem_append, hquote, List.not_mem_nil, or_false,
    false_or, List.mem_flatMap]
  constructor
  · rintro ⟨d, hd, hc⟩
    split at hc
    · simp only [List.mem_cons, hslash, List.not_mem_nil, or_false, false_or] at hc
      exact hc ▸ hd
    · exact List.mem_singleton.mp hc ▸ hd
  · intro hc
    exact ⟨c, hc, by simp [hquote, hslash]⟩

/-! ## The code for an exception -/

theorem splitFirstWord?_append {word : List Char} (hbefore : c ∉ before) (after : List Char) :
    splitFirstWord? (c :: word) (before ++ (c :: word ++ after)) = some (before, after) := by
  induction before with
  | nil => simp [splitFirstWord?]
  | cons d before ih =>
    obtain ⟨hc, hbefore⟩ := not_or.mp (mt List.mem_cons.mpr hbefore)
    have hword : (c :: word).isPrefixOf (d :: (before ++ (c :: word ++ after))) = false := by
      simp [List.isPrefixOf, hc]
    rw [List.cons_append, splitFirstWord?, hword, if_neg Bool.false_ne_true, ih hbefore]
    rfl

theorem colon_not_mem_of_isIdentifier {name : List Char} (h : isIdentifier name = true) :
    ':' ∉ name := by
  unfold isIdentifier at h
  obtain ⟨-, hall⟩ := Bool.and_eq_true_iff.mp h
  intro hmem
  exact absurd (List.all_eq_true.mp hall ':' hmem) (by decide)

/-- The line that says which exception is expected. -/
def expectationLine (name message : List Char) : String :=
  String.ofList ("  \x7bname: ".toList ++ literal name ++ ", message: ".toList ++ literal message ++
    ['}'])

theorem exceptionEnd_of_isIdentifier {name : List Char} (hname : isIdentifier name = true)
    (message : List Char) :
    exceptionEnd (name ++ ": ".toList ++ message) = ["  \x7d,", expectationLine name message] := by
  have hsplit : splitFirstWord? ": ".toList (name ++ ": ".toList ++ message) = some (name, message) := by
    rw [List.append_assoc]
    exact splitFirstWord?_append (colon_not_mem_of_isIdentifier hname) message
  unfold exceptionEnd
  simp only [hsplit, hname, if_true]
  rfl

end Interaction

namespace Transcript

open Interaction

/-- What a reader finds in the line that says which exception is expected: the name and the message, each as
a literal with fixed text around it. -/
def ExpectsException (line name message : String) : Prop :=
  ∃ named told, line.toList = "  \x7bname: ".toList ++ named ∧
    readLiteral? named = some (name.toList, ", message: ".toList ++ told) ∧
    readLiteral? told = some (message.toList, ['}'])

theorem expectsException (name message : String) :
    ExpectsException (expectationLine name.toList message.toList) name message := by
  refine ⟨literal name.toList ++ (", message: ".toList ++ (literal message.toList ++ ['}'])),
    literal message.toList ++ ['}'], ?_, readLiteral?_eq_some_iff.mpr rfl,
    readLiteral?_eq_some_iff.mpr rfl⟩
  unfold expectationLine
  rw [String.toList_ofList, List.append_assoc, List.append_assoc, List.append_assoc]

theorem Block.code_exception {name message : String} {more : Lines} (b : Block)
    (hname : isIdentifier name.toList = true)
    (houtput : b.output = ("Uncaught " ++ (name ++ ": " ++ message)) :: more) :
    b.code = ["assert.throws(", "  () => \x7b"] ++ b.input.map ("    " ++ ·) ++
      ["  \x7d,", expectationLine name.toList message.toList, ");"] := by
  have hexception : (name ++ ": " ++ message).toList =
      name.toList ++ ": ".toList ++ message.toList := by
    rw [String.toList_append, String.toList_append]
  rw [Block.code, houtput, assertion_thrown, throwing, hexception,
    exceptionEnd_of_isIdentifier hname]
  rw [List.append_assoc]
  rfl

/-- **Exceptions are quoted faithfully.** A literal comes from its text by two replacements. The only quotes in
it that are not escaped are its ends, it breaks no line that the text does not break, and reading it from left
to right gives the text again, so different texts have different literals. Where an input printed
`Uncaught`, an identifier, a colon and a message, its code expects an exception with this name and with all
of this message; an identifier holds no colon, so this colon is the first one. -/
theorem exceptions_quoted :
    (∀ text, literal text =
      '"' :: replaceChar '"' ['\\', '"'] (replaceChar '\\' ['\\', '\\'] text) ++ ['"']) ∧
    (∀ text before after, literal text = before ++ '"' :: after →
      (¬ EscapesNext before ↔ before = [] ∨ after = [])) ∧
    (∀ text c, c ≠ '"' → c ≠ '\\' → (c ∈ literal text ↔ c ∈ text)) ∧
    (∀ cs text rest, readLiteral? cs = some (text, rest) ↔ cs = literal text ++ rest) ∧
    Function.Injective literal ∧
    ∀ (front rest : Lines) (b : Block) (name message : String) (more : Lines),
      isIdentifier name.toList = true →
      b.output = ("Uncaught " ++ (name ++ ": " ++ message)) :: more → StartsAtPrompt rest →
      ∃ line, ExpectsException line name message ∧
        assertions (front ++ (b.lines ++ rest)) = assertions front ++
          (["assert.throws(", "  () => \x7b"] ++ b.input.map ("    " ++ ·) ++ ["  \x7d,", line, ");"]) ++
          assertions rest := by
  refine ⟨literal_eq_replaceChar, fun text before after h => not_escapesNext_iff h,
    fun text c hquote hslash => mem_literal_iff hquote hslash,
    fun cs text rest => readLiteral?_eq_some_iff, literal_injective, ?_⟩
  intro front rest b name message more hname houtput hrest
  refine ⟨_, expectsException name message, ?_⟩
  have hstart : StartsAtPrompt (b.lines ++ rest) := by
    rintro _ ⟨⟩
    exact ⟨b.first, b.isPrompt⟩
  rw [assertions_append front hstart, assertions_block b hrest, b.code_exception hname houtput,
    List.append_assoc (assertions front)]

/-- An input that fails with a message full of quotes, backslashes and colons. -/
def failingBlock : Block where
  prompt := "> open(path)"
  first := "open(path)"
  isPrompt := .inr rfl
  more := []
  output := ["Uncaught Path$Error: \"C:\\\": \\\"not: found\\", "    at open"]
  blanks := [""]
  more_maximal := by
    rintro _ ⟨⟩ text h
    have hmark := congrArg (fun s => s.toList.head?) h
    simp at hmark
  noPrompt := by
    have hnone : ∀ l ∈ ["Uncaught Path$Error: \"C:\\\": \\\"not: found\\", "    at open", ""],
        (input? l).isNone := by decide
    exact fun l hl => input?_isNone_iff.mp (hnone l hl)
  blanks_blank := by decide
  blanks_maximal := by decide

theorem exceptions_quoted_failing :
    ∃ line, ExpectsException line "Path$Error" "\"C:\\\": \\\"not: found\\" ∧
      assertions (["let path;"] ++ (failingBlock.lines ++ [">"])) =
        ["let path;", "assert.throws(", "  () => \x7b", "    open(path)", "  \x7d,", line, ");", ""] := by
  have hprompt : StartsAtPrompt [">"] := by
    rintro _ ⟨⟩
    exact ⟨"", .inl ⟨rfl, rfl⟩⟩
  obtain ⟨line, hline, hcode⟩ := exceptions_quoted.2.2.2.2.2 ["let path;"] [">"] failingBlock
    "Path$Error" "\"C:\\\": \\\"not: found\\" ["    at open"] (by decide) rfl hprompt
  refine ⟨line, hline, hcode.trans ?_⟩
  have hfront : assertions ["let path;"] = ["let path;"] := by decide +kernel
  have hrest : assertions [">"] = [""] := by decide +kernel
  rw [hfront, hrest]
  rfl

end Transcript

end Doctest
