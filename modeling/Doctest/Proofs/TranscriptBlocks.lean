import Doctest.Transcript
import Mathlib.Data.List.Basic

/-!
# Transcripts are translated prompt by prompt

A transcript is what stands in front of its first prompt, and then a block for each prompt. One pass over
the lines turns it into code. Here the pass is compared with the blocks.

* `Transcript.Block`: a prompt with the lines that continue it, what it printed and blank lines behind.
* `Transcript.exists_blocks`: every list of lines consists of blocks, up to the lines in front of them.
* `Transcript.assertions_block`: the pass takes one block and goes on behind it.
* `Interaction.coded_iff`: what the code of an interaction is, without the functions that write it.
* `Transcript.assertions_promptwise`: the code of a transcript, block by block.
-/

namespace Doctest

open Text (isBlank isAllBlank trim trimStart_cons trimEnd dropEnd_append_stop exists_dropEnd_append
  takeWhile_append_stop dropWhile_append_stop afterWord? afterWord?_eq_some_iff)

theorem map_afterWord?_eq_some_iff {word line text : String} :
    (afterWord? word.toList line.toList).map String.ofList = some text ↔ line = word ++ text := by
  rw [Option.map_eq_some_iff, ← String.toList_inj, String.toList_append]
  constructor
  · rintro ⟨cs, hcs, rfl⟩
    rw [afterWord?_eq_some_iff.mp hcs, String.toList_ofList]
  · intro hline
    exact ⟨text.toList, afterWord?_eq_some_iff.mpr hline, String.ofList_toList⟩

/-! ## The code of an interaction -/

namespace Interaction

variable {line kept : String} {input output code : Lines}

/-- What is left of a line without the blanks at its end and then without the semicolons there. -/
def WithoutEnd (line kept : String) : Prop :=
  ∃ semicolons blanks : List Char, line.toList = kept.toList ++ semicolons ++ blanks ∧
    (∀ c ∈ blanks, isBlank c) ∧ (∀ c ∈ (kept.toList ++ semicolons).getLast?, ¬ isBlank c) ∧
    (∀ c ∈ semicolons, c = ';') ∧ ∀ c ∈ kept.toList.getLast?, c ≠ ';'

theorem lastLine_eq_iff : lastLine line = kept ↔ WithoutEnd line kept := by
  constructor
  · intro h
    obtain ⟨blanks, hblanks, hline, hlast⟩ := exists_dropEnd_append isBlank line.toList
    obtain ⟨semicolons, hsemicolons, htrimmed, hkept⟩ :=
      exists_dropEnd_append (· = ';') (trimEnd line.toList)
    have hlist : kept.toList = ((trimEnd line.toList).reverse.dropWhile (· = ';')).reverse := by
      rw [← h]
      exact String.toList_ofList
    rw [← hlist] at htrimmed hkept
    refine ⟨semicolons, blanks, htrimmed ▸ hline, hblanks, fun c hc => ?_, fun c hc => ?_,
      fun c hc => ?_⟩
    · rw [← htrimmed] at hc
      exact Bool.eq_false_iff.mp (hlast c hc)
    · exact of_decide_eq_true (hsemicolons c hc)
    · exact of_decide_eq_false (hkept c hc)
  · rintro ⟨semicolons, blanks, hline, hblanks, hlast, hsemicolons, hkept⟩
    have htrimmed : trimEnd line.toList = kept.toList ++ semicolons := by
      rw [hline]
      exact dropEnd_append_stop (fun c hc => Bool.eq_false_iff.mpr (hlast c hc)) hblanks
    unfold lastLine
    rw [htrimmed, dropEnd_append_stop (fun c hc => decide_eq_false (hkept c hc))
      (fun c hc => decide_eq_true (hsemicolons c hc)), String.ofList_toList]

/-- What the code of an interaction is: the input as it stands if it printed nothing or only that there is
no value, else the expectation of an exception or the comparison of a value. -/
inductive Coded (input : Lines) : Lines → Lines → Prop
  | silent : Coded input [] input
  | undefined {line : String} (h : trim line.toList = "undefined".toList) : Coded input [line] input
  | thrown (exception : String) (more : Lines) :
      Coded input (("Uncaught " ++ exception) :: more)
        (["assert.throws(", "  () => \x7b"] ++ input.map ("    " ++ ·) ++
          exceptionEnd exception.toList ++ [");"])
  | compared {output front : Lines} {last kept : String} (hsome : output ≠ [])
      (hundefined : ∀ line, output = [line] → trim line.toList ≠ "undefined".toList)
      (huncaught : ∀ exception more, output ≠ ("Uncaught " ++ exception) :: more)
      (hinput : input = front ++ [last]) (hlast : WithoutEnd last kept) :
      Coded input output (["assert.deepEqual("] ++ front.map ("  " ++ ·) ++ ["  " ++ kept, "  ,"] ++
        output.map ("  " ++ ·) ++ [");"])

theorem head?_trim {c : Char} (hc : isBlank c = false) (cs : List Char) :
    (trim (c :: cs)).head? = some c := by
  obtain ⟨blanks, hblanks, heq, -⟩ := exists_dropEnd_append isBlank (c :: cs)
  unfold trim
  rw [trimStart_cons hc]
  unfold trimEnd
  cases hkept : ((c :: cs).reverse.dropWhile isBlank).reverse with
  | nil =>
    rw [hkept, List.nil_append] at heq
    have hblank := hblanks c (heq ▸ List.mem_cons_self)
    rw [hc] at hblank
    cases hblank
  | cons d ds =>
    rw [hkept, List.cons_append] at heq
    rw [(List.cons.inj heq).1]
    rfl

/-- An exception does not say that there is no value. -/
theorem trim_uncaught_ne (exception : String) :
    trim ("Uncaught " ++ exception).toList ≠ "undefined".toList := by
  have htext : ("Uncaught " ++ exception).toList =
      'U' :: ("ncaught " ++ exception).toList := by simp
  intro h
  have hhead := congrArg List.head? h
  rw [htext, head?_trim rfl] at hhead
  simp at hhead

theorem assertion_thrown (exception : String) (more : Lines) :
    assertion ⟨input, ("Uncaught " ++ exception) :: more⟩ = throwing input exception.toList := by
  have hafter : afterWord? "Uncaught ".toList ("Uncaught " ++ exception).toList =
      some exception.toList := afterWord?_eq_some_iff.mpr String.toList_append
  unfold assertion
  dsimp only
  rw [decide_eq_false (trim_uncaught_ne exception), Bool.and_false, if_neg Bool.false_ne_true, hafter]

theorem assertion_compared {first : String} {more : Lines}
    (hundefined : ∀ line, first :: more = [line] → trim line.toList ≠ "undefined".toList)
    (huncaught : ∀ exception rest, first :: more ≠ ("Uncaught " ++ exception) :: rest) :
    assertion ⟨input, first :: more⟩ = comparison input (first :: more) := by
  have hafter : afterWord? "Uncaught ".toList first.toList = none := by
    rw [Option.eq_none_iff_forall_ne_some]
    intro exception h
    refine huncaught (String.ofList exception) more (congrArg (· :: more) ?_)
    exact map_afterWord?_eq_some_iff.mp (congrArg (Option.map String.ofList) h)
  unfold assertion
  dsimp only
  rw [if_neg, hafter]
  intro h
  obtain ⟨hmore, htrim⟩ := Bool.and_eq_true_iff.mp h
  obtain rfl := List.isEmpty_iff.mp hmore
  exact hundefined first rfl (of_decide_eq_true htrim)

theorem comparison_concat {front : Lines} {last : String} :
    comparison (front ++ [last]) output = ["assert.deepEqual("] ++ front.map ("  " ++ ·) ++
      ["  " ++ lastLine last, "  ,"] ++ output.map ("  " ++ ·) ++ [");"] := by
  unfold comparison
  simp

/-- **The code of an interaction.** -/
theorem coded_iff (hinput : input ≠ []) :
    Coded input output code ↔ code = assertion ⟨input, output⟩ := by
  constructor
  · intro h
    cases h with
    | silent => rfl
    | undefined h =>
      unfold assertion
      dsimp only
      rw [decide_eq_true h]
      rfl
    | thrown exception more => exact (assertion_thrown exception more).symm
    | compared hsome hundefined huncaught heq hlast =>
      obtain ⟨first, more, rfl⟩ := List.exists_cons_of_ne_nil hsome
      rw [assertion_compared hundefined huncaught, heq, comparison_concat,
        lastLine_eq_iff.mpr hlast]
  · rintro rfl
    by_cases hsome : output = []
    · subst hsome
      exact .silent
    by_cases hundefined : ∃ line, output = [line] ∧ trim line.toList = "undefined".toList
    · obtain ⟨line, rfl, hline⟩ := hundefined
      unfold assertion
      dsimp only
      rw [decide_eq_true hline]
      exact .undefined hline
    by_cases huncaught : ∃ exception more, output = ("Uncaught " ++ exception) :: more
    · obtain ⟨exception, more, rfl⟩ := huncaught
      rw [assertion_thrown]
      exact .thrown exception more
    · obtain ⟨first, more, rfl⟩ := List.exists_cons_of_ne_nil hsome
      obtain ⟨front, last, rfl⟩ := (List.eq_nil_or_concat' input).resolve_left hinput
      have hundefined' := fun line h h' => hundefined ⟨line, h, h'⟩
      have huncaught' := fun exception rest h => huncaught ⟨exception, rest, h⟩
      rw [assertion_compared hundefined' huncaught', comparison_concat]
      exact .compared hsome hundefined' huncaught' rfl (lastLine_eq_iff.mp rfl)

end Interaction

namespace Transcript

variable {l line text : String} {ls front rest : Lines}

/-! ## Lines with marks -/

/-- The line is a prompt with the text behind it. -/
def Prompt (line text : String) : Prop := line = ">" ∧ text = "" ∨ line = "> " ++ text

/-- None of the lines is a prompt. -/
def NoPrompt (ls : Lines) : Prop := ∀ l ∈ ls, ∀ text, ¬ Prompt l text

/-- The first line is a prompt, if there is one. -/
def StartsAtPrompt (ls : Lines) : Prop := ∀ l ∈ ls.head?, ∃ text, Prompt l text

theorem input?_eq_some_iff : input? line = some text ↔ Prompt line text := by
  unfold input? Prompt
  split
  · next hbare =>
    have hmark : ">" ≠ "> " ++ text := fun h => by simpa using congrArg String.toList h
    simp [hbare, hmark, eq_comm]
  · next hbare =>
    rw [show ['>', ' '] = "> ".toList from rfl, map_afterWord?_eq_some_iff]
    simp [hbare]

theorem continued?_eq_some_iff : continued? line = some text ↔ line = "... " ++ text :=
  map_afterWord?_eq_some_iff

theorem input?_isNone_iff : (input? l).isNone ↔ ∀ text, ¬ Prompt l text := by
  simp only [Option.isNone_iff_eq_none, Option.eq_none_iff_forall_ne_some, ne_eq, input?_eq_some_iff]

theorem continued?_isSome_iff : (continued? l).isSome ↔ ∃ text, l = "... " ++ text := by
  simp only [Option.isSome_iff_exists, continued?_eq_some_iff]

/-- A prompt continues nothing. -/
theorem Prompt.continued?_eq_none (h : Prompt l text) : continued? l = none := by
  rw [Option.eq_none_iff_forall_ne_some]
  intro more hmore
  have hmark := congrArg (fun s => s.toList.head?) (continued?_eq_some_iff.mp hmore)
  rcases h with ⟨rfl, -⟩ | rfl <;> simp at hmark

/-! ## Blocks -/

/-- A prompt and all lines up to the next one, as they stand in a transcript. -/
structure Block where
  prompt : String
  /-- What stands behind the prompt. -/
  first : String
  isPrompt : Prompt prompt first
  /-- What stands behind the marks of the lines that continue the input. -/
  more : Lines
  output : Lines
  /-- The blank lines at the end. -/
  blanks : Lines
  more_maximal : ∀ l ∈ (output ++ blanks).head?, ∀ text, l ≠ "... " ++ text
  noPrompt : NoPrompt (output ++ blanks)
  blanks_blank : ∀ l ∈ blanks, isAllBlank l.toList
  blanks_maximal : ∀ l ∈ output.getLast?, ¬ isAllBlank l.toList

namespace Block

def lines (b : Block) : Lines := b.prompt :: (b.more.map ("... " ++ ·) ++ (b.output ++ b.blanks))

def input (b : Block) : Lines := b.first :: b.more

/-- The code that checks the block. -/
def code (b : Block) : Lines := Interaction.assertion ⟨b.input, b.output⟩

end Block

/-! ## One pass over the lines -/

theorem assertions_front (hfront : NoPrompt front) (rest : Lines) :
    assertions (front ++ rest) = front ++ assertions rest := by
  induction front with
  | nil => rfl
  | cons l front ih =>
    obtain ⟨hl, hfront⟩ := List.forall_mem_cons.mp hfront
    have hnone : input? l = none := Option.isNone_iff_eq_none.mp (input?_isNone_iff.mpr hl)
    rw [List.cons_append, assertions, hnone, List.cons_append]
    exact congrArg (l :: ·) (ih hfront)

theorem filterMap_continued? (more : Lines) :
    (more.map ("... " ++ ·)).filterMap continued? = more := by
  rw [List.filterMap_map]
  refine (List.filterMap_congr fun l _ => ?_).trans List.filterMap_some
  exact continued?_eq_some_iff.mpr rfl

theorem dropBlankEnd_append {output blanks : Lines} (hblanks : ∀ l ∈ blanks, isAllBlank l.toList)
    (hlast : ∀ l ∈ output.getLast?, ¬ isAllBlank l.toList) :
    dropBlankEnd (output ++ blanks) = output :=
  dropEnd_append_stop (fun l hl => Bool.eq_false_iff.mpr (hlast l hl)) hblanks

theorem exists_dropBlankEnd_append (ls : Lines) :
    ∃ blanks : Lines, (∀ l ∈ blanks, isAllBlank l.toList) ∧ dropBlankEnd ls ++ blanks = ls ∧
      ∀ l ∈ (dropBlankEnd ls).getLast?, ¬ isAllBlank l.toList := by
  obtain ⟨blanks, hblanks, heq, hlast⟩ := exists_dropEnd_append (isAllBlank ·.toList) ls
  exact ⟨blanks, hblanks, heq.symm, fun l hl => Bool.eq_false_iff.mp (hlast l hl)⟩

/-- A block ends at the next prompt, and then the pass goes on there. -/
theorem assertions_block (b : Block) (hrest : StartsAtPrompt rest) :
    assertions (b.lines ++ rest) = b.code ++ assertions rest := by
  have hinput : input? b.prompt = some b.first := input?_eq_some_iff.mpr b.isPrompt
  have hmore : ∀ l ∈ b.more.map ("... " ++ ·), (continued? l).isSome := by
    intro l hl
    obtain ⟨text, -, rfl⟩ := List.mem_map.mp hl
    exact continued?_isSome_iff.mpr ⟨text, rfl⟩
  -- What follows the continuing lines is a line of output, a blank line or the next prompt.
  have hmore_stop : ∀ l ∈ (b.output ++ b.blanks ++ rest).head?, (continued? l).isSome = false := by
    intro l hl
    cases hprinted : b.output ++ b.blanks with
    | nil =>
      rw [hprinted, List.nil_append] at hl
      obtain ⟨text, hprompt⟩ := hrest l hl
      rw [hprompt.continued?_eq_none]
      rfl
    | cons l' ls =>
      rw [hprinted] at hl
      refine Bool.eq_false_iff.mpr fun hcontinued => ?_
      obtain ⟨text, htext⟩ := continued?_isSome_iff.mp hcontinued
      exact b.more_maximal l (hprinted ▸ hl) text htext
  have hprinted : ∀ l ∈ b.output ++ b.blanks, (input? l).isNone := fun l hl =>
    input?_isNone_iff.mpr (b.noPrompt l hl)
  have hprinted_stop : ∀ l ∈ rest.head?, (input? l).isNone = false := by
    intro l hl
    obtain ⟨text, hprompt⟩ := hrest l hl
    rw [input?_eq_some_iff.mpr hprompt]
    rfl
  unfold Block.lines
  rw [List.cons_append, List.append_assoc, assertions, hinput]
  dsimp only
  rw [takeWhile_append_stop hmore hmore_stop, dropWhile_append_stop hmore hmore_stop,
    takeWhile_append_stop hprinted hprinted_stop, dropWhile_append_stop hprinted hprinted_stop,
    filterMap_continued?, dropBlankEnd_append b.blanks_blank b.blanks_maximal]
  rfl

theorem startsAtPrompt_blocks (blocks : List Block) : StartsAtPrompt (blocks.flatMap Block.lines) := by
  intro l hl
  cases blocks with
  | nil => cases hl
  | cons b blocks =>
    cases hl
    exact ⟨b.first, b.isPrompt⟩

theorem assertions_blocks (hfront : NoPrompt front) (blocks : List Block) :
    assertions (front ++ blocks.flatMap Block.lines) = front ++ blocks.flatMap Block.code := by
  rw [assertions_front hfront]
  congr 1
  induction blocks with
  | nil => rw [List.flatMap_nil, List.flatMap_nil, assertions]
  | cons b blocks ih =>
    rw [List.flatMap_cons, assertions_block b (startsAtPrompt_blocks blocks), ih, List.flatMap_cons]

/-- Behind lines that begin with a prompt there is nothing in front of the first block. -/
theorem StartsAtPrompt.eq_nil (h : StartsAtPrompt (front ++ rest)) (hfront : NoPrompt front) :
    front = [] := by
  cases front with
  | nil => rfl
  | cons l front =>
    obtain ⟨text, hprompt⟩ := h l rfl
    exact absurd hprompt (hfront l List.mem_cons_self text)

theorem map_filterMap_continued? (hls : ∀ l ∈ ls, (continued? l).isSome) :
    (ls.filterMap continued?).map ("... " ++ ·) = ls := by
  induction ls with
  | nil => rfl
  | cons l ls ih =>
    obtain ⟨hl, hls⟩ := List.forall_mem_cons.mp hls
    obtain ⟨text, hl⟩ := Option.isSome_iff_exists.mp hl
    rw [List.filterMap_cons_some hl, List.map_cons, ih hls, continued?_eq_some_iff.mp hl]

/-- The next prompt with what belongs to it makes up a block. -/
theorem exists_block (hprompt : Prompt l text) (ls : Lines) : ∃ b : Block,
    let following := ls.dropWhile fun l => (continued? l).isSome
    let behind := following.dropWhile fun l => (input? l).isNone
    l :: ls = b.lines ++ behind ∧ StartsAtPrompt behind := by
  let isContinued (l : String) : Bool := (continued? l).isSome
  let isPrinted (l : String) : Bool := (input? l).isNone
  let printed := (ls.dropWhile isContinued).takeWhile isPrinted
  obtain ⟨blanks, hblanks, hprinted, hlast⟩ := exists_dropBlankEnd_append printed
  have hmore : ((ls.takeWhile isContinued).filterMap continued?).map ("... " ++ ·) =
      ls.takeWhile isContinued :=
    map_filterMap_continued? fun l hl => List.all_eq_true.mp List.all_takeWhile l hl
  refine ⟨⟨l, text, hprompt, (ls.takeWhile isContinued).filterMap continued?, dropBlankEnd printed,
    blanks, ?_, ?_, hblanks, hlast⟩, ?_, ?_⟩
  · intro l hl text htext
    rw [hprinted, List.head?_takeWhile] at hl
    have hstop := List.head?_dropWhile_not isContinued ls
    rw [(Option.filter_eq_some_iff.mp hl).1] at hstop
    exact Bool.eq_false_iff.mp hstop (continued?_isSome_iff.mpr ⟨text, htext⟩)
  · intro l hl
    rw [hprinted] at hl
    exact input?_isNone_iff.mp (List.all_eq_true.mp List.all_takeWhile l hl)
  · show l :: ls = l :: (_ ++ (dropBlankEnd printed ++ blanks)) ++ _
    rw [hmore, hprinted, List.cons_append, List.append_assoc, List.takeWhile_append_dropWhile,
      List.takeWhile_append_dropWhile]
  · intro l hl
    have hstop := List.head?_dropWhile_not isPrinted (ls.dropWhile isContinued)
    rw [hl] at hstop
    obtain ⟨text, htext⟩ := Option.isSome_iff_exists.mp (Option.isNone_eq_false_iff.mp hstop)
    exact ⟨text, input?_eq_some_iff.mp htext⟩

/-- Every list of lines consists of blocks, up to the lines in front of the first one. -/
theorem exists_blocks (ls : Lines) : ∃ (front : Lines) (blocks : List Block),
    NoPrompt front ∧ ls = front ++ blocks.flatMap Block.lines := by
  induction ls using assertions.induct with
  | case1 => exact ⟨[], [], by simp [NoPrompt], rfl⟩
  | case2 l ls hnone ih =>
    obtain ⟨front, blocks, hfront, rfl⟩ := ih
    refine ⟨l :: front, blocks, List.forall_mem_cons.mpr ⟨?_, hfront⟩, rfl⟩
    exact input?_isNone_iff.mp (Option.isNone_iff_eq_none.mpr hnone)
  | case3 l ls first hfirst following ih =>
    obtain ⟨front, blocks, hfront, hbehind⟩ := ih
    obtain ⟨b, hls, hstart⟩ := exists_block (input?_eq_some_iff.mp hfirst) ls
    obtain rfl := (hbehind ▸ hstart).eq_nil hfront
    refine ⟨[], b :: blocks, hfront, ?_⟩
    rw [hls, List.flatMap_cons, hbehind]
    rfl

/-- What stands behind a prompt is translated without what stands in front of it. -/
theorem assertions_append (front : Lines) (h : StartsAtPrompt rest) :
    assertions (front ++ rest) = assertions front ++ assertions rest := by
  obtain ⟨before, blocks, hbefore, rfl⟩ := exists_blocks front
  obtain ⟨none, blocks', hnone, rfl⟩ := exists_blocks rest
  obtain rfl := h.eq_nil hnone
  rw [assertions_blocks hbefore, assertions_blocks hnone, List.nil_append, List.nil_append,
    List.append_assoc, ← List.flatMap_append, assertions_blocks hbefore, List.flatMap_append,
    List.append_assoc]

/-- **A transcript is translated prompt by prompt.** Every list of lines consists of lines without prompts
and of blocks behind them, each a prompt with all that stands in front of the next one. The lines in front
of the first block stay as they are, and every block becomes code on its own, which depends on nothing but
its input and its output. So a transcript can be cut at every prompt, and lines without prompts stay as
they are. -/
theorem assertions_promptwise :
    (∀ ls, ∃ (front : Lines) (blocks : List Block),
      NoPrompt front ∧ ls = front ++ blocks.flatMap Block.lines) ∧
    (∀ (front : Lines) (blocks : List Block), NoPrompt front →
      assertions (front ++ blocks.flatMap Block.lines) = front ++ blocks.flatMap Block.code) ∧
    (∀ (b : Block) (code : Lines), Interaction.Coded b.input b.output code ↔ code = b.code) ∧
    (∀ front rest, StartsAtPrompt rest →
      assertions (front ++ rest) = assertions front ++ assertions rest) ∧
    ∀ ls, NoPrompt ls → assertions ls = ls := by
  refine ⟨exists_blocks, fun front blocks hfront => assertions_blocks hfront blocks,
    fun b code => Interaction.coded_iff (List.cons_ne_nil _ _),
    fun front rest hrest => assertions_append front hrest, fun ls hls => ?_⟩
  simpa using assertions_blocks hls []

/-- A semicolon behind the last line of the input, and a prompt behind blank lines of the output. -/
theorem assertions_promptwise_session :
    let front := ["// setup", "> let x;", "undefined"]
    let rest := ["> x ;", "... + 1;; ", "NaN", "", ">", " "]
    StartsAtPrompt rest ∧ assertions (front ++ rest) =
      ["// setup", "let x;", "assert.deepEqual(", "  x ;", "  + 1", "  ,", "  NaN", ");", ""] := by
  intro front rest
  have hrest : StartsAtPrompt rest := by
    rintro _ ⟨⟩
    exact ⟨"x ;", .inr rfl⟩
  refine ⟨hrest, ?_⟩
  rw [assertions_promptwise.2.2.2.1 front rest hrest]
  decide +kernel

end Transcript

end Doctest
