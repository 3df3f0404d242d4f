import Doctest.Directive
import Mathlib.Data.List.Basic

/-!
# Line ends of directives

A document may come with a carriage return in front of every newline. In the text of a directive these
carriage returns stand in three places: among the blanks in front of the word, at the end of the first
line, and at the ends of the body's lines. Each of the three is read in another way, and none of them
sees a difference.

* `withReturns`: the text with these line ends.
* `trimStart_withReturns`, `splitFirst?_withReturns`, `bodyLines_withReturns`: what becomes of the blanks,
  of the first line and of the body.
* `Directive.parse_withReturns`: a directive is read as the same, or refused for the same reason.
-/

namespace Doctest

namespace Text

/-- The text with a carriage return in front of every newline. -/
def withReturns (cs : List Char) : List Char := replaceChar '\n' ['\r', '\n'] cs

variable {c : Char} {cs : List Char}

theorem withReturns_newline (cs : List Char) :
    withReturns ('\n' :: cs) = '\r' :: '\n' :: withReturns cs := rfl

theorem withReturns_cons (hc : c ≠ '\n') (cs : List Char) :
    withReturns (c :: cs) = c :: withReturns cs := by
  unfold withReturns replaceChar
  rw [List.flatMap_cons, if_neg hc]
  rfl

theorem withReturns_append (front rest : List Char) :
    withReturns (front ++ rest) = withReturns front ++ withReturns rest := List.flatMap_append

theorem withReturns_of_newline_not_mem (h : '\n' ∉ cs) : withReturns cs = cs := by
  induction cs with
  | nil => rfl
  | cons c cs ih =>
    have hc : c ≠ '\n' := fun hc => h (hc ▸ List.mem_cons_self)
    rw [withReturns_cons hc, ih fun hcs => h (List.mem_cons_of_mem c hcs)]

/-! ## Blanks -/

theorem trimStart_withReturns (cs : List Char) :
    trimStart (withReturns cs) = withReturns (trimStart cs) := by
  induction cs with
  | nil => rfl
  | cons c cs ih =>
    by_cases hc : c = '\n'
    · subst hc
      exact ih
    · rw [withReturns_cons hc]
      by_cases hblank : isBlank c
      · unfold trimStart
        rw [List.dropWhile_cons_of_pos hblank, List.dropWhile_cons_of_pos hblank]
        exact ih
      · have hblank : isBlank c = false := by simpa using hblank
        rw [trimStart_cons hblank, trimStart_cons hblank, withReturns_cons hc]

theorem isAllBlank_withReturns (cs : List Char) : isAllBlank (withReturns cs) = isAllBlank cs := by
  induction cs with
  | nil => rfl
  | cons c cs ih =>
    by_cases hc : c = '\n'
    · subst hc
      exact ih
    · rw [withReturns_cons hc]
      exact congrArg (isBlank c && ·) ih

/-- Whether a text starts with a blank does not depend on its line ends. -/
theorem head?_any_withReturns (cs : List Char) :
    (withReturns cs).head?.any (!isBlank ·) = cs.head?.any (!isBlank ·) := by
  cases cs with
  | nil => rfl
  | cons c cs =>
    by_cases hc : c = '\n'
    · subst hc
      rfl
    · rw [withReturns_cons hc]
      rfl

/-! ## The word and the first line -/

theorem withReturns_eq_append_iff {word : List Char} (hnewline : '\n' ∉ word) (hreturn : '\r' ∉ word)
    {rest : List Char} :
    withReturns cs = word ++ rest ↔ ∃ after, cs = word ++ after ∧ withReturns after = rest := by
  induction word generalizing cs with
  | nil => simp
  | cons w word ih =>
    have hw : w ≠ '\n' := fun hw => hnewline (hw ▸ List.mem_cons_self)
    cases cs with
    | nil => simp [withReturns, replaceChar]
    | cons c cs =>
      have hrest : withReturns cs = word ++ rest ↔
          ∃ after, cs = word ++ after ∧ withReturns after = rest :=
        ih (fun h => hnewline (List.mem_cons_of_mem w h))
          (fun h => hreturn (List.mem_cons_of_mem w h))
      by_cases hc : c = '\n'
      · -- The carriage return is not the first character of the word.
        subst hc
        have hw' : ¬ '\r' = w := fun h => hreturn (h ▸ List.mem_cons_self)
        simp [withReturns_newline, hw', hw.symm]
      · rw [withReturns_cons hc, List.cons_append, List.cons_eq_cons, hrest]
        simp only [List.cons_append, List.cons_eq_cons, and_assoc, exists_and_left]

theorem afterWord?_withReturns {word : List Char} (hnewline : '\n' ∉ word) (hreturn : '\r' ∉ word)
    (cs : List Char) : afterWord? word (withReturns cs) = (afterWord? word cs).map withReturns := by
  refine Option.ext fun rest => ?_
  rw [afterWord?_eq_some_iff, withReturns_eq_append_iff hnewline hreturn, Option.map_eq_some_iff]
  simp only [afterWord?_eq_some_iff]

theorem splitFirst?_withReturns (cs : List Char) :
    splitFirst? '\n' (withReturns cs) = (splitFirst? '\n' cs).map fun (line, rest) =>
      (line ++ ['\r'], withReturns rest) := by
  cases hsplit : splitFirst? '\n' cs with
  | none =>
    have hcs := splitFirst?_eq_none_iff.mp hsplit
    rw [withReturns_of_newline_not_mem hcs, hsplit]
    rfl
  | some parts =>
    obtain ⟨line, rest⟩ := parts
    obtain ⟨hline, rfl⟩ := splitFirst?_eq_some_iff.mp hsplit
    refine splitFirst?_eq_some_iff.mpr ⟨by simpa using hline, ?_⟩
    rw [withReturns_append, withReturns_of_newline_not_mem hline, withReturns_newline]
    simp

theorem dropReturns_concat_return (cs : List Char) :
    dropReturns (cs ++ ['\r']) = dropReturns cs := by
  simp [dropReturns]

/-! ## The lines of the body -/

theorem withReturns_lines {ls : List (List Char)} {rest : List Char} (hls : ∀ l ∈ ls, '\n' ∉ l)
    (hrest : '\n' ∉ rest) :
    withReturns (ls.flatMap (· ++ ['\n']) ++ rest) =
      (ls.map (· ++ ['\r'])).flatMap (· ++ ['\n']) ++ rest := by
  induction ls with
  | nil => exact withReturns_of_newline_not_mem hrest
  | cons l ls ih =>
    obtain ⟨hl, hls⟩ := List.forall_mem_cons.mp hls
    rw [List.flatMap_cons, List.append_assoc, withReturns_append, ih hls, withReturns_append,
      withReturns_of_newline_not_mem hl, withReturns_newline]
    simp [withReturns, replaceChar]

theorem lineList_withReturns (hreturn : '\r' ∉ cs) : lineList (withReturns cs) = lineList cs := by
  obtain ⟨ls, rest, rfl, hls, hrest⟩ := exists_lines cs
  have hlines : (ls.map (· ++ ['\r'])).map dropReturn = ls.map dropReturn := by
    rw [List.map_map]
    refine List.map_congr_left fun l hl => ?_
    have hl' : l.getLast? ≠ some '\r' := fun h => hreturn <| List.mem_append_left _ <|
      List.mem_flatMap.mpr ⟨l, hl, List.mem_append_left _ (List.mem_of_getLast? h)⟩
    simp [dropReturn, hl']
  have hwith : ∀ l ∈ ls.map (· ++ ['\r']), '\n' ∉ l := by
    intro l hl
    obtain ⟨l', hl', rfl⟩ := List.mem_map.mp hl
    simpa using hls l' hl'
  rw [withReturns_lines hls hrest]
  unfold lineList
  simp only [pieces_lines hls hrest, pieces_lines hwith hrest, List.dropLast_concat,
    List.getLast?_concat, hlines]

theorem getLast?_withReturns (cs : List Char) : (withReturns cs).getLast? = cs.getLast? := by
  rcases List.eq_nil_or_concat cs with rfl | ⟨front, c, rfl⟩
  · rfl
  · rw [List.concat_eq_append, withReturns_append, List.getLast?_concat]
    by_cases hc : c = '\n'
    · subst hc
      simp [withReturns, replaceChar]
    · rw [withReturns_cons hc]
      simp [withReturns, replaceChar]

end Text

namespace Directive

open Text (withReturns)

theorem bodyLines_withReturns {cs : List Char} (hreturn : '\r' ∉ cs) :
    bodyLines (withReturns cs) = bodyLines cs := by
  unfold bodyLines
  rw [Text.lineList_withReturns hreturn, Text.getLast?_withReturns]

/-- **Line ends do not matter to directives.** A comment that is no directive stays one, a directive has
the same attributes, label and body, and a fault has the same cause, place and notes. -/
theorem parse_withReturns (line : Nat) (text : String) (hreturn : '\r' ∉ text.toList) :
    parse line (String.ofList (withReturns text.toList)) = parse line text := by
  unfold parse
  rw [String.toList_ofList, Text.trimStart_withReturns,
    Text.afterWord?_withReturns (by decide) (by decide)]
  cases hword : Text.afterWord? keyword (Text.trimStart text.toList) with
  | none => rfl
  | some rest =>
    have hrest : '\r' ∉ rest := by
      have hsuffix : rest <:+ text.toList := by
        have htrim : Text.trimStart text.toList <:+ text.toList := List.dropWhile_suffix _
        rw [Text.afterWord?_eq_some_iff.mp hword] at htrim
        exact (List.suffix_append keyword rest).trans htrim
      exact fun h => hreturn (hsuffix.mem h)
    dsimp only [Option.map_some]
    rw [Text.head?_any_withReturns, Text.splitFirst?_withReturns]
    cases hsplit : Text.splitFirst? '\n' rest with
    | none =>
      have hline := Text.splitFirst?_eq_none_iff.mp hsplit
      rw [Text.withReturns_of_newline_not_mem hline]
      rfl
    | some parts =>
      obtain ⟨header, remainder⟩ := parts
      obtain ⟨-, rfl⟩ := Text.splitFirst?_eq_some_iff.mp hsplit
      have hremainder : '\r' ∉ remainder := fun h =>
        hrest (List.mem_append_right _ (List.mem_cons_of_mem _ h))
      dsimp only [Option.map_some]
      rw [Text.dropReturns_concat_return, bodyLines_withReturns hremainder,
        Text.isAllBlank_withReturns]

/-- A newline in front of the word, a blank line at the end of the body, and a closing marker that is
indented. -/
theorem parse_withReturns_indented :
    let text := "\n markcheck id=\"a\" body:\nx\n\n  "
    '\r' ∉ text.toList ∧
      String.ofList (withReturns text.toList) =
        "\r\n markcheck id=\"a\" body:\r\nx\r\n\r\n  " ∧
      parse 3 (String.ofList (withReturns text.toList)) = parse 3 text ∧
      (parse 3 text).toOption =
        some (some ⟨3, .ofList [("id", some "a")], some .body, ["x", ""]⟩) := by
  intro text
  have hreturn : '\r' ∉ text.toList := by decide
  exact ⟨hreturn, by decide +kernel, parse_withReturns 3 text hreturn, by decide +kernel⟩

/-- Of two carriage returns in front of a newline only one is part of the line end. -/
example : Text.lineList (withReturns "a\r\nb".toList) ≠ Text.lineList "a\r\nb".toList := by
  decide +kernel

end Directive

end Doctest
