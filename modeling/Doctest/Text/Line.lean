import Doctest.Text.Search

/-!
# Lines

A newline ends a line; a carriage return in front of it belongs to the line's end. A line without
a newline counts only if it is not empty, so a newline at the end of a text opens no further line.
-/

namespace Doctest

/-- A list of lines without their ends. -/
abbrev Lines := List String

namespace Text

/-- The pieces between the newlines. Always at least one piece. -/
def pieces : List Char → List (List Char)
  | [] => [[]]
  | c :: cs =>
    if c = '\n' then [] :: pieces cs
    else
      match pieces cs with
      | [] => [[c]]
      | p :: ps => (c :: p) :: ps

/-- The text without one carriage return at its end. -/
def dropReturn (cs : List Char) : List Char :=
  if cs.getLast? = some '\r' then cs.dropLast else cs

/-- The text without all carriage returns at its end. -/
def dropReturns (cs : List Char) : List Char := (cs.reverse.dropWhile (· = '\r')).reverse

/-- The lines of a text: every piece before the last one ends with a newline and loses the carriage
return in front of it; the last one has no line end and counts if it is not empty. -/
def lineList (cs : List Char) : List (List Char) :=
  let ps := pieces cs
  ps.dropLast.map dropReturn ++ (match ps.getLast? with
    | some [] => []
    | some p => [p]
    | none => [])

/-- The lines of a text. -/
def lines (text : String) : Lines := (lineList text.toList).map String.ofList

/-- The lines with a newline between each two of them. -/
def joinLines (ls : Lines) : String := "\n".intercalate ls

/-- The content of a file with these lines: a newline after each of them, and a single one if there
are none. -/
def content (ls : Lines) : String := joinLines ls ++ "\n"

theorem pieces_line {l : List Char} (h : '\n' ∉ l) (rest : List Char) :
    pieces (l ++ '\n' :: rest) = l :: pieces rest := by
  induction l with
  | nil => simp [pieces]
  | cons c l ih =>
    have hc : c ≠ '\n' := fun hc => h (hc ▸ List.mem_cons_self)
    have hl := ih fun hl => h (List.mem_cons_of_mem c hl)
    rw [List.cons_append, pieces, if_neg hc, hl]

theorem pieces_last {l : List Char} (h : '\n' ∉ l) : pieces l = [l] := by
  induction l with
  | nil => rfl
  | cons c l ih =>
    have hc : c ≠ '\n' := fun hc => h (hc ▸ List.mem_cons_self)
    have hl := ih fun hl => h (List.mem_cons_of_mem c hl)
    rw [pieces, if_neg hc, hl]

/-- The pieces of lines that stand in front of the rest. -/
theorem pieces_lines {ls : List (List Char)} {rest : List Char} (hls : ∀ l ∈ ls, '\n' ∉ l)
    (hrest : '\n' ∉ rest) : pieces (ls.flatMap (· ++ ['\n']) ++ rest) = ls ++ [rest] := by
  induction ls with
  | nil => exact pieces_last hrest
  | cons l ls ih =>
    obtain ⟨hl, hls⟩ := List.forall_mem_cons.mp hls
    rw [List.flatMap_cons, List.append_assoc, List.append_assoc, List.singleton_append,
      pieces_line hl, ih hls, List.cons_append]

/-- Every text consists of lines with their ends and of what follows the last end. -/
theorem exists_lines (text : List Char) :
    ∃ (ls : List (List Char)) (rest : List Char), text = ls.flatMap (· ++ ['\n']) ++ rest ∧
      (∀ l ∈ ls, '\n' ∉ l) ∧ '\n' ∉ rest := by
  induction text with
  | nil => exact ⟨[], [], rfl, by simp, by simp⟩
  | cons c text ih =>
    obtain ⟨ls, rest, rfl, hls, hrest⟩ := ih
    by_cases hc : c = '\n'
    · exact ⟨[] :: ls, rest, by simp [hc], by simpa using hls, hrest⟩
    · cases ls with
      | nil => exact ⟨[], c :: rest, rfl, by simp, by simp [Ne.symm hc, hrest]⟩
      | cons l ls =>
        obtain ⟨hl, hls⟩ := List.forall_mem_cons.mp hls
        refine ⟨(c :: l) :: ls, rest, by simp, List.forall_mem_cons.mpr ⟨?_, hls⟩, hrest⟩
        simp [Ne.symm hc, hl]

theorem intercalate_lines (ls : List (List Char)) (rest : List Char) :
    ['\n'].intercalate (ls ++ [rest]) = ls.flatMap (· ++ ['\n']) ++ rest := by
  induction ls with
  | nil => simp
  | cons l ls ih =>
    have hne : ls ++ [rest] ≠ [] := by simp
    rw [List.cons_append, List.intercalate_cons_of_ne_nil hne, ih]
    simp

/-- The lines of a text, each with its end, and what follows the last end. -/
theorem lineList_lines {ls : List (List Char)} {rest : List Char}
    (hls : ∀ l ∈ ls, '\n' ∉ l ∧ l.getLast? ≠ some '\r') (hrest : '\n' ∉ rest) :
    lineList (ls.flatMap (· ++ ['\n']) ++ rest) = if rest = [] then ls else ls ++ [rest] := by
  have hmap : ls.map dropReturn = ls :=
    (List.map_congr_left fun l hl => if_neg (hls l hl).2).trans (List.map_id' ls)
  unfold lineList
  simp only [pieces_lines (fun l hl => (hls l hl).1) hrest, List.dropLast_concat,
    List.getLast?_concat, hmap]
  cases rest with
  | nil => simp
  | cons c rest => simp

theorem newline_not_mem_of_mem_pieces {text l : List Char} (h : l ∈ pieces text) : '\n' ∉ l := by
  obtain ⟨ls, rest, rfl, hls, hrest⟩ := exists_lines text
  rw [pieces_lines hls hrest] at h
  rcases List.mem_append.mp h with h | h
  · exact hls l h
  · rw [List.mem_singleton.mp h]
    exact hrest

/-- Lines without newlines are the pieces of the text that they make up. -/
theorem pieces_intercalate {ls : List (List Char)} (hne : ls ≠ []) (hls : ∀ l ∈ ls, '\n' ∉ l) :
    pieces (['\n'].intercalate ls) = ls := by
  obtain ⟨ls, rest, rfl⟩ := (List.eq_nil_or_concat ls).resolve_left hne
  rw [List.concat_eq_append] at hls ⊢
  obtain ⟨hls, hrest⟩ := List.forall_mem_append.mp hls
  rw [intercalate_lines]
  exact pieces_lines hls (hrest rest (List.mem_singleton_self rest))

theorem dropReturn_prefix (cs : List Char) : dropReturn cs <+: cs := by
  unfold dropReturn
  split
  · exact List.dropLast_prefix cs
  · exact List.prefix_rfl

/-- A line is a piece of the text, perhaps without a carriage return at its end. -/
theorem exists_piece_of_mem_lineList {text l : List Char} (h : l ∈ lineList text) :
    ∃ p ∈ pieces text, l <+: p := by
  unfold lineList at h
  rcases List.mem_append.mp h with h | h
  · obtain ⟨p, hp, rfl⟩ := List.mem_map.mp h
    exact ⟨p, (List.dropLast_prefix _).mem hp, dropReturn_prefix p⟩
  · split at h
    · cases h
    · next p _ hlast =>
      rw [List.mem_singleton.mp h]
      exact ⟨p, List.mem_of_getLast? hlast, List.prefix_rfl⟩
    · cases h

theorem lineList_ne_nil {text : List Char} (h : text ≠ []) : lineList text ≠ [] := by
  obtain ⟨ls, rest, rfl, hls, hrest⟩ := exists_lines text
  unfold lineList
  simp only [pieces_lines hls hrest, List.dropLast_concat, List.getLast?_concat]
  intro hnil
  obtain ⟨hmap, hlast⟩ := List.append_eq_nil_iff.mp hnil
  obtain rfl := List.map_eq_nil_iff.mp hmap
  cases rest with
  | nil => exact h rfl
  | cons c rest => cases hlast

theorem intercalate_pieces (text : List Char) : ['\n'].intercalate (pieces text) = text := by
  obtain ⟨ls, rest, rfl, hls, hrest⟩ := exists_lines text
  rw [pieces_lines hls hrest, intercalate_lines]

/-- The lines of a text that ends with a line end, where no carriage return is. -/
theorem lineList_concat_newline {text : List Char} (hreturn : '\r' ∉ text) :
    lineList (text ++ ['\n']) = pieces text := by
  obtain ⟨ls, rest, rfl, hls, hrest⟩ := exists_lines text
  rw [pieces_lines hls hrest]
  -- Every line has its end now, also the last one.
  have hall : ls.flatMap (· ++ ['\n']) ++ rest ++ ['\n'] =
      (ls ++ [rest]).flatMap (· ++ ['\n']) ++ [] := by simp
  have hends : ∀ l ∈ ls ++ [rest], '\n' ∉ l ∧ l.getLast? ≠ some '\r' := by
    intro l hl
    rcases List.mem_append.mp hl with hl | hl
    · refine ⟨hls l hl, fun hlast => hreturn (List.mem_append_left _ ?_)⟩
      exact List.mem_flatMap.mpr ⟨l, hl, List.mem_append_left _ (List.mem_of_getLast? hlast)⟩
    · obtain rfl := List.mem_singleton.mp hl
      exact ⟨hrest, fun hlast => hreturn (List.mem_append_right _ (List.mem_of_getLast? hlast))⟩
  rw [hall, lineList_lines hends (by simp), if_pos rfl]

theorem dropReturns_append {cs returns : List Char} (hreturns : ∀ c ∈ returns, c = '\r')
    (hcs : cs.getLast? ≠ some '\r') : dropReturns (cs ++ returns) = cs := by
  refine dropEnd_append_stop (fun c hc => decide_eq_false ?_) (by simpa using hreturns)
  rintro rfl
  exact hcs hc

end Text

end Doctest
