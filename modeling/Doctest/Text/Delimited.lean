/-!
# Delimited text

Text between two equal delimiters, such as quotes. A delimiter or a backslash in the text is written
with a backslash in front. A backslash in front of anything else stands for itself.
`delimited?_eq_some_iff` says where the text ends and what it stands for; by `delimited?_escaped` the
reader undoes the writer whatever follows.
-/

namespace Doctest.Text

/-- The text that starts behind an opening `mark`, and what follows the closing one. -/
def delimited? (mark : Char) : List Char → Option (List Char × List Char)
  | [] => none
  | c :: cs =>
    if c = mark then some ([], cs)
    else if c = '\\' then
      match cs with
      | [] => none
      | d :: ds =>
        if d = mark || d = '\\' then (delimited? mark ds).map fun (t, r) => (d :: t, r)
        else (delimited? mark ds).map fun (t, r) => ('\\' :: d :: t, r)
    else (delimited? mark cs).map fun (t, r) => (c :: t, r)

/-- The text as written between two marks, without them. -/
def escaped (mark : Char) : List Char → List Char
  | [] => []
  | c :: cs => if c = mark || c = '\\' then '\\' :: c :: escaped mark cs else c :: escaped mark cs

theorem mem_escaped {mark c : Char} {cs : List Char} (h : c ∈ escaped mark cs) :
    c = '\\' ∨ c ∈ cs := by
  induction cs with
  | nil => cases h
  | cons d cs ih =>
    rw [escaped] at h
    split at h
    · rcases List.mem_cons.mp h with h | h
      · exact .inl h
      · rcases List.mem_cons.mp h with rfl | h
        · exact .inr List.mem_cons_self
        · exact (ih h).imp_right (List.mem_cons_of_mem d)
    · rcases List.mem_cons.mp h with rfl | h
      · exact .inr List.mem_cons_self
      · exact (ih h).imp_right (List.mem_cons_of_mem d)

/-- The text with its marks. -/
def delimit (mark : Char) (cs : List Char) : List Char := mark :: escaped mark cs ++ [mark]

theorem length_delimited? {mark : Char} {cs t r : List Char}
    (h : delimited? mark cs = some (t, r)) : r.length < cs.length := by
  fun_induction delimited? mark cs generalizing t r <;> grind [Option.map_eq_some_iff]

theorem delimited?_mark {mark : Char} (cs : List Char) :
    delimited? mark (mark :: cs) = some ([], cs) := by
  rw [delimited?.eq_def]
  simp

theorem delimited?_backslash {mark d : Char} (hmark : mark ≠ '\\') (hd : d = mark ∨ d = '\\')
    (ds : List Char) :
    delimited? mark ('\\' :: d :: ds) = (delimited? mark ds).map fun (t, r) => (d :: t, r) := by
  rw [delimited?.eq_def]
  simp [hmark.symm, hd]

theorem delimited?_plain {mark c : Char} (h1 : c ≠ mark) (h2 : c ≠ '\\') (cs : List Char) :
    delimited? mark (c :: cs) = (delimited? mark cs).map fun (t, r) => (c :: t, r) := by
  rw [delimited?.eq_def]
  simp [h1, h2]

/-- A backslash in front of anything else stands for itself. -/
theorem delimited?_kept {mark c : Char} (hmark : mark ≠ '\\') (h1 : c ≠ mark) (h2 : c ≠ '\\')
    (cs : List Char) :
    delimited? mark ('\\' :: c :: cs) =
      (delimited? mark cs).map fun (t, r) => ('\\' :: c :: t, r) := by
  rw [delimited?.eq_def]
  simp [hmark.symm, h1, h2]

/-- What the text between two marks stands for. -/
inductive Unescapes (mark : Char) : List Char → List Char → Prop
  | nil : Unescapes mark [] []
  | escape {c : Char} {raw text : List Char} (hc : c = mark ∨ c = '\\')
      (h : Unescapes mark raw text) : Unescapes mark ('\\' :: c :: raw) (c :: text)
  | kept {c : Char} {raw text : List Char} (hmark : c ≠ mark) (hc : c ≠ '\\')
      (h : Unescapes mark raw text) : Unescapes mark ('\\' :: c :: raw) ('\\' :: c :: text)
  | plain {c : Char} {raw text : List Char} (hmark : c ≠ mark) (hc : c ≠ '\\')
      (h : Unescapes mark raw text) : Unescapes mark (c :: raw) (c :: text)

theorem unescapes_escaped (mark : Char) (cs : List Char) :
    Unescapes mark (escaped mark cs) cs := by
  induction cs with
  | nil => exact .nil
  | cons c cs ih =>
    rw [escaped]
    split
    · next h => exact .escape (by simpa using h) ih
    · next h =>
      obtain ⟨hmark, hc⟩ := not_or.1 (by simpa using h)
      exact .plain hmark hc ih

/-- The text ends at the first mark that is not escaped. -/
theorem delimited?_eq_some_iff {mark : Char} (hmark : mark ≠ '\\') {cs text rest : List Char} :
    delimited? mark cs = some (text, rest) ↔
      ∃ raw, Unescapes mark raw text ∧ cs = raw ++ mark :: rest := by
  constructor
  · intro h
    fun_induction delimited? mark cs generalizing text rest with
    | case1 => cases h
    | case2 cs =>
      cases h
      exact ⟨[], .nil, rfl⟩
    | case3 => cases h
    | case4 d ds hd _ ih =>
      obtain ⟨_, ht, ⟨⟩⟩ := Option.map_eq_some_iff.1 h
      obtain ⟨raw, hraw, rfl⟩ := ih ht
      exact ⟨'\\' :: d :: raw, .escape (by simpa using hd) hraw, rfl⟩
    | case5 d ds hd _ ih =>
      obtain ⟨_, ht, ⟨⟩⟩ := Option.map_eq_some_iff.1 h
      obtain ⟨raw, hraw, rfl⟩ := ih ht
      obtain ⟨h1, h2⟩ := not_or.1 (by simpa using hd)
      exact ⟨'\\' :: d :: raw, .kept h1 h2 hraw, rfl⟩
    | case6 c cs h1 h2 ih =>
      obtain ⟨_, ht, ⟨⟩⟩ := Option.map_eq_some_iff.1 h
      obtain ⟨raw, hraw, rfl⟩ := ih ht
      exact ⟨c :: raw, .plain h1 h2 hraw, rfl⟩
  · rintro ⟨raw, hraw, rfl⟩
    induction hraw with
    | nil => exact delimited?_mark rest
    | escape hc _ ih =>
      rw [List.cons_append, List.cons_append, delimited?_backslash hmark hc, ih]
      rfl
    | kept h1 h2 _ ih =>
      rw [List.cons_append, List.cons_append, delimited?_kept hmark h1 h2, ih]
      rfl
    | plain h1 h2 _ ih =>
      rw [List.cons_append, delimited?_plain h1 h2, ih]
      rfl

theorem delimited?_escaped {mark : Char} (hmark : mark ≠ '\\') (cs r : List Char) :
    delimited? mark (escaped mark cs ++ mark :: r) = some (cs, r) :=
  (delimited?_eq_some_iff hmark).mpr ⟨_, unescapes_escaped mark cs, rfl⟩

end Doctest.Text
