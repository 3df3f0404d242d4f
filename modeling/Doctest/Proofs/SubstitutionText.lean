import Doctest.Proofs.Result
import Doctest.Substitution
import Mathlib.Data.List.TakeWhile

/-!
# Substitutions are printed as they are written

A written substitution has two segments between slashes. Reading a segment drops the backslash of an
escaped slash and keeps all other backslashes, and printing puts one in front of every slash. So a
run of backslashes has to be divided into pairs in the same way both times.

* `IsSegment`: what a segment can be once it has been read. A backslash takes the character behind
  it along, and that is not a slash.
* `segment?_escapeSlashes`, `eq_escapeSlashes_of_segment?`: the reader takes exactly the printed segments, each
  up to a slash.
* `parse_eq_ok_iff`: what is read as a substitution is what the substitution is printed as.
* `text_of_parse`: printing gives back the text that was read.
-/

namespace Doctest.Substitution

/-- Text that is read as a segment: behind each backslash that is not taken by another one stands a
character other than a slash. -/
inductive IsSegment : List Char → Prop
  | nil : IsSegment []
  | escape {d : Char} {s : List Char} (hd : d ≠ '/') (h : IsSegment s) : IsSegment ('\\' :: d :: s)
  | plain {c : Char} {s : List Char} (hc : c ≠ '\\') (h : IsSegment s) : IsSegment (c :: s)

/-! ## Printing a segment -/

theorem escapeSlashes_slash (s : List Char) :
    escapeSlashes ('/' :: s) = '\\' :: '/' :: escapeSlashes s := rfl

theorem escapeSlashes_cons {c : Char} (hc : c ≠ '/') (s : List Char) :
    escapeSlashes (c :: s) = c :: escapeSlashes s := by
  unfold escapeSlashes Text.replaceChar
  rw [List.flatMap_cons, if_neg hc]
  rfl

/-! ## Reading a segment -/

theorem segment?_slash (cs : List Char) : segment? ('/' :: cs) = some ([], cs) := by
  rw [segment?.eq_def]
  simp

theorem segment?_escapedSlash (cs : List Char) :
    segment? ('\\' :: '/' :: cs) = (segment? cs).map fun (s, r) => ('/' :: s, r) := by
  rw [segment?.eq_def]
  simp

theorem segment?_backslash {d : Char} (hd : d ≠ '/') (cs : List Char) :
    segment? ('\\' :: d :: cs) = (segment? cs).map fun (s, r) => ('\\' :: d :: s, r) := by
  rw [segment?.eq_def]
  simp [hd]

theorem segment?_plain {c : Char} (hslash : c ≠ '/') (hback : c ≠ '\\') (cs : List Char) :
    segment? (c :: cs) = (segment? cs).map fun (s, r) => (c :: s, r) := by
  rw [segment?.eq_def]
  simp [hslash, hback]

/-- A segment is read up to the slash that ends it, whatever follows. -/
theorem segment?_escapeSlashes {s : List Char} (h : IsSegment s) (rest : List Char) :
    segment? (escapeSlashes s ++ '/' :: rest) = some (s, rest) := by
  induction h with
  | nil => exact segment?_slash rest
  | @escape d s hd _ ih =>
    rw [escapeSlashes_cons (by decide), escapeSlashes_cons hd, List.cons_append, List.cons_append,
      segment?_backslash hd, ih]
    rfl
  | @plain c s hback _ ih =>
    by_cases hslash : c = '/'
    · subst hslash
      rw [escapeSlashes_slash, List.cons_append, List.cons_append, segment?_escapedSlash, ih]
      rfl
    · rw [escapeSlashes_cons hslash, List.cons_append, segment?_plain hslash hback, ih]
      rfl

/-- What is read as a segment is what the segment is printed as. -/
theorem eq_escapeSlashes_of_segment? {cs s rest : List Char} (h : segment? cs = some (s, rest)) :
    IsSegment s ∧ cs = escapeSlashes s ++ '/' :: rest := by
  fun_induction segment? cs generalizing s rest with
  | case1 => cases h
  | case2 cs =>
    cases h
    exact ⟨.nil, rfl⟩
  | case3 => cases h
  | case4 ds _ ih =>
    obtain ⟨⟨t, r⟩, ht, heq⟩ := Option.map_eq_some_iff.mp h
    cases heq
    obtain ⟨hsegment, rfl⟩ := ih ht
    exact ⟨.plain (by decide) hsegment, rfl⟩
  | case5 d ds hd _ ih =>
    obtain ⟨⟨t, r⟩, ht, heq⟩ := Option.map_eq_some_iff.mp h
    cases heq
    obtain ⟨hsegment, rfl⟩ := ih ht
    refine ⟨.escape hd hsegment, ?_⟩
    rw [escapeSlashes_cons (by decide), escapeSlashes_cons hd]
    rfl
  | case6 c cs hslash hback ih =>
    obtain ⟨⟨t, r⟩, ht, heq⟩ := Option.map_eq_some_iff.mp h
    cases heq
    obtain ⟨hsegment, rfl⟩ := ih ht
    refine ⟨.plain hback hsegment, ?_⟩
    rw [escapeSlashes_cons hslash]
    rfl

/-! ## Reading a substitution -/

theorem toList_text (s : Substitution) :
    s.text.toList = '/' :: (escapeSlashes s.source ++
      '/' :: (escapeSlashes s.replacement ++ '/' :: s.flags)) := by
  unfold text
  rw [String.toList_ofList, List.append_assoc]
  rfl

/-- **The written form.** A text is read as a substitution if and only if the substitution is printed
as this text, both of its parts are segments, all its flags are known, and its source compiles to its
pattern. -/
theorem parse_eq_ok_iff {key text : String} {s : Substitution} :
    parse key text = .ok s ↔
      s.text = text ∧ IsSegment s.source ∧ IsSegment s.replacement ∧
        (∀ c ∈ s.flags, isFlag c = true) ∧
        Regex.compile? (s.flags.contains 'i') s.source = some s.regex := by
  constructor
  · intro h
    unfold parse at h
    dsimp only at h
    split at h
    · next rest htext =>
      split at h
      · cases h
      · next source behind hsource =>
        obtain ⟨hs, rfl⟩ := eq_escapeSlashes_of_segment? hsource
        split at h
        · cases h
        · next replacement flags hreplacement =>
          obtain ⟨hr, rfl⟩ := eq_escapeSlashes_of_segment? hreplacement
          split at h
          · cases h
          · next hflags =>
            split at h
            · next regex hregex =>
              cases h
              refine ⟨?_, hs, hr, List.dropWhile_eq_nil_iff.mp hflags, hregex⟩
              exact String.toList_injective ((toList_text _).trans htext.symm)
            · cases h
    · cases h
  · rintro ⟨rfl, hs, hr, hflags, hregex⟩
    have hnone : s.flags.dropWhile isFlag = [] := List.dropWhile_eq_nil_iff.mpr hflags
    unfold parse
    dsimp only
    simp only [toList_text, segment?_escapeSlashes hs, segment?_escapeSlashes hr, hnone, hregex]

/-- **Substitutions are printed as they are written.** Whatever text is read as a substitution, the
substitution is printed as this very text. So the printed text is read again, under every key, and
gives the same source, replacement and flags and the same lines. -/
theorem text_of_parse (key text : String) (s : Substitution) (h : parse key text = .ok s) :
    s.text = text ∧
      ∀ key', ∃ s', parse key' s.text = .ok s' ∧ s'.source = s.source ∧
        s'.replacement = s.replacement ∧ s'.flags = s.flags ∧
        ∀ line, s'.apply line = s.apply line := by
  obtain ⟨htext, hwritten⟩ := parse_eq_ok_iff.mp h
  refine ⟨htext, fun key' => ?_⟩
  have hagain : parse key' s.text = .ok s := parse_eq_ok_iff.mpr ⟨rfl, hwritten⟩
  exact ⟨s, hagain, rfl, rfl, rfl, fun _ => rfl⟩

/-- A text with an escaped slash, a doubled backslash in front of the slash that ends a segment, and a
flag that is given twice. -/
def doubledBackslash : String := "/a\\/b\\\\/\\/$&\\d/gyg"

theorem text_of_parse_doubledBackslash :
    ∃ s, parse "searchAndReplace" doubledBackslash = .ok s ∧ s.text = doubledBackslash := by
  have hok : (parse "searchAndReplace" doubledBackslash).toOption.isSome = true := by
    decide +kernel
  obtain ⟨s, hs⟩ := Option.isSome_iff_exists.mp hok
  have hparse := toOption_eq_some.mp hs
  exact ⟨s, hparse, (text_of_parse _ _ s hparse).1⟩

end Doctest.Substitution
