import Doctest.Substitution

/-!
# What replacements stand for

A replacement is not filled in as it is written: it becomes a template first, and a template knows
names, braces and numbers that a replacement does not know. So every dollar that stands for itself has
to be doubled, and every group has to be closed off from the text behind it.

* `Reads`: the text that a replacement stands for, read from left to right without a template.
* `template_plain`, `template_whole`, `template_dollar`, `template_number`, `template_lone`: the
  template of each thing that a replacement can start with.
* `expand_template_of_reads`, `exists_reads`: the template stands for what is read, and there always is
  something to read.
* `expand_template`: both together.
-/

namespace Doctest.Substitution

open Text (isDigit digitsValue natural?_of_digits takeWhile_append_stop dropWhile_append_stop)
open Regex.Template (expand lookUp readName?)

/-! ## Reading a replacement -/

/-- The text of a group with its number in digits. A number that does not fit 64 bits is no group. -/
def numbered (group : Nat → Option (List Char)) (digits : List Char) : List Char :=
  if digitsValue digits < Nat.pow 2 64 then (group (digitsValue digits)).getD [] else []

/-- What a replacement stands for, if the groups of the match have these texts. A dollar takes along an
ampersand, a second dollar, or all digits behind it. -/
inductive Reads (group : Nat → Option (List Char)) : List Char → List Char → Prop
  | nil : Reads group [] []
  | plain {c : Char} {r t : List Char} (hc : c ≠ '$') (h : Reads group r t) :
      Reads group (c :: r) (c :: t)
  | whole {r t : List Char} (h : Reads group r t) :
      Reads group ('$' :: '&' :: r) ((group 0).getD [] ++ t)
  | dollar {r t : List Char} (h : Reads group r t) : Reads group ('$' :: '$' :: r) ('$' :: t)
  | number {digits r t : List Char} (hne : digits ≠ []) (hdigits : ∀ d ∈ digits, isDigit d)
      (hr : ∀ c ∈ r.head?, isDigit c = false) (h : Reads group r t) :
      Reads group ('$' :: (digits ++ r)) (numbered group digits ++ t)
  | lone {r t : List Char} (hr : ∀ c ∈ r.head?, c ≠ '&' ∧ c ≠ '$' ∧ isDigit c = false)
      (h : Reads group r t) : Reads group ('$' :: r) ('$' :: t)

/-- No group has a number for its name. -/
def NoDigitNames (named : String → Option Nat) : Prop :=
  ∀ digits : List Char, digits ≠ [] → (∀ d ∈ digits, isDigit d) → named (String.ofList digits) = none

/-! ## The template of a replacement -/

theorem template_nil : template [] = [] := by rw [template.eq_def]

theorem template_plain {c : Char} (hc : c ≠ '$') (r : List Char) :
    template (c :: r) = c :: template r := by
  rw [template.eq_def]
  exact if_pos hc

theorem template_whole (r : List Char) :
    template ('$' :: '&' :: r) = '$' :: '{' :: '0' :: '}' :: template r := by
  rw [template.eq_def]
  rfl

theorem template_dollar (r : List Char) :
    template ('$' :: '$' :: r) = '$' :: '$' :: template r := by
  rw [template.eq_def]
  rfl

theorem template_number {digits r : List Char} (hne : digits ≠ [])
    (hdigits : ∀ d ∈ digits, isDigit d) (hr : ∀ c ∈ r.head?, isDigit c = false) :
    template ('$' :: (digits ++ r)) = '$' :: '{' :: (digits ++ '}' :: template r) := by
  obtain ⟨d, ds, rfl⟩ := List.exists_cons_of_ne_nil hne
  obtain ⟨hd, hds⟩ := List.forall_mem_cons.mp hdigits
  have hamp : d ≠ '&' := by
    rintro rfl
    exact absurd hd (by decide)
  have hdollar : d ≠ '$' := by
    rintro rfl
    exact absurd hd (by decide)
  rw [List.cons_append, template.eq_def]
  simp [hamp, hdollar, hd, takeWhile_append_stop hds hr, dropWhile_append_stop hds hr]

theorem template_lone {r : List Char} (hr : ∀ c ∈ r.head?, c ≠ '&' ∧ c ≠ '$' ∧ isDigit c = false) :
    template ('$' :: r) = '$' :: '$' :: template r := by
  cases r with
  | nil =>
    rw [template.eq_def, template_nil]
    rfl
  | cons c r =>
    obtain ⟨hamp, hdollar, hdigit⟩ := hr c rfl
    rw [template.eq_def]
    simp [hamp, hdollar, hdigit]

/-! ## Filling in a template -/

section Expand

variable {group : Nat → Option (List Char)} {named : String → Option Nat}

theorem expand_nil : expand group named [] = [] := by rw [expand.eq_def]

theorem expand_plain {c : Char} (hc : c ≠ '$') (r : List Char) :
    expand group named (c :: r) = c :: expand group named r := by
  rw [expand.eq_def]
  exact if_pos hc

theorem expand_dollar (r : List Char) :
    expand group named ('$' :: '$' :: r) = '$' :: expand group named r := by
  rw [expand.eq_def]
  rfl

/-- A name in braces ends at the closing one, whatever follows. -/
theorem expand_braced {name : List Char} (hname : '}' ∉ name) (r : List Char) :
    expand group named ('$' :: '{' :: (name ++ '}' :: r)) =
      lookUp group named name ++ expand group named r := by
  have hread : readName? ('{' :: (name ++ '}' :: r)) = some (name, r) :=
    Text.splitFirst?_eq_some_iff.mpr ⟨hname, rfl⟩
  rw [expand.eq_def]
  simp only [ne_eq, not_true_eq_false, if_false, Char.reduceEq]
  split
  · next h =>
    rw [hread] at h
    cases h
  · next h =>
    rw [hread] at h
    cases h
    rfl

theorem lookUp_digits (hnamed : NoDigitNames named) {digits : List Char} (hne : digits ≠ [])
    (hdigits : ∀ d ∈ digits, isDigit d) : lookUp group named digits = numbered group digits := by
  unfold lookUp numbered
  rw [natural?_of_digits hne hdigits]
  by_cases hlt : digitsValue digits < Nat.pow 2 64
  · rw [if_pos hlt, if_pos hlt]
  · rw [if_neg hlt, if_neg hlt, hnamed digits hne hdigits]
    rfl

theorem expand_template_of_reads (hnamed : NoDigitNames named) {r t : List Char}
    (h : Reads group r t) : expand group named (template r) = t := by
  induction h with
  | nil => rw [template_nil, expand_nil]
  | plain hc _ ih => rw [template_plain hc, expand_plain hc, ih]
  | whole _ ih =>
    have h0 : lookUp group named ['0'] = (group 0).getD [] := rfl
    have hbrace : '}' ∉ ['0'] := by decide
    rw [template_whole, ← h0, ← ih]
    exact expand_braced hbrace _
  | dollar _ ih => rw [template_dollar, expand_dollar, ih]
  | @number digits _ _ hne hdigits hr _ ih =>
    have hbrace : '}' ∉ digits := fun h => absurd (hdigits '}' h) (by decide)
    rw [template_number hne hdigits hr, expand_braced hbrace, lookUp_digits hnamed hne hdigits, ih]
  | lone hr _ ih => rw [template_lone hr, expand_dollar, ih]

end Expand

/-- Every replacement stands for something. -/
theorem exists_reads (group : Nat → Option (List Char)) (r : List Char) : ∃ t, Reads group r t := by
  have hdollar : ∀ {d : Char}, ¬ d ≠ '$' → d = '$' := fun hd => Decidable.not_not.mp hd
  induction r using template.induct with
  | case1 => exact ⟨_, .nil⟩
  | case2 c r hc ih =>
    obtain ⟨t, ht⟩ := ih
    exact ⟨_, .plain hc ht⟩
  | case3 d hd =>
    obtain rfl := hdollar hd
    exact ⟨_, .lone (by rintro _ ⟨⟩) .nil⟩
  | case4 d hd r ih =>
    obtain rfl := hdollar hd
    obtain ⟨t, ht⟩ := ih
    exact ⟨_, .whole ht⟩
  | case5 d hd r _ ih =>
    obtain rfl := hdollar hd
    obtain ⟨t, ht⟩ := ih
    exact ⟨_, .dollar ht⟩
  | case6 d hd c r _ _ hc _ ih =>
    obtain rfl := hdollar hd
    obtain ⟨t, ht⟩ := ih
    have hdigits : ∀ e ∈ c :: r.takeWhile isDigit, isDigit e :=
      List.forall_mem_cons.mpr ⟨hc, List.all_eq_true.mp List.all_takeWhile⟩
    have hstop : ∀ e ∈ (r.dropWhile isDigit).head?, isDigit e = false := by
      intro e he
      have hhead := List.head?_dropWhile_not isDigit r
      rw [he] at hhead
      exact hhead
    have hread := Reads.number (List.cons_ne_nil _ _) hdigits hstop ht
    rw [List.cons_append, List.takeWhile_append_dropWhile] at hread
    exact ⟨_, hread⟩
  | case7 d hd c r hamp hne hc ih =>
    obtain rfl := hdollar hd
    obtain ⟨t, ht⟩ := ih
    refine ⟨_, .lone ?_ ht⟩
    rintro _ ⟨⟩
    exact ⟨hamp, hne, by simpa using hc⟩

section Meaning

variable {group : Nat → Option (List Char)} {named : String → Option Nat} {r t : List Char}

theorem reads_iff (hnamed : NoDigitNames named) :
    Reads group r t ↔ expand group named (template r) = t := by
  constructor
  · exact expand_template_of_reads hnamed
  · rintro rfl
    obtain ⟨t, ht⟩ := exists_reads group r
    rw [expand_template_of_reads hnamed ht]
    exact ht

/-- A dollar at the end stands for itself, unless another one takes it along. -/
theorem Reads.concat_dollar (h : Reads group r t) (hlast : r.getLast? ≠ some '$') :
    Reads group (r ++ ['$']) (t ++ ['$']) := by
  have hbehind : ∀ (front : List Char) {r : List Char}, (front ++ r).getLast? ≠ some '$' →
      r.getLast? ≠ some '$' := by
    intro front r h hr
    rw [List.getLast?_append, hr] at h
    exact h rfl
  induction h with
  | nil => exact .lone (by rintro _ ⟨⟩) .nil
  | @plain c _ _ hc _ ih => exact .plain hc (ih (hbehind [c] hlast))
  | whole _ ih =>
    rw [List.append_assoc]
    exact .whole (ih (hbehind ['$', '&'] hlast))
  | dollar _ ih => exact .dollar (ih (hbehind ['$', '$'] hlast))
  | @number digits r _ hne hdigits hr _ ih =>
    have hstop : ∀ c ∈ (r ++ ['$']).head?, isDigit c = false := by
      cases r with
      | nil =>
        rintro _ ⟨⟩
        rfl
      | cons c r => exact hr
    rw [List.cons_append, List.append_assoc, List.append_assoc]
    exact .number hne hdigits hstop (ih (hbehind ('$' :: digits) hlast))
  | @lone r _ hr _ ih =>
    cases r with
    | nil => exact absurd rfl hlast
    | cons c r => exact .lone hr (ih (hbehind ['$'] hlast))

/-- **Replacements mean as templates what they say.** Whatever the groups of the match are, the
template of a replacement stands for what the replacement gives when it is read from left to right, and
so does what a match is replaced with. No name is a group, with braces or without them, and neither is
a dollar at the end. -/
theorem expand_template (group : Nat → Option (List Char)) (named : String → Option Nat)
    (hnamed : NoDigitNames named) (r : List Char) :
    (∀ t, Reads group r t ↔ expand group named (template r) = t) ∧
    (∀ c, c ≠ '&' → c ≠ '$' → isDigit c = false →
      expand group named (template ('$' :: c :: r)) = '$' :: c :: expand group named (template r)) ∧
    (r.getLast? ≠ some '$' →
      expand group named (template (r ++ ['$'])) = expand group named (template r) ++ ['$']) ∧
    ∀ (s : Substitution) (line : Array Char) (slots : Regex.Slots), s.replacement = r →
      Reads (Regex.groupText? line slots) r (s.expansion line slots) := by
  refine ⟨fun t => reads_iff hnamed, fun c hamp hdollar hdigit => ?_, fun hlast => ?_, ?_⟩
  · have hr : ∀ e ∈ (c :: r).head?, e ≠ '&' ∧ e ≠ '$' ∧ isDigit e = false := by
      rintro _ ⟨⟩
      exact ⟨hamp, hdollar, hdigit⟩
    rw [template_lone hr, expand_dollar, template_plain hdollar, expand_plain hdollar]
  · exact (reads_iff hnamed).mp (((reads_iff hnamed).mpr rfl).concat_dollar hlast)
  · rintro s line slots rfl
    exact (reads_iff fun _ _ _ => rfl).mpr rfl

end Meaning

/-- A group with the name `n`, which is also the first one. -/
def namedFirst (name : String) : Option Nat := if name = "n" then some 1 else none

theorem noDigitNames_namedFirst : NoDigitNames namedFirst := by
  intro digits _ hdigits
  refine if_neg fun hname => ?_
  have hlist : digits = ['n'] := by
    rw [← String.toList_ofList (l := digits), hname]
    rfl
  exact absurd (hdigits 'n' (by simp [hlist])) (by decide)

/-- Names, braces, leading zeros and doubled dollars next to each other. -/
theorem expand_template_namedFirst :
    NoDigitNames namedFirst ∧
      Reads (fun n => if n = 1 then some ['a'] else none) "$n$\x7b1\x7d$01$$1$2$".toList
        "$n$\x7b1\x7da$1$".toList := by
  refine ⟨noDigitNames_namedFirst, ?_⟩
  exact ((expand_template _ namedFirst noDigitNames_namedFirst _).1 _).mpr (by decide +kernel)

end Doctest.Substitution
