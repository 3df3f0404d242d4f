import Doctest.Proofs.FaultPlaces

/-!
# Offsets and lines

Line numbers and byte offsets go together: an offset has the number of newline bytes in front of it as
its line, up to counting from one, and lies in the span of that line.

* `Splits`, `splits_binarySearch`: what looking up a value in an ordered table finds.
* `LineAt`: a text as one of its lines and what stands around it; `exists_lineAt_of_append` finds the line
  of a place, `exists_lineAt` the line with a number.
* `LineAt.lineNumber_eq`, `LineAt.lineSpan_eq`: the number and the span of such a line.
* `offsets_correspond`: the whole correspondence for one source text.
-/

namespace Doctest

/-! ## Looking up in an ordered table -/

/-- The entries in front of the place do not pass the value, and all others do. -/
structure Splits (table : Array Nat) (value place : Nat) : Prop where
  le_size : place ≤ table.size
  below : ∀ i (hi : i < table.size), i < place → table[i] ≤ value
  above : ∀ i (hi : i < table.size), place ≤ i → value < table[i]

theorem Splits.countP_eq {table : Array Nat} {value place : Nat} (h : Splits table value place) :
    table.toList.countP (· ≤ value) = place := by
  have hbelow : ∀ a ∈ table.toList.take place, decide (a ≤ value) = true := by
    intro a ha
    obtain ⟨i, hi, rfl⟩ := List.mem_take_iff_getElem.mp ha
    simpa using h.below i (by simpa using (Nat.lt_min.mp hi).2) (Nat.lt_min.mp hi).1
  have habove : ∀ a ∈ table.toList.drop place, ¬ decide (a ≤ value) = true := by
    intro a ha
    obtain ⟨i, hi, rfl⟩ := List.mem_drop_iff_getElem.mp ha
    simpa using h.above (place + i) (by simpa [Nat.add_comm] using hi) (Nat.le_add_right _ _)
  have hsize : place ≤ table.toList.length := by simpa using h.le_size
  rw [← List.take_append_drop place table.toList, List.countP_append,
    List.countP_eq_length.mpr hbelow, List.countP_eq_zero.mpr habove, List.length_take,
    Nat.min_eq_left hsize, Nat.add_zero]

/-- Looking up keeps the value between the entries below `low` and those from `high` on. -/
theorem splits_binarySearch {table : Array Nat} (hsorted : table.toList.Pairwise (· < ·))
    {value low high : Nat} {h : high ≤ table.size} (hlow : low ≤ high)
    (hbelow : ∀ i (hi : i < table.size), i < low → table[i] < value)
    (habove : ∀ i (hi : i < table.size), high ≤ i → value < table[i]) :
    Splits table value (match binarySearch table value low high h with
      | .ok place => place + 1
      | .error place => place) := by
  have hlt : ∀ i j (hi : i < table.size) (hj : j < table.size), i < j → table[i] < table[j] :=
    fun i j hi hj hij => List.pairwise_iff_getElem.mp hsorted i j hi hj hij
  have hle : ∀ i j (hi : i < table.size) (hj : j < table.size), i ≤ j → table[i] ≤ table[j] := by
    intro i j hi hj hij
    rcases Nat.lt_or_eq_of_le hij with hij | rfl
    · exact Nat.le_of_lt (hlt i j hi hj hij)
    · exact Nat.le_refl _
  fun_induction binarySearch table value low high h with
  | case1 low high h hlow middle hmiddle heq =>
    refine ⟨Nat.lt_of_lt_of_le hmiddle h, fun i hi hi' => ?_, fun i hi hi' => ?_⟩
    · exact heq ▸ hle i middle hi _ (Nat.le_of_lt_succ hi')
    · exact heq ▸ hlt middle i _ hi hi'
  | case2 low high h hlow middle hmiddle hne hless ih =>
    exact ih (by omega) (fun i hi hi' =>
      Nat.lt_of_le_of_lt (hle i middle hi _ (Nat.le_of_lt_succ hi')) hless) habove
  | case3 low high h hlow middle hmiddle hne hless ih =>
    have hmore : value < table[middle] := by omega
    exact ih (by omega) hbelow (fun i hi hi' => Nat.lt_of_lt_of_le hmore (hle middle i _ hi hi'))
  | case4 low high h hlow' =>
    exact ⟨Nat.le_trans hlow h, fun i hi hi' => Nat.le_of_lt (hbelow i hi hi'),
      fun i hi hi' => habove i hi (Nat.le_trans (Nat.le_of_not_lt hlow') hi')⟩

namespace Source

variable {source front line back : List Char} {offset number : Nat}

/-! ## Bytes -/

/-- The UTF-8 form of a text. -/
def utf8 (cs : List Char) : List UInt8 := cs.flatMap String.utf8EncodeChar

/-- The byte of a newline. -/
def newline : UInt8 := 10

@[simp] theorem byteLength_nil : byteLength [] = 0 := rfl

@[simp] theorem byteLength_cons (c : Char) (cs : List Char) :
    byteLength (c :: cs) = c.utf8Size + byteLength cs := rfl

@[simp] theorem byteLength_append (as bs : List Char) :
    byteLength (as ++ bs) = byteLength as + byteLength bs := by
  induction as with
  | nil => simp
  | cons a as ih => simp [ih, Nat.add_assoc]

theorem utf8ByteSize_ofList (cs : List Char) : (String.ofList cs).utf8ByteSize = byteLength cs := by
  induction cs with
  | nil => rfl
  | cons c cs ih => simp [String.ofList_cons, ih]

theorem utf8_cons (c : Char) (cs : List Char) :
    utf8 (c :: cs) = String.utf8EncodeChar c ++ utf8 cs := List.flatMap_cons

theorem utf8_append (as bs : List Char) : utf8 (as ++ bs) = utf8 as ++ utf8 bs := List.flatMap_append

@[simp] theorem length_utf8 (cs : List Char) : (utf8 cs).length = byteLength cs := by
  induction cs with
  | nil => rfl
  | cons c cs ih =>
    rw [utf8_cons, List.length_append, String.length_utf8EncodeChar, ih, byteLength_cons]

/-- A byte is the character itself or none of the first 128 characters. -/
theorem toNat_of_mem_utf8EncodeChar {c : Char} {b : UInt8} (hb : b ∈ String.utf8EncodeChar c) :
    b.toNat = c.toNat ∨ 0x80 ≤ b.toNat := by
  have hbyte : ∀ n, b = UInt8.ofNat n → b.toNat = n % 256 := by
    rintro n rfl
    exact UInt8.toNat_ofNat'
  have hc : c.val.toNat = c.toNat := rfl
  unfold String.utf8EncodeChar at hb
  simp only [hc] at hb
  -- The forms of one, two, three and four bytes.
  split at hb
  · have := hbyte _ (List.mem_singleton.mp hb)
    omega
  · split at hb
    · simp only [List.mem_cons, List.not_mem_nil, or_false] at hb
      rcases hb with hb | hb <;> have := hbyte _ hb <;> omega
    · split at hb
      · simp only [List.mem_cons, List.not_mem_nil, or_false] at hb
        rcases hb with hb | hb | hb <;> have := hbyte _ hb <;> omega
      · simp only [List.mem_cons, List.not_mem_nil, or_false] at hb
        rcases hb with hb | hb | hb | hb <;> have := hbyte _ hb <;> omega

theorem newline_notMem_utf8EncodeChar {c : Char} (hc : c ≠ '\n') :
    newline ∉ String.utf8EncodeChar c := by
  intro hmem
  rcases toNat_of_mem_utf8EncodeChar hmem with h | h
  · exact hc (Char.toNat_inj.mp h.symm)
  · exact absurd h (by decide)

/-- No other character has a newline among its bytes. -/
theorem count_utf8 (cs : List Char) : (utf8 cs).count newline = cs.count '\n' := by
  induction cs with
  | nil => rfl
  | cons c cs ih =>
    rw [utf8_cons, List.count_append, ih, List.count_cons]
    by_cases hc : c = '\n'
    · subst hc
      have hone : (String.utf8EncodeChar '\n').count newline = 1 := by decide
      simp [hone, Nat.add_comm]
    · simp [List.count_eq_zero.mpr (newline_notMem_utf8EncodeChar hc), hc]

theorem newline_notMem_utf8 (hline : '\n' ∉ line) : newline ∉ utf8 line := by
  rw [← List.count_eq_zero, count_utf8]
  exact List.count_eq_zero.mpr hline

/-! ## Line starts -/

theorem startsFrom_append (offset : Nat) (as bs : List Char) :
    startsFrom offset (as ++ bs) = startsFrom offset as ++ startsFrom (offset + byteLength as) bs := by
  induction as generalizing offset with
  | nil => simp [startsFrom]
  | cons a as ih =>
    simp only [List.cons_append, startsFrom, ih, byteLength_cons, Nat.add_assoc]
    split <;> rfl

theorem length_startsFrom (offset : Nat) (cs : List Char) :
    (startsFrom offset cs).length = cs.count '\n' := by
  induction cs generalizing offset with
  | nil => rfl
  | cons c cs ih =>
    simp only [startsFrom]
    by_cases hc : c = '\n' <;> simp [hc, ih]

theorem startsFrom_line (hline : '\n' ∉ line) (offset : Nat) : startsFrom offset line = [] := by
  rw [← List.length_eq_zero_iff, length_startsFrom, List.count_eq_zero]
  exact hline

theorem mem_startsFrom {cs : List Char} {start : Nat} (h : start ∈ startsFrom offset cs) :
    offset < start ∧ start ≤ offset + byteLength cs := by
  induction cs generalizing offset with
  | nil => cases h
  | cons c cs ih =>
    have hpos := c.utf8Size_pos
    have hrest : start ∈ startsFrom (offset + c.utf8Size) cs →
        offset < start ∧ start ≤ offset + byteLength (c :: cs) := by
      intro hstart
      have := ih hstart
      simp only [byteLength_cons]
      omega
    simp only [startsFrom] at h
    split at h
    · rcases List.mem_cons.mp h with rfl | h
      · simp only [byteLength_cons]
        omega
      · exact hrest h
    · exact hrest h

theorem pairwise_startsFrom (offset : Nat) (cs : List Char) :
    (startsFrom offset cs).Pairwise (· < ·) := by
  induction cs generalizing offset with
  | nil => exact .nil
  | cons c cs ih =>
    simp only [startsFrom]
    split
    · exact .cons (fun start hstart => (mem_startsFrom hstart).1) (ih _)
    · exact ih _

theorem size_lineStarts (source : List Char) :
    (lineStarts source).size = source.count '\n' + 1 := by
  simp [lineStarts, length_startsFrom]

theorem pairwise_lineStarts (source : List Char) : (lineStarts source).toList.Pairwise (· < ·) :=
  .cons (fun start hstart => by simpa using (mem_startsFrom hstart).1) (pairwise_startsFrom 0 source)

/-- As many lines as start at the offset or before it. -/
theorem lineNumber_eq_countP (source : List Char) (offset : Nat) :
    lineNumber source offset = (lineStarts source).toList.countP (· ≤ offset) := by
  refine (Splits.countP_eq (splits_binarySearch (pairwise_lineStarts source) (Nat.zero_le _) ?_ ?_)).symm
  · intro i hi hi'
    exact absurd hi' (Nat.not_lt_zero i)
  · intro i hi hi'
    exact absurd hi (Nat.not_lt_of_le hi')

theorem lineNumber_le {o o' : Nat} (hle : o ≤ o') : lineNumber source o ≤ lineNumber source o' := by
  rw [lineNumber_eq_countP, lineNumber_eq_countP]
  exact List.countP_mono_left fun start _ hstart => by
    simpa using Nat.le_trans (by simpa using hstart) hle

/-! ## Lines with what stands around them -/

/-- The line with the number stands between the two parts of the text. -/
structure LineAt (source : List Char) (number : Nat) (front line back : List Char) : Prop where
  source_eq : source = front ++ line ++ back
  line_ends : '\n' ∉ line
  front_ends : ∀ c ∈ front.getLast?, c = '\n'
  back_starts : ∀ c ∈ back.head?, c = '\n'
  number_eq : number = front.count '\n' + 1

/-- Every place of a text lies in a line. -/
theorem exists_lineAt_of_append (as bs : List Char) :
    ∃ front as' bs' back, as = front ++ as' ∧ bs = bs' ++ back ∧
      LineAt (as ++ bs) (as.count '\n' + 1) front (as' ++ bs') back := by
  obtain ⟨as', has', has, hfront⟩ := Text.exists_dropEnd_append (· ≠ '\n') as
  have hbs' : ∀ c ∈ bs.takeWhile (· ≠ '\n'), c ≠ '\n' := fun c hc => by
    simpa using List.all_eq_true.mp List.all_takeWhile c hc
  have hback : ∀ c ∈ (bs.dropWhile (· ≠ '\n')).head?, c = '\n' := fun c hc => by
    have hhead := List.head?_dropWhile_not (· ≠ '\n') bs
    rw [hc] at hhead
    simpa using hhead
  have has'' : '\n' ∉ as' := fun h => absurd (has' _ h) (by simp)
  refine ⟨_, as', bs.takeWhile (· ≠ '\n'), bs.dropWhile (· ≠ '\n'), has,
    List.takeWhile_append_dropWhile.symm, ?_⟩
  constructor
  · rw [List.append_assoc, List.append_assoc, List.takeWhile_append_dropWhile, ← List.append_assoc,
      ← has]
  · rw [List.mem_append]
    rintro (h | h)
    · exact has'' h
    · exact hbs' _ h rfl
  · intro c hc
    simpa using hfront c hc
  · exact hback
  · conv_lhs => rw [has]
    rw [List.count_append, List.count_eq_zero.mpr has'', Nat.add_zero]

/-- In front of some place there are as many newlines as one likes, up to the number of all. -/
theorem exists_append_count {n : Nat} (h : n ≤ source.count '\n') :
    ∃ as bs, source = as ++ bs ∧ as.count '\n' = n := by
  induction source generalizing n with
  | nil => exact ⟨[], [], rfl, (Nat.le_zero.mp h).symm⟩
  | cons c cs ih =>
    cases n with
    | zero => exact ⟨[], c :: cs, rfl, rfl⟩
    | succ n =>
      by_cases hc : c = '\n'
      · subst hc
        have hn : n ≤ cs.count '\n' := by simpa using h
        obtain ⟨as, bs, rfl, hcount⟩ := ih hn
        exact ⟨'\n' :: as, bs, rfl, by simp [hcount]⟩
      · have hn : n + 1 ≤ cs.count '\n' := by simpa [hc] using h
        obtain ⟨as, bs, rfl, hcount⟩ := ih hn
        exact ⟨c :: as, bs, rfl, by simp [hc, hcount]⟩

theorem exists_lineAt (h : HasLine source number) :
    ∃ front line back, LineAt source number front line back := by
  obtain ⟨hpos, hle⟩ := h
  have hle' : number - 1 ≤ source.count '\n' := by omega
  obtain ⟨as, bs, rfl, hcount⟩ := exists_append_count hle'
  obtain ⟨front, as', bs', back, -, -, hline⟩ := exists_lineAt_of_append as bs
  rw [hcount, Nat.sub_add_cancel hpos] at hline
  exact ⟨front, as' ++ bs', back, hline⟩

namespace LineAt

/-- The starts of the lines up to this one, and those of the lines behind it. -/
theorem exists_lineStarts (h : LineAt source number front line back) :
    ∃ before, (lineStarts source).toList =
        before ++ startsFrom (byteLength front + byteLength line) back ∧
      before.length = number ∧ before.getLast? = some (byteLength front) ∧
      ∀ start ∈ before, start ≤ byteLength front := by
  refine ⟨0 :: startsFrom 0 front, ?_, ?_, ?_, ?_⟩
  · rw [lineStarts, h.source_eq, startsFrom_append, startsFrom_append, startsFrom_line h.line_ends]
    simp
  · rw [List.length_cons, length_startsFrom, h.number_eq]
  · rcases List.eq_nil_or_concat' front with rfl | ⟨front', c, rfl⟩
    · rfl
    · obtain rfl := h.front_ends c (by simp)
      have hlast : startsFrom (0 + byteLength front') ['\n'] = [byteLength (front' ++ ['\n'])] := by
        simp [startsFrom]
      rw [startsFrom_append, hlast, ← List.cons_append, List.getLast?_concat]
  · intro start hstart
    rcases List.mem_cons.mp hstart with rfl | hstart
    · exact Nat.zero_le _
    · simpa using (mem_startsFrom hstart).2

/-- The line holds all offsets from its first character to its end. -/
theorem lineNumber_eq (h : LineAt source number front line back) (hstart : byteLength front ≤ offset)
    (hstop : offset ≤ byteLength front + byteLength line) : lineNumber source offset = number := by
  obtain ⟨before, hstarts, hlength, -, hbefore⟩ := h.exists_lineStarts
  have hcount : before.countP (· ≤ offset) = before.length :=
    List.countP_eq_length.mpr fun start hmem => by
      simpa using Nat.le_trans (hbefore start hmem) hstart
  have hafter : (startsFrom (byteLength front + byteLength line) back).countP (· ≤ offset) = 0 :=
    List.countP_eq_zero.mpr fun start hmem => by
      simpa using Nat.lt_of_le_of_lt hstop (mem_startsFrom hmem).1
  rw [lineNumber_eq_countP, hstarts, List.countP_append, hcount, hafter, hlength, Nat.add_zero]

theorem dropBytes_append (as bs : List Char) : dropBytes (byteLength as) (as ++ bs) = bs := by
  induction as with
  | nil => cases bs <;> rfl
  | cons a as ih =>
    have hne : a.utf8Size + byteLength as ≠ 0 := by
      have := a.utf8Size_pos
      omega
    rw [List.cons_append, byteLength_cons, dropBytes, if_neg hne, Nat.add_sub_cancel_left, ih]

/-- The span of the line has the line itself in it and nothing else. -/
theorem lineSpan_eq (h : LineAt source number front line back) :
    lineSpan source number = ⟨byteLength front, byteLength front + byteLength line⟩ := by
  obtain ⟨before, hstarts, hlength, hlast, -⟩ := h.exists_lineStarts
  have hpos : number - 1 < before.length := by
    have := h.number_eq
    omega
  have hstart : (lineStarts source)[number - 1]? = some (byteLength front) := by
    rw [← Array.getElem?_toList, hstarts, List.getElem?_append_left hpos, ← hlength,
      ← List.getLast?_eq_getElem?, hlast]
  have hrest : dropBytes (byteLength front) source = line ++ back := by
    rw [h.source_eq, List.append_assoc, dropBytes_append]
  simp only [lineSpan, hstart, hrest]
  cases back with
  | nil =>
    rw [List.append_nil, Text.splitFirst?_eq_none_iff.mpr h.line_ends, h.source_eq]
    simp
  | cons c back =>
    obtain rfl := h.back_starts c rfl
    rw [Text.splitFirst?_eq_some_iff.mpr ⟨h.line_ends, rfl⟩]

theorem count_take_utf8 (h : LineAt source number front line back) (hstart : byteLength front ≤ offset)
    (hstop : offset ≤ byteLength front + byteLength line) :
    1 + ((utf8 source).take offset).count newline = number := by
  have hfront : (utf8 front).take offset = utf8 front := List.take_of_length_le (by simpa using hstart)
  have hline : ((utf8 line).take (offset - byteLength front)).count newline = 0 :=
    List.count_eq_zero.mpr fun hmem => newline_notMem_utf8 h.line_ends (List.mem_of_mem_take hmem)
  have hlength : offset - (utf8 front).length ≤ (utf8 line).length := by
    rw [length_utf8, length_utf8]
    omega
  rw [h.source_eq, List.append_assoc, utf8_append, utf8_append, List.take_append, hfront,
    List.take_append_of_le_length hlength, List.count_append, length_utf8, hline, count_utf8,
    h.number_eq, Nat.add_zero, Nat.add_comm]

end LineAt

/-- An offset up to the length is in front of the first character of a rest, or within it. -/
theorem exists_append_of_offset (h : offset ≤ byteLength source) :
    ∃ as bs, source = as ++ bs ∧ byteLength as ≤ offset ∧
      ∀ c ∈ bs.head?, offset < byteLength as + c.utf8Size := by
  induction source generalizing offset with
  | nil => exact ⟨[], [], rfl, Nat.zero_le _, by simp⟩
  | cons c cs ih =>
    by_cases hc : offset < c.utf8Size
    · exact ⟨[], c :: cs, rfl, Nat.zero_le _, by simpa using hc⟩
    · rw [byteLength_cons] at h
      have hoffset : offset - c.utf8Size ≤ byteLength cs := by omega
      obtain ⟨as, bs, rfl, has, hbs⟩ := ih hoffset
      refine ⟨c :: as, bs, rfl, ?_, fun d hd => ?_⟩
      · rw [byteLength_cons]
        omega
      · have := hbs d hd
        rw [byteLength_cons]
        omega

theorem exists_lineAt_of_offset (h : offset ≤ byteLength source) :
    ∃ number front line back, LineAt source number front line back ∧
      byteLength front ≤ offset ∧ offset ≤ byteLength front + byteLength line := by
  obtain ⟨as, bs, rfl, has, hbs⟩ := exists_append_of_offset h
  obtain ⟨front, as', bs', back, rfl, rfl, hline⟩ := exists_lineAt_of_append as bs
  refine ⟨_, front, as' ++ bs', back, hline, ?_, ?_⟩
  · rw [byteLength_append] at has
    omega
  · simp only [byteLength_append] at h hbs ⊢
    cases bs' with
    | cons c bs' =>
      have := hbs c rfl
      rw [byteLength_cons]
      omega
    | nil =>
      cases back with
      | nil => simpa using h
      | cons c back =>
        -- A newline has one byte.
        obtain rfl := hline.back_starts c rfl
        have := hbs '\n' rfl
        have hsize : '\n'.utf8Size = 1 := rfl
        omega

/-! ## Spans -/

/-- The bytes of a source in a span. -/
def bytesIn (source : List Char) (span : Span) : List UInt8 :=
  ((utf8 source).drop span.start).take (span.stop - span.start)

/-- The span is within the source and cuts no character in two. -/
structure Inside (source : List Char) (span : Span) : Prop where
  start_le : span.start ≤ span.stop
  stop_le : span.stop ≤ byteLength source
  start_isValid : (String.Pos.Raw.mk span.start).IsValid (String.ofList source)
  stop_isValid : (String.Pos.Raw.mk span.stop).IsValid (String.ofList source)

theorem isValid_byteLength (as bs : List Char) :
    (String.Pos.Raw.mk (byteLength as)).IsValid (String.ofList (as ++ bs)) := by
  refine String.Pos.Raw.isValid_ofList.mpr ⟨as.length, ?_⟩
  rw [List.take_left, utf8ByteSize_ofList]

theorem LineAt.bytesIn_lineSpan (h : LineAt source number front line back) :
    bytesIn source (lineSpan source number) = utf8 line := by
  rw [h.lineSpan_eq, bytesIn, h.source_eq, List.append_assoc, utf8_append, utf8_append,
    ← length_utf8 front, List.drop_left, Nat.add_sub_cancel_left, ← length_utf8 line, List.take_left]

theorem LineAt.getElem?_stop (h : LineAt source number front line back) :
    (utf8 source)[(lineSpan source number).stop]? = some newline ∨
      (lineSpan source number).stop = byteLength source := by
  rw [h.lineSpan_eq]
  cases back with
  | nil =>
    right
    rw [h.source_eq, List.append_nil, byteLength_append]
  | cons c back =>
    left
    obtain rfl := h.back_starts c rfl
    have hstop : byteLength front + byteLength line = (utf8 (front ++ line)).length := by
      rw [length_utf8, byteLength_append]
    rw [h.source_eq, utf8_append, hstop, List.getElem?_append_right (Nat.le_refl _), Nat.sub_self]
    rfl

theorem LineAt.inside (h : LineAt source number front line back) :
    Inside source (lineSpan source number) := by
  rw [h.lineSpan_eq]
  refine ⟨Nat.le_add_right _ _, ?_, ?_, ?_⟩
  · rw [h.source_eq, byteLength_append, byteLength_append]
    exact Nat.le_add_right _ _
  · rw [h.source_eq, List.append_assoc]
    exact isValid_byteLength front (line ++ back)
  · rw [h.source_eq, ← byteLength_append]
    exact isValid_byteLength (front ++ line) back

/-- Also the span of a line that the source does not have is within the source. -/
theorem inside_lineSpan (source : List Char) (number : Nat) :
    Inside source (lineSpan source number) := by
  by_cases hsize : number - 1 < (lineStarts source).size
  · have hnumber : HasLine source (number - 1 + 1) := by
      rw [size_lineStarts] at hsize
      exact ⟨Nat.le_add_left 1 _, hsize⟩
    obtain ⟨front, line, back, hline⟩ := exists_lineAt hnumber
    have hinside := hline.inside
    -- Line zero is the first one.
    unfold lineSpan at hinside ⊢
    rwa [Nat.add_sub_cancel] at hinside
  · have hend : lineSpan source number = ⟨byteLength source, byteLength source⟩ := by
      rw [lineSpan, Array.getElem?_eq_none (Nat.le_of_not_lt hsize)]
    have hvalid := isValid_byteLength source []
    rw [List.append_nil] at hvalid
    rw [hend]
    exact ⟨Nat.le_refl _, Nat.le_refl _, hvalid, hvalid⟩

/-- The characters take two and three bytes. There is no line zero and no third line. -/
example : [0, 1, 2, 3].map (lineSpan "é\n∀".toList) = [⟨0, 2⟩, ⟨0, 2⟩, ⟨3, 6⟩, ⟨6, 6⟩] := by decide

/-- **Offsets and lines.** Up to the length of a source the line of an offset is one more than the
newline bytes in front of it, lines do not decrease, and the offset lies in the span of its line. The
span of a line of the source starts on this line, has no newline in it, and ends at the next newline or
at the end of the source. Whatever number is asked for, the span is within the source and starts and
ends between characters, and so does what a fault on a line marks. -/
theorem offsets_correspond (source : List Char) :
    (∀ o ≤ byteLength source,
      lineNumber source o = 1 + ((utf8 source).take o).count newline ∧
      (∀ o' ≤ o, lineNumber source o' ≤ lineNumber source o) ∧
      (lineSpan source (lineNumber source o)).start ≤ o ∧
      o ≤ (lineSpan source (lineNumber source o)).stop) ∧
    (∀ n, HasLine source n →
      lineNumber source (lineSpan source n).start = n ∧
      newline ∉ bytesIn source (lineSpan source n) ∧
      ((utf8 source)[(lineSpan source n).stop]? = some newline ∨
        (lineSpan source n).stop = byteLength source)) ∧
    (∀ n, Inside source (lineSpan source n)) ∧
    ∀ (fault : Fault) (n : Nat), fault.place = some (.line n) →
      ∃ label, (fault.diagnostic source).labels = [label] ∧ Inside source label := by
  refine ⟨fun o ho => ?_, fun n hn => ?_, inside_lineSpan source, fun fault n hplace => ?_⟩
  · obtain ⟨number, front, line, back, hline, hstart, hstop⟩ := exists_lineAt_of_offset ho
    have hnumber := hline.lineNumber_eq hstart hstop
    refine ⟨?_, fun o' ho' => lineNumber_le ho', ?_, ?_⟩
    · rw [hnumber, hline.count_take_utf8 hstart hstop]
    · rw [hnumber, hline.lineSpan_eq]
      exact hstart
    · rw [hnumber, hline.lineSpan_eq]
      exact hstop
  · obtain ⟨front, line, back, hline⟩ := exists_lineAt hn
    refine ⟨?_, ?_, hline.getElem?_stop⟩
    · rw [hline.lineSpan_eq]
      exact hline.lineNumber_eq (Nat.le_refl _) (Nat.le_add_right _ _)
    · rw [hline.bytesIn_lineSpan]
      exact newline_notMem_utf8 hline.line_ends
  · refine ⟨lineSpan source n, ?_, inside_lineSpan source n⟩
    simp only [Fault.diagnostic, hplace]

/-- The last line has one character of three bytes, and the offset is within it. -/
theorem offsets_correspond_multibyte :
    let source := "é\n∀".toList
    4 ≤ byteLength source ∧ lineNumber source 4 = 2 ∧
      HasLine source 2 ∧ lineNumber source (lineSpan source 2).start = 2 := by
  intro source
  have hoffset : 4 ≤ byteLength source := by decide
  have hline : HasLine source 2 := ⟨by decide, by decide⟩
  have hcount : ((utf8 source).take 4).count newline = 1 := by decide
  obtain ⟨hoffsets, hlines, -⟩ := offsets_correspond source
  refine ⟨hoffset, ?_, hline, (hlines 2 hline).1⟩
  rw [(hoffsets 4 hoffset).1, hcount]

end Source

end Doctest
