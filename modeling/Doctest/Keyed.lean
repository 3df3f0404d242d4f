/-!
# Keyed collections

A finite map from text to values, kept as a list in the order of its keys, so that two collections
with the same entries are equal. Keys are compared by code points.
-/

namespace Doctest

/-- Keys in strictly ascending order. -/
def Ascending {α : Type} (entries : List (String × α)) : Prop :=
  entries.Pairwise fun a b => compare a.1 b.1 = .lt

/-- A finite map from text to values. -/
structure Keyed (α : Type) where
  entries : List (String × α)
  ascending : Ascending entries

namespace Keyed

variable {α : Type}

/-- Puts a value at its place in a list of entries; a value under the same key is replaced. -/
def insertEntry (k : String) (v : α) : List (String × α) → List (String × α)
  | [] => [(k, v)]
  | (k', v') :: rest =>
    match compare k k' with
    | .lt => (k, v) :: (k', v') :: rest
    | .eq => (k, v) :: rest
    | .gt => (k', v') :: insertEntry k v rest

theorem mem_insertEntry {k : String} {v : α} {e : String × α} {entries : List (String × α)}
    (h : e ∈ insertEntry k v entries) : e = (k, v) ∨ e ∈ entries := by
  induction entries with
  | nil => simpa [insertEntry] using h
  | cons head rest ih =>
    obtain ⟨k', v'⟩ := head
    simp only [insertEntry] at h
    split at h
    · simpa using h
    · rcases List.mem_cons.1 h with h | h
      · exact .inl h
      · exact .inr (List.mem_cons_of_mem _ h)
    · rcases List.mem_cons.1 h with h | h
      · exact .inr (h ▸ List.mem_cons_self)
      · rcases ih h with h | h
        · exact .inl h
        · exact .inr (List.mem_cons_of_mem _ h)

theorem ascending_insertEntry {k : String} {v : α} {entries : List (String × α)}
    (h : Ascending entries) : Ascending (insertEntry k v entries) := by
  induction entries with
  | nil => simp [insertEntry, Ascending]
  | cons head rest ih =>
    obtain ⟨k', v'⟩ := head
    have hrest : Ascending rest := (List.pairwise_cons.1 h).2
    have hhead := (List.pairwise_cons.1 h).1
    simp only [insertEntry]
    split
    · next hlt =>
      refine List.pairwise_cons.2 ⟨fun e he => ?_, h⟩
      rcases List.mem_cons.1 he with rfl | he
      · exact hlt
      · exact Std.TransCmp.lt_trans hlt (hhead e he)
    · next heq =>
      have : k = k' := Std.LawfulEqCmp.eq_of_compare heq
      subst this
      exact List.pairwise_cons.2 ⟨hhead, hrest⟩
    · next hgt =>
      refine List.pairwise_cons.2 ⟨fun e he => ?_, ih hrest⟩
      rcases mem_insertEntry he with rfl | he
      · exact Std.OrientedCmp.lt_of_gt hgt
      · exact hhead e he

/-- A new key adds its entry to the others. -/
theorem perm_insertEntry {k : String} {v : α} {entries : List (String × α)}
    (h : ∀ e ∈ entries, e.1 ≠ k) : (insertEntry k v entries).Perm ((k, v) :: entries) := by
  induction entries with
  | nil => rfl
  | cons head rest ih =>
    obtain ⟨hhead, hrest⟩ := List.forall_mem_cons.mp h
    obtain ⟨k', v'⟩ := head
    simp only [insertEntry]
    split
    · rfl
    · next heq => exact absurd (Std.LawfulEqCmp.eq_of_compare heq).symm hhead
    · exact ((ih hrest).cons _).trans (.swap ..)

/-- The map without entries. -/
def empty : Keyed α := ⟨[], .nil⟩

instance : EmptyCollection (Keyed α) := ⟨empty⟩
instance : Inhabited (Keyed α) := ⟨empty⟩

/-- The map with `v` under the key `k`, in place of what was there. -/
def insert (m : Keyed α) (k : String) (v : α) : Keyed α :=
  ⟨insertEntry k v m.entries, ascending_insertEntry m.ascending⟩

/-- The value under a key. -/
def get? (m : Keyed α) (k : String) : Option α := m.entries.lookup k

theorem lookup_cons (k k' : String) (v : α) (rest : List (String × α)) :
    ((k, v) :: rest).lookup k' = if k' = k then some v else rest.lookup k' := by
  by_cases h : k' = k
  · simp [h]
  · have hb : (k' == k) = false := by simpa using h
    rw [List.lookup_cons, hb, if_neg h]

theorem lookup_insertEntry (k k' : String) (v : α) (entries : List (String × α)) :
    (insertEntry k v entries).lookup k' = if k' = k then some v else entries.lookup k' := by
  induction entries with
  | nil => simp [insertEntry, lookup_cons]
  | cons head rest ih =>
    obtain ⟨k₀, v₀⟩ := head
    simp only [insertEntry]
    split
    · rw [lookup_cons]
    · next heq =>
      obtain rfl : k = k₀ := Std.LawfulEqCmp.eq_of_compare heq
      rw [lookup_cons, lookup_cons]
      split <;> rfl
    · next hgt =>
      have hne : k ≠ k₀ := by
        rintro rfl
        simp at hgt
      rw [lookup_cons, lookup_cons, ih]
      by_cases h : k' = k
      · simp [h, hne]
      · simp [h]

theorem get?_insert (m : Keyed α) (k k' : String) (v : α) :
    (m.insert k v).get? k' = if k' = k then some v else m.get? k' :=
  lookup_insertEntry k k' v m.entries

/-- Whether there is a value under the key. -/
def contains (m : Keyed α) (k : String) : Bool := (m.get? k).isSome

theorem contains_eq_false_iff {m : Keyed α} {k : String} :
    m.contains k = false ↔ ∀ e ∈ m.entries, e.1 ≠ k := by
  unfold contains get?
  rw [Option.isSome_eq_false_iff, Option.isNone_iff_eq_none, List.lookup_eq_none_iff]
  simp only [bne_iff_ne, ne_comm]

theorem perm_insert {m : Keyed α} {k : String} (h : m.contains k = false) (v : α) :
    (m.insert k v).entries.Perm ((k, v) :: m.entries) :=
  perm_insertEntry (contains_eq_false_iff.mp h)

/-- The keys in ascending order. -/
def keys (m : Keyed α) : List String := m.entries.map (·.1)

theorem nodup_keys (m : Keyed α) : m.keys.Nodup := by
  refine List.pairwise_map.mpr (m.ascending.imp fun hlt heq => ?_)
  simp [heq] at hlt

/-- The order of its keys makes a map the only one with its entries. -/
theorem eq_of_perm {m m' : Keyed α} (h : m.entries.Perm m'.entries) : m = m' := by
  have heq : m.entries = m'.entries := by
    refine h.eq_of_pairwise ?_ m.ascending m'.ascending
    intro a b _ _ hab hba
    have hself := Std.TransCmp.lt_trans hab hba
    simp at hself
  cases m
  cases m'
  cases heq
  rfl

theorem lookup_eq_some_iff {entries : List (String × α)} (h : Ascending entries) {k : String}
    {v : α} : entries.lookup k = some v ↔ (k, v) ∈ entries := by
  induction entries with
  | nil => simp
  | cons e rest ih =>
    obtain ⟨k', v'⟩ := e
    obtain ⟨hhead, hrest⟩ := List.pairwise_cons.mp h
    rw [lookup_cons, List.mem_cons, Prod.mk.injEq]
    by_cases hk : k = k'
    · have hnot : (k, v) ∉ rest := fun hmem => by
        have := hhead _ hmem
        simp [hk] at this
      simp [hk, hk ▸ hnot, eq_comm]
    · simp [hk, ih hrest]

/-- Maps with the same values under all keys are equal. -/
theorem ext_get? {m m' : Keyed α} (h : ∀ k, m.get? k = m'.get? k) : m = m' := by
  have hnodup (m : Keyed α) : m.entries.Nodup := m.ascending.imp fun hlt heq => by
    simp [heq] at hlt
  refine eq_of_perm ((List.perm_ext_iff_of_nodup (hnodup m) (hnodup m')).mpr fun ⟨k, v⟩ => ?_)
  rw [← lookup_eq_some_iff m.ascending, ← lookup_eq_some_iff m'.ascending]
  exact iff_of_eq (congrArg (· = some v) (h k))

/-- The map of a list of entries; of two entries with one key the later one counts. -/
def ofList (entries : List (String × α)) : Keyed α :=
  entries.foldl (fun m e => m.insert e.1 e.2) empty

/-- The entries of `newer` over those of `older`. -/
def union (older newer : Keyed α) : Keyed α :=
  newer.entries.foldl (fun m e => m.insert e.1 e.2) older

theorem get?_foldl_insert {entries : List (String × α)} (h : Ascending entries) (m : Keyed α)
    (k : String) : (entries.foldl (fun m e => m.insert e.1 e.2) m).get? k =
      (entries.lookup k).or (m.get? k) := by
  induction entries generalizing m with
  | nil => rfl
  | cons e rest ih =>
    obtain ⟨k', v'⟩ := e
    obtain ⟨hhead, hrest⟩ := List.pairwise_cons.mp h
    rw [List.foldl_cons, ih hrest, get?_insert, lookup_cons]
    by_cases hk : k = k'
    · have hnone : rest.lookup k = none := by
        rw [List.lookup_eq_none_iff]
        intro e he
        have hlt := hhead e he
        rw [bne_iff_ne, hk]
        rintro heq
        simp [heq] at hlt
      simp [hk, hk ▸ hnone]
    · simp [hk]

theorem get?_union (older newer : Keyed α) (k : String) :
    (older.union newer).get? k = (newer.get? k).or (older.get? k) :=
  get?_foldl_insert newer.ascending older k

instance [DecidableEq α] : DecidableEq (Keyed α) := fun a b =>
  if h : a.entries = b.entries then
    .isTrue (by cases a; cases b; cases h; rfl)
  else .isFalse fun hab => h (hab ▸ rfl)

instance [Repr α] : Repr (Keyed α) := ⟨fun m n => reprPrec m.entries n⟩

end Keyed

end Doctest
