import Doctest.Config

/-!
# What a language is looked up as

A definition takes the fields that it does not set from the language that it extends. The lookup
recurses along that chain with the keys passed so far. Here its result is compared with the chain
itself, which is only a list of keys and definitions that lead from one to the next.

* `Chain`: the command definitions from a key on, up to one that extends nothing or a key that is
  left to be looked up. `Breaks` says when that key is a fault.
* `exists_chain`: from a command definition on there is always a chain without repetition that is
  at its end, since a chain that visits nothing twice cannot go on forever.
* `lang?_eq_iff`: the result of a lookup is the one that the chain calls for, and no other.
-/

namespace Doctest

namespace CommandDef

/-- Every field as the first of the definitions has it that sets it. Nothing is extended. -/
def nearest (defs : List CommandDef) : CommandDef where
  parent := none
  defaultFileName := defs.findSome? (·.defaultFileName)
  runFileName := defs.findSome? (·.runFileName)
  commands := defs.findSome? (·.commands)
  beforeLines := defs.findSome? (·.beforeLines)
  translator := defs.findSome? (·.translator)

theorem findSome?_cons_eq_or {α : Type} (field : CommandDef → Option α) (d : CommandDef)
    (defs : List CommandDef) :
    (d :: defs).findSome? field = (field d).or (defs.findSome? field) := by
  rw [List.findSome?_cons]
  cases field d <;> rfl

theorem inherit_nearest (d : CommandDef) (defs : List CommandDef) :
    d.inherit (nearest defs) = nearest (d :: defs) := by
  simp only [inherit, nearest, findSome?_cons_eq_or]

theorem nearest_singleton (d : CommandDef) : nearest [d] = { d with parent := none } := by
  simp only [nearest, findSome?_cons_eq_or, List.findSome?_nil, Option.or_none]

end CommandDef

namespace Config

/-- The command definitions from `key` on, each under the key that the one before it extends. The
last index is what the last of them extends. -/
inductive Chain (config : Config) : String → List (String × CommandDef) → Option String → Prop
  | last {key : String} {d : CommandDef} (hget : config.languages.get? key = some (.command d)) :
      Chain config key [(key, d)] d.parent
  | link {key parent : String} {d : CommandDef} {links : List (String × CommandDef)}
      {next : Option String} (hget : config.languages.get? key = some (.command d))
      (hparent : d.parent = some parent) (rest : Chain config parent links next) :
      Chain config key ((key, d) :: links) next

/-- A chain that has passed these keys cannot be continued at `next`, with this fault. -/
inductive Breaks (config : Config) (passed : List String) (next : String) : Fault → Prop
  | cycle (hmem : next ∈ passed) :
      Breaks config passed next (.of (ConfigCause.extendsCycle (passed ++ [next])))
  | unknown {last : String} (hnew : next ∉ passed) (hlast : passed.getLast? = some last)
      (hget : config.languages.get? next = none) :
      Breaks config passed next (.of (ConfigCause.extendsUnknown last next))
  | marker {last : String} {d : LangDef} (hnew : next ∉ passed)
      (hlast : passed.getLast? = some last) (hget : config.languages.get? next = some d)
      (hd : d = .neverRun ∨ d = .skip) :
      Breaks config passed next (.of (ConfigCause.extendsWithoutCommands last next))

/-- What a key is to be looked up as. -/
inductive LooksUp (config : Config) (key : String) : Except Fault (Option LangDef) → Prop
  | unknown (hget : config.languages.get? key = none) : LooksUp config key (.ok none)
  | marker {d : LangDef} (hget : config.languages.get? key = some d)
      (hd : d = .neverRun ∨ d = .skip) : LooksUp config key (.ok (some d))
  | closed {links : List (String × CommandDef)} (chain : config.Chain key links none)
      (distinct : (links.map Prod.fst).Nodup) :
      LooksUp config key (.ok (some (.command (CommandDef.nearest (links.map Prod.snd)))))
  | broken {links : List (String × CommandDef)} {next : String} {fault : Fault}
      (chain : config.Chain key links (some next)) (distinct : (links.map Prod.fst).Nodup)
      (breaks : config.Breaks (links.map Prod.fst) next fault) : LooksUp config key (.error fault)

variable {config : Config} {key : String} {seen : List String}

theorem not_mem_of_nodup {rest : List String} (h : (seen ++ key :: rest).Nodup) : key ∉ seen :=
  fun hmem => (List.nodup_append.mp h).2.2 key hmem key List.mem_cons_self rfl

/-! ## The recursion, one key at a time -/

theorem resolve_unknown (hnew : key ∉ seen) (hget : config.languages.get? key = none) :
    config.resolve seen key = .ok none := by
  rw [resolve, dif_neg hnew]
  split <;> simp_all

theorem resolve_marker {d : LangDef} (hnew : key ∉ seen)
    (hget : config.languages.get? key = some d) (hd : d = .neverRun ∨ d = .skip) :
    config.resolve seen key = .ok (some d) := by
  rw [resolve, dif_neg hnew]
  split
  next c hc =>
    obtain rfl : d = .command c := Option.some.inj (hget.symm.trans hc)
    simp at hd
  next => rw [hget]

theorem resolve_root {d : CommandDef} (hnew : key ∉ seen)
    (hget : config.languages.get? key = some (.command d)) (hparent : d.parent = none) :
    config.resolve seen key = .ok (some (.command d)) := by
  rw [resolve, dif_neg hnew]
  split
  next c hc =>
    obtain rfl : d = c := by simpa using hget.symm.trans hc
    split
    next => rfl
    next h => rw [hparent] at h; cases h
  next h => exact absurd hget (h d)

theorem resolve_child {d : CommandDef} {parent : String} (hnew : key ∉ seen)
    (hget : config.languages.get? key = some (.command d)) (hparent : d.parent = some parent) :
    config.resolve seen key = match config.resolve (seen ++ [key]) parent with
      | .error fault => .error fault
      | .ok (some (.command p)) => .ok (some (.command (d.inherit p)))
      | .ok (some _) => .error (.of (ConfigCause.extendsWithoutCommands key parent))
      | .ok none => .error (.of (ConfigCause.extendsUnknown key parent)) := by
  rw [resolve, dif_neg hnew]
  split
  next c hc =>
    obtain rfl : d = c := by simpa using hget.symm.trans hc
    split
    next h => rw [hparent] at h; cases h
    next p h =>
      obtain rfl : parent = p := Option.some.inj (hparent.symm.trans h)
      rfl
  next h => exact absurd hget (h d)

/-! ## Along a chain -/

theorem resolve_of_chain_none {links : List (String × CommandDef)}
    (chain : config.Chain key links none) (hnodup : (seen ++ links.map Prod.fst).Nodup) :
    config.resolve seen key =
      .ok (some (.command (CommandDef.nearest (links.map Prod.snd)))) := by
  generalize hnext : (none : Option String) = next at chain
  induction chain generalizing seen with
  | @last key d hget =>
    have hnew : key ∉ seen := not_mem_of_nodup hnodup
    rw [resolve_root hnew hget hnext.symm, List.map_singleton, CommandDef.nearest_singleton]
    simp only [hnext]
  | @link key parent d links next hget hparent _ ih =>
    have hnew : key ∉ seen := not_mem_of_nodup hnodup
    have hrest : config.resolve (seen ++ [key]) parent =
        .ok (some (.command (CommandDef.nearest (links.map Prod.snd)))) :=
      ih (by simpa using hnodup) hnext
    rw [resolve_child hnew hget hparent, hrest]
    simp only [CommandDef.inherit_nearest, List.map_cons]

/-- A fault at the end of a chain is the result at its beginning. -/
theorem resolve_of_breaks {links : List (String × CommandDef)} {next : String} {fault : Fault}
    (chain : config.Chain key links (some next)) (hnodup : (seen ++ links.map Prod.fst).Nodup)
    (breaks : config.Breaks (seen ++ links.map Prod.fst) next fault) :
    config.resolve seen key = .error fault := by
  generalize hnext : some next = next' at chain
  induction chain generalizing seen with
  | @last key d hget =>
    have hnew : key ∉ seen := not_mem_of_nodup hnodup
    rw [resolve_child hnew hget hnext.symm]
    rw [List.map_singleton] at breaks
    cases breaks with
    | cycle hmem =>
      rw [resolve, dif_pos hmem]
    | unknown hnew' hlast hget' =>
      obtain rfl : key = _ := by simpa using hlast
      rw [resolve_unknown hnew' hget']
    | marker hnew' hlast hget' hd =>
      obtain rfl : key = _ := by simpa using hlast
      rw [resolve_marker hnew' hget' hd]
      rcases hd with rfl | rfl <;> rfl
  | @link key parent d links next' hget hparent _ ih =>
    have hnew : key ∉ seen := not_mem_of_nodup hnodup
    have hrest : config.resolve (seen ++ [key]) parent = .error fault :=
      ih (by simpa using hnodup) (by simpa using breaks) hnext
    rw [resolve_child hnew hget hparent, hrest]

/-! ## Every chain has an end -/

/-- From a command definition that was not passed yet, a chain without repetition leads to an end.
The induction is on the number of keys that were not passed. -/
theorem exists_chain {d : CommandDef} (hnodup : (seen ++ [key]).Nodup)
    (hget : config.languages.get? key = some (.command d)) :
    ∃ links next, config.Chain key links next ∧ (seen ++ links.map Prod.fst).Nodup ∧
      ∀ n, next = some n → ∃ fault, config.Breaks (seen ++ links.map Prod.fst) n fault := by
  induction hleft : unvisited config.languages.keys seen using Nat.strongRecOn
    generalizing seen key d with
  | _ left ih =>
    subst hleft
    by_cases hcontinues : ∃ parent c, d.parent = some parent ∧ parent ∉ seen ++ [key] ∧
        config.languages.get? parent = some (.command c)
    · obtain ⟨parent, c, hparent, hfresh, hget'⟩ := hcontinues
      have hnew : key ∉ seen := not_mem_of_nodup hnodup
      have hfewer := unvisited_append_lt (Keyed.mem_keys_of_get? hget) hnew
      have hnodup' : (seen ++ [key] ++ [parent]).Nodup :=
        List.nodup_append.mpr ⟨hnodup, by simp, by
          intro a ha b hb hab
          obtain rfl := List.mem_singleton.mp hb
          exact hfresh (hab ▸ ha)⟩
      obtain ⟨links, next, chain, hdistinct, hend⟩ := ih _ hfewer hnodup' hget' rfl
      exact ⟨(key, d) :: links, next, .link hget hparent chain, by simpa using hdistinct,
        by simpa using hend⟩
    · refine ⟨[(key, d)], d.parent, .last hget, by simpa using hnodup, ?_⟩
      intro n hn
      rw [List.map_singleton]
      by_cases hmem : n ∈ seen ++ [key]
      · exact ⟨_, .cycle hmem⟩
      · have hlast : (seen ++ [key]).getLast? = some key := List.getLast?_concat
        cases hget' : config.languages.get? n with
        | none => exact ⟨_, .unknown hmem hlast hget'⟩
        | some d' =>
          cases d' with
          | command c => exact absurd ⟨n, c, hn, hmem, hget'⟩ hcontinues
          | neverRun => exact ⟨_, .marker hmem hlast hget' (.inl rfl)⟩
          | skip => exact ⟨_, .marker hmem hlast hget' (.inr rfl)⟩

/-! ## The lookup -/

theorem LooksUp.lang?_eq {result : Except Fault (Option LangDef)}
    (h : config.LooksUp key result) : config.lang? key = result := by
  cases h with
  | unknown hget => exact resolve_unknown List.not_mem_nil hget
  | marker hget hd => exact resolve_marker List.not_mem_nil hget hd
  | closed chain distinct => exact resolve_of_chain_none chain distinct
  | broken chain distinct breaks => exact resolve_of_breaks chain distinct breaks

theorem exists_looksUp (config : Config) (key : String) : ∃ result, config.LooksUp key result := by
  cases hget : config.languages.get? key with
  | none => exact ⟨_, .unknown hget⟩
  | some d =>
    cases d with
    | neverRun => exact ⟨_, .marker hget (.inl rfl)⟩
    | skip => exact ⟨_, .marker hget (.inr rfl)⟩
    | command d =>
      have hkey : ([] ++ [key]).Nodup := by simp
      obtain ⟨links, next, chain, hdistinct, hend⟩ := exists_chain hkey hget
      cases next with
      | none => exact ⟨_, .closed chain hdistinct⟩
      | some n =>
        obtain ⟨fault, hbreaks⟩ := hend n rfl
        exact ⟨_, .broken chain hdistinct hbreaks⟩

/-- **Lookup of a language.** It always has a result, and that is what the chain of the key calls
for: the nearest definition wins in each field if the chain ends, and a fault tells why it does not
otherwise. -/
theorem lang?_eq_iff (config : Config) (key : String) (result : Except Fault (Option LangDef)) :
    config.lang? key = result ↔ config.LooksUp key result := by
  constructor
  · intro h
    obtain ⟨result', h'⟩ := exists_looksUp config key
    obtain rfl : result' = result := h'.lang?_eq.symm.trans h
    exact h'
  · exact LooksUp.lang?_eq

end Config

end Doctest
