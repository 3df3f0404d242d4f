import Doctest.Proofs.Inheritance
import Mathlib.Data.List.Induction

/-!
# What patches change

A patch replaces definitions as a whole, and what they extend is followed only when a language is looked
up. So a patch can change what other languages are looked up as, but only of those whose chain leads to
a language that it names.

* `applyAll_eq`: after several patches the last one that names a language counts, and nothing else of
  the patches or of their order does.
* `lang?_congr`: a lookup sees only the definitions that its chain leads to.
* `Continues`: what a lookup comes to from a place of its chain on. By `lang?_eq_iff_continues` this is
  said of every place, so that the part in front of a new definition can be taken from the chain as it
  was.
* `patches_bind_late`: all of this about any sequence of patches.
-/

namespace Doctest

/-- The definition that a patch gives to a language. -/
def ConfigPatch.language? (p : ConfigPatch) (key : String) : Option LangDef :=
  p.languages.bind (·.get? key)

namespace Config

/-! ## Definitions after patches -/

/-- The configuration after several patches. -/
def applyAll (config : Config) (patches : List ConfigPatch) : Config :=
  patches.foldl apply config

/-- The definition that the last patch gives to a language that gives one, or else the old one. -/
def lastDefinition? (config : Config) (patches : List ConfigPatch) (key : String) :
    Option LangDef :=
  (patches.reverse.findSome? (·.language? key)).or (config.languages.get? key)

/-- The directory of the last patch that sets one, or else the old one. -/
def lastDirectory? (config : Config) (patches : List ConfigPatch) : Option String :=
  (patches.reverse.findSome? (·.directory)).or config.directory

/-- One of the patches defines the language. -/
def Mentions (patches : List ConfigPatch) (key : String) : Prop :=
  ∃ p ∈ patches, (p.language? key).isSome

variable {config : Config} {patches : List ConfigPatch} {key : String}

theorem get?_apply (config : Config) (p : ConfigPatch) (key : String) :
    (config.apply p).languages.get? key = (p.language? key).or (config.languages.get? key) := by
  obtain ⟨directory, languages⟩ := p
  cases languages with
  | none => rfl
  | some newer => exact Keyed.get?_union config.languages newer key

/-- Of several values the last one that there is. -/
theorem foldl_or_eq {α β : Type} (value : α → Option β) (l : List α) (start : Option β) :
    l.foldl (fun found a => (value a).or found) start = (l.reverse.findSome? value).or start := by
  induction l using List.reverseRecOn with
  | nil => rfl
  | append_singleton l a ih =>
    rw [List.foldl_append, List.foldl_cons, List.foldl_nil, ih, List.reverse_append,
      List.reverse_singleton, List.singleton_append, List.findSome?_cons]
    cases value a <;> rfl

theorem get?_applyAll (config : Config) (patches : List ConfigPatch) (key : String) :
    (config.applyAll patches).languages.get? key = config.lastDefinition? patches key := by
  rw [lastDefinition?, ← foldl_or_eq]
  exact (List.foldl_hom (fun c : Config => c.languages.get? key)
    fun c p => (get?_apply c p key).symm).symm

theorem directory_applyAll (config : Config) (patches : List ConfigPatch) :
    (config.applyAll patches).directory = config.lastDirectory? patches := by
  rw [lastDirectory?, ← foldl_or_eq]
  exact (List.foldl_hom Config.directory fun _ _ => rfl).symm

theorem ext_get? {c c' : Config} (hdirectory : c.directory = c'.directory)
    (hget : ∀ key, c.languages.get? key = c'.languages.get? key) : c = c' := by
  cases c
  cases c'
  cases hdirectory
  cases Keyed.ext_get? hget
  rfl

/-- Nothing but the last definitions and the last directory counts. -/
theorem applyAll_eq {patches patches' : List ConfigPatch}
    (hdefinition : ∀ key, config.lastDefinition? patches key = config.lastDefinition? patches' key)
    (hdirectory : config.lastDirectory? patches = config.lastDirectory? patches') :
    config.applyAll patches = config.applyAll patches' := by
  refine ext_get? ?_ fun key => ?_
  · rw [directory_applyAll, directory_applyAll, hdirectory]
  · rw [get?_applyAll, get?_applyAll, hdefinition]

theorem lastDefinition?_of_not_mentions (h : ¬ Mentions patches key) :
    config.lastDefinition? patches key = config.languages.get? key := by
  have hnone : patches.reverse.findSome? (·.language? key) = none := by
    refine List.findSome?_eq_none_iff.mpr fun p hp => ?_
    exact Option.not_isSome_iff_eq_none.mp fun hp' => h ⟨p, List.mem_reverse.mp hp, hp'⟩
  rw [lastDefinition?, hnone, Option.none_or]

theorem apply_toPatch_self (config : Config) : config.apply config.toPatch = config := by
  refine ext_get? ?_ fun key => ?_
  · exact Option.or_self
  · rw [get?_apply]
    exact Option.or_self

/-! ## Lookups -/

/-- The definitions that lead from one language to another one, each extending the next. -/
inductive Leads (config : Config) : String → List (String × CommandDef) → String → Prop
  | here {key : String} : Leads config key [] key
  | link {key parent last : String} {d : CommandDef} {links : List (String × CommandDef)}
      (hget : config.languages.get? key = some (.command d)) (hparent : d.parent = some parent)
      (rest : Leads config parent links last) : Leads config key ((key, d) :: links) last

/-- The language is on the chain that is followed from `key`, its end included. -/
def OnChain (config : Config) (key k : String) : Prop := ∃ links, config.Leads key links k

variable {config' : Config} {links rest : List (String × CommandDef)} {k : String}

theorem Leads.append_chain {next : Option String} (h : config.Leads key links k)
    (chain : config.Chain k rest next) : config.Chain key (links ++ rest) next := by
  induction h with
  | here => exact chain
  | link hget hparent _ ih => exact .link hget hparent (ih chain)

theorem Leads.chain (h : config.Leads key links k) (hne : links ≠ []) :
    config.Chain key links (some k) := by
  induction h with
  | here => exact absurd rfl hne
  | @link key parent last d links hget hparent rest ih =>
    cases rest with
    | here => exact hparent ▸ .last hget
    | link hget' hparent' rest' => exact .link hget hparent (ih (List.cons_ne_nil _ _))

/-- Only the definitions that lead somewhere count. -/
theorem Leads.congr (h : config.Leads key links k)
    (hsame : ∀ e ∈ links, config'.languages.get? e.1 = config.languages.get? e.1) :
    config'.Leads key links k := by
  induction h with
  | here => exact .here
  | link hget hparent _ ih =>
    obtain ⟨hfirst, hrest⟩ := List.forall_mem_cons.mp hsame
    exact .link (hfirst.trans hget) hparent (ih hrest)

theorem Chain.leads {next : Option String} (chain : config.Chain key links next) :
    (∀ e ∈ links, config.OnChain key e.1) ∧ ∀ n, next = some n → config.OnChain key n := by
  induction chain with
  | @last key d hget =>
    refine ⟨List.forall_mem_singleton.mpr ⟨[], .here⟩, fun n hn => ?_⟩
    exact ⟨[(key, d)], .link hget hn .here⟩
  | @link key parent d links next hget hparent _ ih =>
    have hbehind {k : String} : config.OnChain parent k → config.OnChain key k :=
      fun ⟨links, h⟩ => ⟨(key, d) :: links, .link hget hparent h⟩
    refine ⟨List.forall_mem_cons.mpr ⟨⟨[], .here⟩, fun e he => hbehind (ih.1 e he)⟩, fun n hn => ?_⟩
    exact hbehind (ih.2 n hn)

theorem Chain.congr {next : Option String} (chain : config.Chain key links next)
    (hsame : ∀ e ∈ links, config'.languages.get? e.1 = config.languages.get? e.1) :
    config'.Chain key links next := by
  induction chain with
  | last hget => exact .last ((hsame _ List.mem_cons_self).trans hget)
  | link hget hparent _ ih =>
    obtain ⟨hfirst, hrest⟩ := List.forall_mem_cons.mp hsame
    exact .link (hfirst.trans hget) hparent (ih hrest)

theorem Breaks.congr {passed : List String} {next : String} {fault : Fault}
    (breaks : config.Breaks passed next fault)
    (hsame : config'.languages.get? next = config.languages.get? next) :
    config'.Breaks passed next fault := by
  cases breaks with
  | cycle hmem => exact .cycle hmem
  | unknown hnew hlast hget => exact .unknown hnew hlast (hsame.trans hget)
  | marker hnew hlast hget hd => exact .marker hnew hlast (hsame.trans hget) hd

/-- **A lookup sees its chain only.** This holds of faults too: the language where the chain breaks
belongs to the chain. -/
theorem lang?_congr (hsame : ∀ k, config.OnChain key k →
    config'.languages.get? k = config.languages.get? k) : config'.lang? key = config.lang? key := by
  obtain ⟨result, hresult⟩ := exists_looksUp config key
  have hhere := hsame key ⟨[], .here⟩
  have hresult' : config'.LooksUp key result := by
    cases hresult with
    | unknown hget => exact .unknown (hhere.trans hget)
    | marker hget hd => exact .marker (hhere.trans hget) hd
    | closed chain distinct =>
      exact .closed (chain.congr fun e he => hsame _ (chain.leads.1 e he)) distinct
    | broken chain distinct breaks =>
      exact .broken (chain.congr fun e he => hsame _ (chain.leads.1 e he)) distinct
        (breaks.congr (hsame _ (chain.leads.2 _ rfl)))
  exact hresult'.lang?_eq.trans hresult.lang?_eq.symm

/-- What a lookup comes to that has passed some definitions and goes on at `next`. -/
inductive Continues (config : Config) (passed : List (String × CommandDef)) (next : String) :
    Except Fault (Option LangDef) → Prop
  | unknown (hpassed : passed = []) (hget : config.languages.get? next = none) :
      Continues config passed next (.ok none)
  | marker {d : LangDef} (hpassed : passed = []) (hget : config.languages.get? next = some d)
      (hd : d = .neverRun ∨ d = .skip) : Continues config passed next (.ok (some d))
  | closed {links : List (String × CommandDef)} (chain : config.Chain next links none)
      (distinct : ((passed ++ links).map Prod.fst).Nodup) :
      Continues config passed next
        (.ok (some (.command (CommandDef.nearest ((passed ++ links).map Prod.snd)))))
  | broken {links : List (String × CommandDef)} {last : String} {fault : Fault}
      (chain : config.Chain next links (some last))
      (distinct : ((passed ++ links).map Prod.fst).Nodup)
      (breaks : config.Breaks ((passed ++ links).map Prod.fst) last fault) :
      Continues config passed next (.error fault)
  | stopped {fault : Fault} (hpassed : passed ≠ [])
      (breaks : config.Breaks (passed.map Prod.fst) next fault) :
      Continues config passed next (.error fault)

theorem Continues.lang?_eq {result : Except Fault (Option LangDef)}
    (h : config.Continues links k result) (hleads : config.Leads key links k)
    (hdistinct : (links.map Prod.fst).Nodup) : config.lang? key = result := by
  refine LooksUp.lang?_eq ?_
  cases h with
  | unknown hpassed hget =>
    subst hpassed
    cases hleads
    exact .unknown hget
  | marker hpassed hget hd =>
    subst hpassed
    cases hleads
    exact .marker hget hd
  | closed chain distinct => exact .closed (hleads.append_chain chain) distinct
  | broken chain distinct breaks => exact .broken (hleads.append_chain chain) distinct breaks
  | stopped hpassed breaks => exact .broken (hleads.chain hpassed) hdistinct breaks

/-- From every place of a chain a lookup comes to something. -/
theorem exists_continues (config : Config) (k : String)
    (hdistinct : (links.map Prod.fst).Nodup) : ∃ result, config.Continues links k result := by
  by_cases hcycle : k ∈ links.map Prod.fst
  · have hne : links ≠ [] := by
      rintro rfl
      cases hcycle
    exact ⟨_, .stopped hne (.cycle hcycle)⟩
  · have hlast (hne : links ≠ []) : (links.map Prod.fst).getLast? =
        some ((links.map Prod.fst).getLast (by simpa using hne)) := List.getLast?_eq_some_getLast _
    cases hget : config.languages.get? k with
    | none =>
      by_cases hne : links = []
      · exact ⟨_, .unknown hne hget⟩
      · exact ⟨_, .stopped hne (.unknown hcycle (hlast hne) hget)⟩
    | some d =>
      by_cases hd : d = .neverRun ∨ d = .skip
      · by_cases hne : links = []
        · exact ⟨_, .marker hne hget hd⟩
        · exact ⟨_, .stopped hne (.marker hcycle (hlast hne) hget hd)⟩
      · cases d with
        | neverRun => exact absurd (.inl rfl) hd
        | skip => exact absurd (.inr rfl) hd
        | command d =>
          have hnodup : (links.map Prod.fst ++ [k]).Nodup := by
            refine List.nodup_append.mpr ⟨hdistinct, by simp, ?_⟩
            rintro a ha b hb rfl
            exact hcycle (List.mem_singleton.mp hb ▸ ha)
          obtain ⟨rest, next, chain, hrest, hend⟩ := exists_chain hnodup hget
          rw [← List.map_append] at hrest
          cases next with
          | none => exact ⟨_, .closed chain hrest⟩
          | some n =>
            obtain ⟨fault, hbreaks⟩ := hend n rfl
            rw [← List.map_append] at hbreaks
            exact ⟨_, .broken chain hrest hbreaks⟩

theorem lang?_eq_iff_continues (hleads : config.Leads key links k)
    (hdistinct : (links.map Prod.fst).Nodup) (result : Except Fault (Option LangDef)) :
    config.lang? key = result ↔ config.Continues links k result := by
  constructor
  · rintro rfl
    obtain ⟨result, hresult⟩ := exists_continues config k hdistinct
    rwa [hresult.lang?_eq hleads hdistinct]
  · exact fun h => h.lang?_eq hleads hdistinct

/-! ## Patches and lookups -/

/-- **Patches replace whole definitions, bind late and touch nothing else.** After a sequence of patches
each language has the definition that the last patch gives it, and an order or other patches that do
not change this make no difference; nor does the patch of the configuration itself. A lookup stays what
it was if no language of its chain is named. Otherwise the chain is as it was up to the first language
that is named, and the lookup goes on from there, or from any other place of the chain, with the
definitions that are in force now. -/
theorem patches_bind_late (config : Config) (patches : List ConfigPatch) :
    let after := config.applyAll patches
    (∀ key, after.languages.get? key = config.lastDefinition? patches key) ∧
      after.directory = config.lastDirectory? patches ∧
      (∀ patches', (∀ key,
          config.lastDefinition? patches' key = config.lastDefinition? patches key) →
        config.lastDirectory? patches' = config.lastDirectory? patches →
        config.applyAll patches' = after) ∧
      config.apply config.toPatch = config ∧
      (∀ key, (∀ k, config.OnChain key k → ¬ Mentions patches k) →
        after.lang? key = config.lang? key) ∧
      (∀ key links k, config.Leads key links k → (∀ e ∈ links, ¬ Mentions patches e.1) →
        after.Leads key links k) ∧
      ∀ key links k, after.Leads key links k → (links.map Prod.fst).Nodup →
        ∀ result, after.lang? key = result ↔ after.Continues links k result := by
  intro after
  have hkept (k : String) (h : ¬ Mentions patches k) :
      after.languages.get? k = config.languages.get? k :=
    (get?_applyAll config patches k).trans (lastDefinition?_of_not_mentions h)
  refine ⟨get?_applyAll config patches, directory_applyAll config patches,
    fun patches' hdefinition hdirectory => applyAll_eq hdefinition hdirectory,
    apply_toPatch_self config, ?_, ?_, ?_⟩
  · intro key hnone
    exact lang?_congr fun k hk => hkept k (hnone k hk)
  · intro key links k hleads hnone
    exact hleads.congr fun e he => hkept e.1 (hnone e he)
  · intro key links k hleads hdistinct result
    exact lang?_eq_iff_continues hleads hdistinct result

/-- A patch to the language that another one extends reaches that one, and no third one. -/
theorem patches_bind_late_parent :
    let patches : List ConfigPatch := [⟨none, some (.ofList [("js", .skip)])⟩]
    let after := builtin.applyAll patches
    after.lang? "node-repl" =
        .error (.of (ConfigCause.extendsWithoutCommands "node-repl" "js")) ∧
      after.lang? "sh" = builtin.lang? "sh" := by
  intro patches after
  have hnames : ∀ k, Mentions patches k → k = "js" := by
    rintro k ⟨p, hp, hsome⟩
    obtain rfl := List.mem_singleton.mp hp
    by_contra hk
    have hentry : ((Keyed.ofList [("js", LangDef.skip)]).get? k).isSome := hsome
    rw [Keyed.ofList, List.foldl_cons, List.foldl_nil, Keyed.get?_insert, if_neg hk] at hentry
    cases hentry
  obtain ⟨-, -, -, -, hframe, hleads, hcontinues⟩ := patches_bind_late builtin patches
  constructor
  · let repl : CommandDef := { CommandDef.empty with
      parent := some "js", translator := some "node-repl" }
    have hchain : builtin.Leads "node-repl" [("node-repl", repl)] "js" :=
      .link (by decide +kernel) rfl .here
    have hkept : ∀ e ∈ [("node-repl", repl)], ¬ Mentions patches e.1 := by
      intro e he hmentions
      obtain rfl := List.mem_singleton.mp he
      exact absurd (hnames _ hmentions) (by decide)
    have hskip : after.languages.get? "js" = some .skip := by decide +kernel
    refine (hcontinues _ _ _ (hleads _ _ _ hchain hkept) (by simp) _).mpr (.stopped (by simp) ?_)
    exact .marker (by decide) rfl hskip (.inr rfl)
  · refine hframe "sh" fun k ⟨links, h⟩ hmentions => ?_
    have hsh : builtin.languages.get? "sh" = some (.command (runBy "bash" "main.sh")) := by
      decide +kernel
    cases h with
    | here => exact absurd (hnames _ hmentions) (by decide)
    | link hget hparent _ =>
      cases hsh.symm.trans hget
      cases hparent

end Config

end Doctest
