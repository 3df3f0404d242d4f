import Doctest.Config.Notation

/-!
# Patches as trees and as nodes

A patch is written as a tree of texts and read from a node. A node is read as a tree if it holds the
same texts at the same places and none of them is taken for something else. Only that counts for a
patch: a node that is read as the patch's tree gives the patch, whatever it has set.
-/

namespace Doctest

open Yaml (Node Tree Kind)

namespace Yaml.Tree

mutual

/-- Whether a node holds the texts of a tree, each of them as text. -/
def isReadAs : Tree → Node → Bool
  | .text s, .scalar plain t => t == s && (!plain || Kind.ofPlain s.toList == .text)
  | .list items, .sequence nodes => itemsAreReadAs items nodes
  | .record entries, .mapping nodes => entriesAreReadAs entries nodes
  | _, _ => false

/-- Whether these are the nodes of the items, in their order. -/
def itemsAreReadAs : List Tree → List Node → Bool
  | [], [] => true
  | item :: items, node :: nodes => isReadAs item node && itemsAreReadAs items nodes
  | _, _ => false

/-- Whether these are the keys and nodes of the entries, in their order. -/
def entriesAreReadAs : List (String × Tree) → List (Node × Node) → Bool
  | [], [] => true
  | entry :: entries, node :: nodes => entryIsReadAs entry node && entriesAreReadAs entries nodes
  | _, _ => false

/-- Whether these are the key and the node of an entry. -/
def entryIsReadAs : String × Tree → Node × Node → Bool
  | (key, value), (keyNode, node) => isReadAs (.text key) keyNode && isReadAs value node

end

/-- The node of a text. A plain one is not taken for something else than text. -/
theorem text_isReadAs {s : String} {node : Node} (h : (text s).isReadAs node = true) :
    ∃ plain, node = .scalar plain s ∧ (plain = true → Kind.ofPlain s.toList = .text) := by
  cases node with
  | scalar plain t =>
    obtain ⟨rfl, hkind⟩ : t = s ∧ _ := by simpa [isReadAs] using h
    refine ⟨plain, rfl, fun hplain => ?_⟩
    simpa [hplain] using hkind
  | _ => simp [isReadAs] at h

theorem list_isReadAs {items : List Tree} {node : Node} (h : (list items).isReadAs node = true) :
    ∃ nodes, node = .sequence nodes ∧ itemsAreReadAs items nodes = true := by
  cases node with
  | sequence nodes => exact ⟨nodes, rfl, by simpa [isReadAs] using h⟩
  | _ => simp [isReadAs] at h

theorem record_isReadAs {entries : List (String × Tree)} {node : Node}
    (h : (record entries).isReadAs node = true) :
    ∃ nodes, node = .mapping nodes ∧ entriesAreReadAs entries nodes = true := by
  cases node with
  | mapping nodes => exact ⟨nodes, rfl, by simpa [isReadAs] using h⟩
  | _ => simp [isReadAs] at h

theorem items_isReadAs_cons {item : Tree} {items : List Tree} {nodes : List Node}
    (h : itemsAreReadAs (item :: items) nodes = true) :
    ∃ node rest, nodes = node :: rest ∧ item.isReadAs node = true ∧
      itemsAreReadAs items rest = true := by
  cases nodes with
  | nil => simp [itemsAreReadAs] at h
  | cons node rest =>
    obtain ⟨hnode, hrest⟩ : item.isReadAs node = true ∧ _ := by simpa [itemsAreReadAs] using h
    exact ⟨node, rest, rfl, hnode, hrest⟩

theorem entries_isReadAs_cons {key : String} {value : Tree} {entries : List (String × Tree)}
    {nodes : List (Node × Node)} (h : entriesAreReadAs ((key, value) :: entries) nodes = true) :
    ∃ plain node rest, nodes = (.scalar plain key, node) :: rest ∧ value.isReadAs node = true ∧
      entriesAreReadAs entries rest = true := by
  cases nodes with
  | nil => simp [entriesAreReadAs] at h
  | cons entry rest =>
    obtain ⟨keyNode, node⟩ := entry
    obtain ⟨⟨hkey, hnode⟩, hrest⟩ :
        ((text key).isReadAs keyNode = true ∧ value.isReadAs node = true) ∧ _ := by
      simpa [entriesAreReadAs, entryIsReadAs] using h
    obtain ⟨plain, rfl, _⟩ := text_isReadAs hkey
    exact ⟨plain, node, rest, rfl, hnode, hrest⟩

@[simp] theorem isReadAs_cut (tree : Tree) : tree.isReadAs .cut = false := by cases tree <;> rfl

/-- No node that is read as a tree stands for nothing. -/
theorem isNull_of_isReadAs {tree : Tree} {node : Node} (h : tree.isReadAs node = true) :
    node.isNull = false := by
  cases tree with
  | list items =>
    obtain ⟨_, rfl, _⟩ := list_isReadAs h
    rfl
  | record entries =>
    obtain ⟨_, rfl, _⟩ := record_isReadAs h
    rfl
  | text s =>
    obtain ⟨plain, rfl, hkind⟩ := text_isReadAs h
    cases plain with
    | false => rfl
    | true =>
      have hnull : ¬ (s.toList.isEmpty || Kind.isNull s.toList) = true := fun hnull => by
        have hnone : Kind.ofPlain s.toList = .null := if_pos hnull
        rw [hkind rfl] at hnone
        cases hnone
      simpa [Node.isNull] using hnull

end Yaml.Tree

namespace Yaml.Node

open Yaml.Tree

theorem asText_eq {path s : String} {node : Node} (h : (Tree.text s).isReadAs node = true) :
    node.asText path = .ok s := by
  obtain ⟨_, rfl, _⟩ := text_isReadAs h
  rfl

/-- A reader that gives each item of a list gives the list. -/
theorem asList_eq {α : Type} {read : String → Node → Except ConfigCause α} {toTree : α → Tree}
    (hread : ∀ path a node, (toTree a).isReadAs node = true → read path node = .ok a)
    {path : String} {items : List α} {node : Node}
    (h : (Tree.list (items.map toTree)).isReadAs node = true) :
    node.asList read path = .ok items := by
  obtain ⟨nodes, rfl, hitems⟩ := list_isReadAs h
  have hall : ∀ index, asItems read path index nodes = .ok items := by
    clear h
    induction items generalizing nodes with
    | nil =>
      intro index
      cases nodes with
      | nil => rfl
      | cons node rest => simp [itemsAreReadAs] at hitems
    | cons a items ih =>
      intro index
      obtain ⟨node, rest, rfl, hnode, hrest⟩ := items_isReadAs_cons hitems
      have hitem := hread (itemPath path index) a node hnode
      cases node with
      | cut => exact absurd hnode (by simp)
      | _ => simp only [asItems, hitem, ih rest hrest, bind, Except.bind]
  exact hall 0

theorem asOption_eq {α : Type} {read : String → Node → Except ConfigCause α} {path : String}
    {tree : Tree} {node : Node} {a : α} (h : tree.isReadAs node = true)
    (hread : read path node = .ok a) : node.asOption read path = .ok (some a) := by
  simp [asOption, isNull_of_isReadAs h, hread, Except.map]

theorem checkField_eq {path name : String} {known seen : List String} (hknown : name ∈ known)
    (hnew : name ∉ seen) : checkField path known seen name = .ok () := by
  simp [checkField, hknown, hnew]

end Yaml.Node

namespace CommandDef

open Yaml.Tree

/-- One field of a definition: where it is set it is read as it was written, and where it is not it
stays as it was. What follows is left to `hrest`; `passed` are the fields in front of it. -/
theorem ofEntries_field {α : Type} (set : CommandDef → Option α → CommandDef) {path name : String}
    {value : Option α} {toTree : α → Tree} {d goal : CommandDef} {seen passed : List String}
    {entries : List (String × Tree)} {nodes : List (Node × Node)}
    (hseen : seen ⊆ passed)
    (hnodes : entriesAreReadAs ((value.map fun a => (name, toTree a)).toList ++ entries) nodes = true)
    (hread : ∀ a node, (toTree a).isReadAs node = true →
      d.readField path name node = .ok (set d (some a)))
    (hunset : set d none = d) (hname : name ∈ fieldNames ∧ name ∉ passed)
    (hrest : ∀ seen' nodes', seen' ⊆ name :: passed → entriesAreReadAs entries nodes' = true →
      ofEntries path (set d value) seen' nodes' = .ok goal) :
    ofEntries path d seen nodes = .ok goal := by
  cases value with
  | none =>
    have := hrest seen nodes (List.subset_cons_of_subset _ hseen) hnodes
    rwa [hunset] at this
  | some a =>
    obtain ⟨plain, node, rest, rfl, hnode, hrestNodes⟩ := entries_isReadAs_cons hnodes
    have hcheck : Node.checkField path fieldNames seen name = .ok () :=
      Node.checkField_eq hname.1 fun h => hname.2 (hseen h)
    have := hrest (name :: seen) rest (List.cons_subset_cons _ hseen) hrestNodes
    simpa only [ofEntries, Node.asField, hcheck, hread a node hnode, bind, Except.bind] using this

theorem textsOfNode_eq {path : String} {texts : Lines} {node : Node}
    (h : (Tree.list (texts.map .text)).isReadAs node = true) :
    textsOfNode path node = .ok texts :=
  Node.asList_eq (fun _ _ _ => Node.asText_eq) h

theorem commandsOfNode_eq {path : String} {commands : List (List String)} {node : Node}
    (h : (Tree.list (commands.map fun c => .list (c.map .text))).isReadAs node = true) :
    node.asList textsOfNode path = .ok commands :=
  Node.asList_eq (fun _ _ _ => textsOfNode_eq) h

/-- A definition is read from its own tree. -/
theorem ofEntries_toTree (path : String) {d : CommandDef} {node : Node}
    (h : d.toTree.isReadAs node = true) :
    ∃ nodes, node = .mapping nodes ∧ ofEntries path .empty [] nodes = .ok d := by
  obtain ⟨nodes, rfl, hnodes⟩ := record_isReadAs h
  refine ⟨nodes, rfl, ?_⟩
  have htext {path : String} (t : String) (node : Node) (ht : (Tree.text t).isReadAs node = true) :
      node.asOption Node.asText path = .ok (some t) := Node.asOption_eq ht (Node.asText_eq ht)
  simp only [List.append_assoc] at hnodes
  refine ofEntries_field (fun d v => { d with parent := v }) (List.Subset.refl [])
    hnodes (fun t node ht => ?_) rfl (by decide) fun seen₁ nodes₁ hseen₁ hnodes₁ => ?_
  · simp [readField, htext t node ht, Except.map]
  refine ofEntries_field (fun d v => { d with defaultFileName := v }) hseen₁
    hnodes₁ (fun t node ht => ?_) rfl (by decide) fun seen₂ nodes₂ hseen₂ hnodes₂ => ?_
  · simp [readField, htext t node ht, Except.map]
  refine ofEntries_field (fun d v => { d with runFileName := v }) hseen₂
    hnodes₂ (fun t node ht => ?_) rfl (by decide) fun seen₃ nodes₃ hseen₃ hnodes₃ => ?_
  · simp [readField, htext t node ht, Except.map]
  refine ofEntries_field (fun d v => { d with commands := v }) hseen₃
    hnodes₃ (fun cs node hcs => ?_) rfl (by decide) fun seen₄ nodes₄ hseen₄ hnodes₄ => ?_
  · simp [readField, Node.asOption_eq hcs (commandsOfNode_eq hcs), Except.map]
  refine ofEntries_field (fun d v => { d with beforeLines := v }) hseen₄
    hnodes₄ (fun ls node hls => ?_) rfl (by decide) fun seen₅ nodes₅ hseen₅ hnodes₅ => ?_
  · simp [readField, Node.asOption_eq hls (textsOfNode_eq hls), Except.map]
  rw [← List.append_nil (Option.toList _)] at hnodes₅
  refine ofEntries_field (fun d v => { d with translator := v }) hseen₅
    hnodes₅ (fun t node ht => ?_) rfl (by decide) fun seen₆ nodes₆ _ hnodes₆ => ?_
  · simp [readField, htext t node ht, Except.map]
  cases nodes₆ with
  | nil => rfl
  | cons entry rest => simp [entriesAreReadAs] at hnodes₆

end CommandDef

namespace LangDef

/-- A language's definition is read from its own tree. -/
theorem ofNode_toTree {path : String} {d : LangDef} {node : Node}
    (h : d.toTree.isReadAs node = true) : ofNode path node = .ok d := by
  cases d with
  | command d =>
    obtain ⟨nodes, rfl, hd⟩ := CommandDef.ofEntries_toTree path h
    simp only [ofNode, hd, bind, Except.bind]
  | neverRun =>
    obtain ⟨plain, rfl, hkind⟩ := Tree.text_isReadAs h
    cases plain with
    | false => rfl
    | true => simp [ofNode, hkind rfl]
  | skip =>
    obtain ⟨plain, rfl, hkind⟩ := Tree.text_isReadAs h
    cases plain with
    | false => rfl
    | true =>
      have hword : skipWord ≠ neverRunWord := by decide
      simp [ofNode, hkind rfl, hword]

end LangDef

namespace ConfigPatch

open Yaml.Tree

/-- Languages are put to those found so far. Their keys are distinct, so none replaces another. -/
theorem languagesOfEntries_eq (path : String) {entries : List (String × LangDef)}
    (found : Keyed LangDef) {nodes : List (Node × Node)}
    (hnodes : entriesAreReadAs (entries.map fun (k, d) => (k, d.toTree)) nodes = true)
    (hkeys : (found.entries ++ entries).Pairwise fun a b => a.1 ≠ b.1) :
    ∃ all, languagesOfEntries path found nodes = .ok all ∧
      all.entries.Perm (found.entries ++ entries) := by
  induction entries generalizing found nodes with
  | nil =>
    cases nodes with
    | nil => exact ⟨found, rfl, by simp⟩
    | cons entry rest => simp [entriesAreReadAs] at hnodes
  | cons entry entries ih =>
    obtain ⟨key, d⟩ := entry
    obtain ⟨plain, node, rest, rfl, hnode, hrest⟩ := entries_isReadAs_cons hnodes
    have hnew : found.contains key = false :=
      Keyed.contains_eq_false_iff.mpr fun e he =>
        (List.pairwise_append.mp hkeys).2.2 e he (key, d) List.mem_cons_self
    have hperm : ((found.insert key d).entries ++ entries).Perm (found.entries ++ (key, d) :: entries) :=
      ((Keyed.perm_insert hnew d).append_right entries).trans List.perm_middle.symm
    obtain ⟨all, hall, hallPerm⟩ := ih (found.insert key d) hrest ((hperm.pairwise_iff fun h => h.symm).mpr hkeys)
    refine ⟨all, ?_, hallPerm.trans hperm⟩
    simpa only [languagesOfEntries, Node.asText, LangDef.ofNode_toTree hnode, bind, Except.bind]
      using hall

/-- The languages of a patch are read from their own tree, in the same order. -/
theorem languagesOfNode_eq {path : String} {languages : Keyed LangDef} {node : Node}
    (h : (Tree.record (languages.entries.map fun (k, d) => (k, d.toTree))).isReadAs node = true) :
    languagesOfNode path node = .ok languages := by
  obtain ⟨nodes, rfl, hnodes⟩ := record_isReadAs h
  have hkeys : languages.entries.Pairwise fun a b => a.1 ≠ b.1 :=
    List.pairwise_map.mp languages.nodup_keys
  obtain ⟨all, hall, hperm⟩ :=
    languagesOfEntries_eq path .empty hnodes (by simpa [Keyed.empty] using hkeys)
  obtain rfl : all = languages := Keyed.eq_of_perm (by simpa [Keyed.empty] using hperm)
  exact hall

/-- The languages are the last field; they are read as they were written. -/
theorem ofEntries_languages {directory : Option String} {languages : Option (Keyed LangDef)}
    {seen : List String} {nodes : List (Node × Node)} (hseen : seen ⊆ ["markcheckDirectory"])
    (hnodes : entriesAreReadAs (ConfigPatch.toTree ⟨none, languages⟩) nodes = true) :
    ofEntries ⟨directory, none⟩ seen nodes = .ok ⟨directory, languages⟩ := by
  cases languages with
  | none =>
    cases nodes with
    | nil => rfl
    | cons entry rest => simp [toTree, entriesAreReadAs] at hnodes
  | some languages =>
    obtain ⟨plain, node, rest, rfl, hnode, hrest⟩ := entries_isReadAs_cons hnodes
    cases rest with
    | cons entry rest => simp [entriesAreReadAs] at hrest
    | nil =>
      have hcheck : Node.checkField "" fieldNames seen "lang" = .ok () :=
        Node.checkField_eq (by decide) fun h => absurd (hseen h) (by decide)
      have hlang : node.asOption languagesOfNode "lang" = .ok (some languages) :=
        Node.asOption_eq hnode (languagesOfNode_eq hnode)
      simp [ofEntries, Node.asField, hcheck, readField, hlang, bind, Except.bind, Except.map]

/-- A patch is read from its own tree. -/
theorem ofNode_toTree {patch : ConfigPatch} {node : Node}
    (h : (Tree.record patch.toTree).isReadAs node = true) : ofNode node = .ok patch := by
  obtain ⟨nodes, rfl, hnodes⟩ := record_isReadAs h
  obtain ⟨directory, languages⟩ := patch
  cases directory with
  | none => exact ofEntries_languages (List.nil_subset _) hnodes
  | some directory =>
    obtain ⟨plain, node, rest, rfl, hnode, hrest⟩ := entries_isReadAs_cons hnodes
    have hcheck : Node.checkField "" fieldNames [] "markcheckDirectory" = .ok () := rfl
    have hdirectory : node.asOption Node.asText "markcheckDirectory" = .ok (some directory) :=
      Node.asOption_eq hnode (Node.asText_eq hnode)
    have hlanguages : ofEntries ⟨some directory, none⟩ ["markcheckDirectory"] rest =
        .ok ⟨some directory, languages⟩ := ofEntries_languages (List.Subset.refl _) hrest
    simpa [ofNode, ofEntries, Node.asField, hcheck, readField, hdirectory, empty, bind, Except.bind,
      Except.map] using hlanguages

end ConfigPatch

end Doctest
