import Doctest.Proofs.ConfigNodes
import Doctest.Proofs.Result
import Doctest.Proofs.WrittenLines

/-!
# Printed configurations

A configuration is printed as the patch that sets all of it. What is printed is stripped of comments
before it is read, and the end of its last line is lost there. Nothing else is lost if no text shows a
comment where it is written without quotes; then every configuration is read back whose last text does
not need the line end.

* `ReadsBack`: what is taken as given, that the reader undoes the writer.
* `parse_toYaml`: a patch is read back, since stripping leaves its lines as they are.
* `printed_reads_back`: the same for a configuration, and what its patch makes of another one.
-/

namespace Doctest

open Yaml (Node Tree)
open Yaml.Writer (Exposed KeptBehind KeptAsItem EntryKept PlainWord)
open LineComment (Inside KeptLines)

namespace Yaml

namespace Tree

mutual

/-- The text at the end of a tree as it is written. An empty list or record has none. -/
def lastText? : Tree → Option String
  | .text s => some s
  | .list items => lastItemText? items
  | .record entries => lastEntryText? entries

def lastItemText? : List Tree → Option String
  | [] => none
  | item :: rest => if rest.isEmpty then lastText? item else lastItemText? rest

def lastEntryText? : List (String × Tree) → Option String
  | [] => none
  | entry :: rest => if rest.isEmpty then valueText? entry else lastEntryText? rest

def valueText? : String × Tree → Option String
  | (_, value) => lastText? value

end

end Tree

/-- The last line end of what is written belongs to a text: that of a literal block at the end. -/
def KeepsLastLineEnd (entries : List (String × Tree)) : Prop :=
  ∃ s ∈ (Tree.record entries).lastText?,
    Writer.style false s = .literal ∧ s.toList.getLast? = some '\n'

instance (entries : List (String × Tree)) : Decidable (KeepsLastLineEnd entries) :=
  inferInstanceAs (Decidable (∃ s ∈ _, _ ∧ _))

/-- Whether a text was one well-formed document with this tree. -/
def Node.Content.holds (content : Node.Content) (tree : Tree) : Bool :=
  content.complete && content.root.any tree.isReadAs

/-- The reader undoes the writer. YAML lets the end of a text stand for its last line end, so it
does the same without that line end if it belongs to no text. -/
structure ReadsBack (entries : List (String × Tree)) : Prop where
  whole : (Node.read (Writer.document entries).toList).holds (.record entries) = true
  withoutLastLineEnd : ¬ KeepsLastLineEnd entries →
    (Node.read (Writer.document entries).toList).holds (.record entries) = true →
    (Node.read (Writer.document entries).toList.dropLast).holds (.record entries) = true

end Yaml

/-- The texts that a definition consists of. -/
def CommandDef.texts (d : CommandDef) : List String :=
  d.parent.toList ++ d.defaultFileName.toList ++ d.runFileName.toList ++
    (d.commands.getD []).flatten ++ d.beforeLines.getD [] ++ d.translator.toList

def LangDef.texts : LangDef → List String
  | .command d => d.texts
  | _ => []

/-- No text of a patch shows a comment where it is written without quotes. -/
structure ConfigPatch.Sheltered (patch : ConfigPatch) : Prop where
  directory : ∀ s ∈ patch.directory, ¬ Exposed false s
  key : ∀ languages ∈ patch.languages, ∀ entry ∈ languages.entries,
    ¬ Exposed (Yaml.Writer.isSimpleKey entry.1) entry.1
  text : ∀ languages ∈ patch.languages, ∀ entry ∈ languages.entries, ∀ s ∈ entry.2.texts,
    ¬ Exposed false s

namespace ConfigPatch

/-- The names of fields need no quotes. -/
theorem plainWord_of_mem_fieldNames {name : String}
    (hname : name ∈ fieldNames ++ CommandDef.fieldNames) : PlainWord name ∧ ¬ Exposed true name := by
  simp only [fieldNames, CommandDef.fieldNames, List.cons_append, List.nil_append, List.mem_cons,
    List.not_mem_nil, or_false] at hname
  rcases hname with rfl | rfl | rfl | rfl | rfl | rfl | rfl | rfl <;>
    exact ⟨by decide +kernel, by decide +kernel⟩

theorem entryKept_of_mem_fieldNames {name : String} {value : Tree}
    (hname : name ∈ fieldNames ++ CommandDef.fieldNames) (hvalue : KeptBehind .plain value) :
    EntryKept (name, value) := by
  obtain ⟨hword, hexposed⟩ := plainWord_of_mem_fieldNames hname
  refine Yaml.Writer.entryKept (hword.1 ▸ hexposed) fun inside hinside => ?_
  rw [hinside hword]
  exact hvalue

theorem keptBehind_text {s : String} (h : ¬ Exposed false s) : KeptBehind .plain (.text s) :=
  fun _ _ _ => Yaml.Writer.keptLines_text rfl h

end ConfigPatch

namespace CommandDef

open ConfigPatch (entryKept_of_mem_fieldNames keptBehind_text)

/-- The lines of a definition are kept if its texts are not exposed. -/
theorem keptBehind_toTree {d : CommandDef} (h : ∀ s ∈ d.texts, ¬ Exposed false s)
    (inside : Inside) : KeptBehind inside d.toTree := by
  refine Yaml.Writer.keptBehind_record fun entry hentry => ?_
  simp only [texts, List.mem_append, or_imp, forall_and] at h
  obtain ⟨⟨⟨⟨⟨hparent, hdefault⟩, hrun⟩, hcommands⟩, hlines⟩, htranslator⟩ := h
  have htext {name : String} {value : Option String} (hname : name ∈ fieldNames)
      (hvalue : ∀ s ∈ value.toList, ¬ Exposed false s)
      (hentry : entry ∈ (value.map fun t => (name, Tree.text t)).toList) : EntryKept entry := by
    obtain ⟨t, ht, rfl⟩ := Option.map_eq_some_iff.mp (Option.mem_toList.mp hentry)
    exact entryKept_of_mem_fieldNames (List.mem_append_right _ hname)
      (keptBehind_text (hvalue t (Option.mem_toList.mpr ht)))
  have hitems {ts : List String} (hts : ∀ s ∈ ts, ¬ Exposed false s) :
      ∀ item ∈ ts.map Tree.text, KeptAsItem item := by
    intro item hitem
    obtain ⟨t, ht, rfl⟩ := List.mem_map.mp hitem
    exact Yaml.Writer.keptAsItem_text (hts t ht)
  simp only [List.mem_append] at hentry
  rcases hentry with ((((hentry | hentry) | hentry) | hentry) | hentry) | hentry
  · exact htext (by decide) hparent hentry
  · exact htext (by decide) hdefault hentry
  · exact htext (by decide) hrun hentry
  · obtain ⟨commands, hd, rfl⟩ := Option.map_eq_some_iff.mp (Option.mem_toList.mp hentry)
    refine entryKept_of_mem_fieldNames (by decide)
      (Yaml.Writer.keptBehind_list fun item hitem => ?_)
    obtain ⟨command, hcommand, rfl⟩ := List.mem_map.mp hitem
    refine Yaml.Writer.keptAsItem_list (hitems fun s hs => hcommands s ?_)
    simpa [hd] using ⟨command, hcommand, hs⟩
  · obtain ⟨lines, hd, rfl⟩ := Option.map_eq_some_iff.mp (Option.mem_toList.mp hentry)
    exact entryKept_of_mem_fieldNames (by decide)
      (Yaml.Writer.keptBehind_list (hitems fun s hs => hlines s (by simpa [hd] using hs)))
  · exact htext (by decide) htranslator hentry

end CommandDef

namespace LangDef

theorem keptBehind_toTree {d : LangDef} (h : ∀ s ∈ d.texts, ¬ Exposed false s)
    (inside : Inside) : KeptBehind inside d.toTree := by
  cases d with
  | command d => exact d.keptBehind_toTree h inside
  | neverRun =>
    exact fun column listColumn before =>
      LineComment.keptLines_of_no_slash " '[neverRun]'".toList (by decide) (by decide) _
  | skip =>
    exact fun column listColumn before =>
      LineComment.keptLines_of_no_slash " '[skip]'".toList (by decide) (by decide) _

end LangDef

namespace ConfigPatch

theorem entryKept_of_mem_toTree {patch : ConfigPatch} (h : patch.Sheltered) :
    ∀ entry ∈ patch.toTree, EntryKept entry := by
  intro entry hentry
  rcases List.mem_append.mp hentry with hentry | hentry
  · obtain ⟨directory, hd, rfl⟩ := Option.map_eq_some_iff.mp (Option.mem_toList.mp hentry)
    exact entryKept_of_mem_fieldNames (by decide) (keptBehind_text (h.directory directory hd))
  · obtain ⟨languages, hl, rfl⟩ := Option.map_eq_some_iff.mp (Option.mem_toList.mp hentry)
    refine entryKept_of_mem_fieldNames (by decide)
      (Yaml.Writer.keptBehind_record fun entry hentry => ?_)
    obtain ⟨⟨key, d⟩, hmem, rfl⟩ := List.mem_map.mp hentry
    -- A key may open a string on its line, but a definition begins its own.
    have hkey : ¬ Exposed (Yaml.Writer.isSimpleKey key) key := h.key languages hl (key, d) hmem
    have hvalue (inside : Inside) : KeptBehind inside d.toTree :=
      LangDef.keptBehind_toTree (h.text languages hl (key, d) hmem) inside
    exact Yaml.Writer.entryKept hkey fun inside _ => hvalue inside

theorem toList_toYaml {patch : ConfigPatch} (h : patch.toTree.isEmpty = false) :
    patch.toYaml.toList = Yaml.Writer.entries 0 patch.toTree := by
  rw [toYaml, Yaml.Writer.document, h, if_neg Bool.false_ne_true, String.toList_ofList]

theorem keptLines_toYaml {patch : ConfigPatch} (h : patch.Sheltered) :
    KeptLines .start patch.toYaml.toList := by
  cases hempty : patch.toTree.isEmpty with
  | true =>
    rw [toYaml, Yaml.Writer.document, hempty, if_pos rfl]
    exact LineComment.keptLines_of_no_slash "\x7b\x7d".toList (by decide) (by decide) _
  | false =>
    rw [toList_toYaml hempty]
    exact Yaml.Writer.keptLines_entries 0 (entryKept_of_mem_toTree h)

/-- What is printed starts with the name of a field or a brace, which is not all of it. -/
theorem exists_toYaml (patch : ConfigPatch) :
    ∃ c d rest, patch.toYaml.toList = c :: d :: rest ∧ Text.isBlank c = false := by
  obtain ⟨directory, languages⟩ := patch
  have hword (name : String) (hname : name ∈ fieldNames) (value : Tree)
      (others : List (String × Tree)) :
      ∃ text, (Yaml.Writer.document ((name, value) :: others)).toList = name.toList ++ text := by
    obtain ⟨⟨hsimple, hstyle, _⟩, _⟩ :=
      plainWord_of_mem_fieldNames (List.mem_append_left _ hname)
    rw [Yaml.Writer.document, if_neg (by simp), String.toList_ofList, Yaml.Writer.entries,
      Yaml.Writer.entryText, if_pos hsimple, Yaml.Writer.scalar, hstyle]
    simp only [Yaml.Writer.spaces, List.replicate_zero, List.nil_append, List.append_assoc]
    exact ⟨_, rfl⟩
  cases directory with
  | some directory =>
    obtain ⟨text, htext⟩ := hword "markcheckDirectory" (by decide) (.text directory) _
    exact ⟨'m', 'a', _, htext, rfl⟩
  | none =>
    cases languages with
    | some languages =>
      obtain ⟨text, htext⟩ := hword "lang" (by decide)
        (.record (languages.entries.map fun entry => (entry.1, entry.2.toTree))) []
      exact ⟨'l', 'a', _, htext, rfl⟩
    | none => exact ⟨'\x7b', '\x7d', ['\n'], rfl, rfl⟩

/-- A text is read as a patch if its one document is. -/
theorem parse_eq_ok {text : String} {patch : ConfigPatch}
    (h : Text.isAllBlank (LineComment.strip text.toList) = false ∧
      (Node.read (LineComment.strip text.toList)).complete = true ∧
      ((Node.read (LineComment.strip text.toList)).root.bind
        fun node => (ofNode node).toOption) = some patch) :
    parse text = .ok patch := by
  obtain ⟨hblank, hcomplete, hroot⟩ := h
  obtain ⟨node, hnode, hpatch⟩ := Option.bind_eq_some_iff.mp hroot
  simp [parse, hblank, hcomplete, hnode, toOption_eq_some.mp hpatch]

/-- A patch is read back from what is printed of it. -/
theorem parse_toYaml {patch : ConfigPatch} (hread : Yaml.ReadsBack patch.toTree)
    (hlast : ¬ Yaml.KeepsLastLineEnd patch.toTree) (hsheltered : patch.Sheltered) :
    parse patch.toYaml = .ok patch := by
  have hstrip := LineComment.strip_eq_dropLast (keptLines_toYaml hsheltered)
  obtain ⟨c, d, rest, htext, hblank⟩ := exists_toYaml patch
  have hnotBlank : Text.isAllBlank patch.toYaml.toList.dropLast = false := by
    simp [htext, Text.isAllBlank, hblank]
  have hholds : (Node.read patch.toYaml.toList.dropLast).holds (.record patch.toTree) = true :=
    hread.withoutLastLineEnd hlast hread.whole
  obtain ⟨hcomplete, root, hroot, hsame⟩ :
      (Node.read patch.toYaml.toList.dropLast).complete = true ∧
        ∃ root, (Node.read patch.toYaml.toList.dropLast).root = some root ∧
          (Tree.record patch.toTree).isReadAs root = true := by
    simpa [Node.Content.holds, Option.any_eq_true] using hholds
  rw [← hstrip] at hnotBlank hcomplete hroot
  refine parse_eq_ok ⟨hnotBlank, hcomplete, ?_⟩
  rw [hroot]
  exact toOption_eq_some.mpr (ofNode_toTree hsame)

end ConfigPatch

namespace Config

/-- A patch of all that a configuration has replaces everything in a configuration that knows no
other language. -/
theorem apply_toPatch {config snapshot : Config}
    (hkeys : ∀ key ∈ snapshot.languages.keys, key ∈ config.languages.keys) :
    snapshot.apply config.toPatch =
      { directory := config.directory.or snapshot.directory, languages := config.languages } := by
  simp only [apply, toPatch, Keyed.union_eq_right hkeys]

/-- What is printed of a configuration is read as the patch that sets all of it. -/
theorem printed_reads_back (config : Config) (hread : Yaml.ReadsBack config.toPatch.toTree)
    (hlast : ¬ Yaml.KeepsLastLineEnd config.toPatch.toTree)
    (hsheltered : config.toPatch.Sheltered) :
    ConfigPatch.parse config.toPatch.toYaml = .ok config.toPatch ∧
      ∀ snapshot : Config, (∀ key ∈ snapshot.languages.keys, key ∈ config.languages.keys) →
        snapshot.apply config.toPatch =
          { directory := config.directory.or snapshot.directory, languages := config.languages } :=
  ⟨ConfigPatch.parse_toYaml hread hlast hsheltered, fun _ hkeys => apply_toPatch hkeys⟩

/-- The built-in configuration after a patch that adds a language with this line in front. -/
def withLine (line : String) : Config :=
  builtin.apply
    ⟨none, some (.ofList [("zz", .command { CommandDef.empty with beforeLines := some [line] })])⟩

theorem toList_toYaml_withLine (line : String) :
    (Yaml.Writer.document (withLine line).toPatch.toTree).toList =
      Yaml.Writer.entries 0 (withLine line).toPatch.toTree :=
  ConfigPatch.toList_toYaml rfl

/-- Slashes that quotes hide are read back. -/
theorem printed_reads_back_hiddenSlashes :
    ConfigPatch.parse (withLine "'a // b'").toPatch.toYaml =
      .ok (withLine "'a // b'").toPatch := by
  have hread : Yaml.ReadsBack (withLine "'a // b'").toPatch.toTree := by
    constructor <;> rw [toList_toYaml_withLine] <;> decide +kernel
  have hlast : ¬ Yaml.KeepsLastLineEnd (withLine "'a // b'").toPatch.toTree := by
    decide +kernel
  have hsheltered : (withLine "'a // b'").toPatch.Sheltered :=
    ⟨by decide +kernel, by decide +kernel, by decide +kernel⟩
  exact (printed_reads_back _ hread hlast hsheltered).1

/-- Slashes behind a space are written without quotes, and what follows is lost. -/
theorem printed_loses_shownSlashes :
    ConfigPatch.parse (withLine "a // b").toPatch.toYaml = .ok (withLine "a").toPatch := by
  apply ConfigPatch.parse_eq_ok
  rw [ConfigPatch.toYaml, toList_toYaml_withLine]
  decide +kernel

end Config

end Doctest
