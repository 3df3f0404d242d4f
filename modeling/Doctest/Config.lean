import Doctest.Fault
import Doctest.Keyed
import Doctest.Text.Search
import Doctest.Visited

/-!
# Configurations

A configuration says for each language what is done with snippets of that language. A patch replaces
the definitions of the languages that it names. A definition may extend another one; it takes the
fields that it does not set from there when it is looked up, so a patch to the other one counts too.
-/

namespace Doctest

/-- How snippets of a language are run. -/
structure CommandDef where
  parent : Option String
  defaultFileName : Option String
  runFileName : Option String
  commands : Option (List (List String))
  beforeLines : Option Lines
  translator : Option String
  deriving DecidableEq, Repr, Inhabited

namespace CommandDef

/-- The definition without any field. -/
def empty : CommandDef := ⟨none, none, none, none, none, none⟩

/-- The fields of `child`, and those of `parent` that it does not set. The result extends nothing. -/
def inherit (child parent : CommandDef) : CommandDef where
  parent := none
  defaultFileName := child.defaultFileName.or parent.defaultFileName
  runFileName := child.runFileName.or parent.runFileName
  commands := child.commands.or parent.commands
  beforeLines := child.beforeLines.or parent.beforeLines
  translator := child.translator.or parent.translator

/-- The file that a snippet is written to if it names none itself. -/
def fileName (d : CommandDef) : Option String := d.runFileName.or d.defaultFileName

end CommandDef

/-- What is done with snippets of a language. -/
inductive LangDef
  | command (d : CommandDef)
  /-- Snippets are checked but not run. -/
  | neverRun
  /-- Snippets are passed over. -/
  | skip
  deriving DecidableEq, Repr, Inhabited

/-- A change to a configuration. -/
structure ConfigPatch where
  directory : Option String
  languages : Option (Keyed LangDef)
  deriving DecidableEq, Repr, Inhabited

/-- What is in force at a place of a run. -/
structure Config where
  directory : Option String
  languages : Keyed LangDef
  deriving DecidableEq, Repr, Inhabited

namespace Config

/-- Stands for the file of a snippet in a command. -/
def fileNameWord : String := "$FILE_NAME"

/-- Stands for all files of a snippet, if it is a whole argument. -/
def allFileNamesWord : String := "$ALL_FILE_NAMES"

/-- A language whose snippets are run by one command with the file name behind it. -/
def runBy (program file : String) : CommandDef :=
  { CommandDef.empty with
    defaultFileName := some file, commands := some [[program, fileNameWord]] }

/-- The languages that are known without any configuration. -/
def builtin : Config where
  directory := none
  languages := .ofList [
    ("", .neverRun),
    ("txt", .neverRun),
    ("js", .command { runBy "node" "main.mjs" with
      beforeLines := some ["import assert from 'node:assert/strict';"] }),
    ("node-repl", .command { CommandDef.empty with
      parent := some "js", translator := some "node-repl" }),
    ("sh", .command (runBy "bash" "main.sh")),
    ("bash", .command (runBy "bash" "main.sh")),
    ("python", .command (runBy "python3" "main.py"))]

/-- The configuration after a patch. -/
def apply (config : Config) (patch : ConfigPatch) : Config where
  directory := patch.directory.or config.directory
  languages := match patch.languages with
    | some newer => config.languages.union newer
    | none => config.languages

/-- The configuration as a patch. -/
def toPatch (config : Config) : ConfigPatch := ⟨config.directory, some config.languages⟩

end Config

namespace Keyed

theorem mem_keys_of_get? {α : Type} {m : Keyed α} {k : String} {v : α} (h : m.get? k = some v) :
    k ∈ m.keys := by
  obtain ⟨entries, hasc⟩ := m
  simp only [get?, keys] at h ⊢
  clear hasc
  induction entries with
  | nil => simp at h
  | cons e rest ih =>
    obtain ⟨k', v'⟩ := e
    by_cases hk : k = k'
    · simp [hk]
    · have hb : (k == k') = false := by simpa using hk
      rw [List.lookup_cons, hb] at h
      exact List.mem_cons_of_mem _ (ih h)

/-- A map replaces one that has no other keys. -/
theorem union_eq_right {older newer : Keyed α} (h : ∀ k ∈ older.keys, k ∈ newer.keys) :
    older.union newer = newer := by
  refine ext_get? fun k => ?_
  rw [get?_union]
  cases hnewer : newer.get? k with
  | some v => rfl
  | none =>
    cases holder : older.get? k with
    | none => rfl
    | some v =>
      have hmem := h k (mem_keys_of_get? holder)
      have hcontains : newer.contains k = false := by rw [contains, hnewer]; rfl
      obtain ⟨e, he, rfl⟩ := List.mem_map.mp hmem
      exact absurd rfl (contains_eq_false_iff.mp hcontains e he)

end Keyed

namespace Config

/-- Looks a language up and follows what it extends. `chain` holds the languages passed so far. -/
def resolve (config : Config) (chain : List String) (key : String) :
    Except Fault (Option LangDef) :=
  if hchain : key ∈ chain then .error (.of (ConfigCause.extendsCycle (chain ++ [key])))
  else
    match hget : config.languages.get? key with
    | some (.command d) =>
      match d.parent with
      | none => .ok (some (.command d))
      | some parentKey =>
        have : unvisited config.languages.keys (chain ++ [key]) <
            unvisited config.languages.keys chain :=
          unvisited_append_lt (Keyed.mem_keys_of_get? hget) hchain
        match config.resolve (chain ++ [key]) parentKey with
        | .error fault => .error fault
        | .ok (some (.command parent)) => .ok (some (.command (d.inherit parent)))
        | .ok (some _) => .error (.of (ConfigCause.extendsWithoutCommands key parentKey))
        | .ok none => .error (.of (ConfigCause.extendsUnknown key parentKey))
    | other => .ok other
termination_by unvisited config.languages.keys chain

/-- The definition of a language with what it extends; `none` if the language is not known. -/
def lang? (config : Config) (key : String) : Except Fault (Option LangDef) :=
  config.resolve [] key

end Config

/-- The commands of a snippet. An argument that stands for all files becomes one argument for each;
the word for the file is replaced inside an argument too. -/
def fillCommands (commands : List (List String)) (file : String) (allFiles : List String) :
    List (List String) :=
  commands.map fun template => template.flatMap fun arg =>
    if arg = Config.allFileNamesWord then allFiles
    else [String.ofList (Text.replace Config.fileNameWord.toList file.toList arg.toList)]

end Doctest
