import Doctest.Files.Workspace
import Doctest.Proofs.Result
import Doctest.Proofs.Visits

/-!
# Written files

The lines of a file are joined with newlines and get a last one, and what is read is cut at its
newlines again. Both agree on every list of lines but the empty one: joining no lines gives the same
text as joining one empty line, so a file that is written with no lines has one.

* `lines_content`, `content_eq_content_iff`: what the content of a file says about its lines.
* `KeepsDirectories`: paths lead to the same places as long as no directory is lost.
* `Slot.Names`, `write_eq_ok_iff`, `Files.read_of_write`: a file is written to the place that its path
  leads to afterwards, so it is found there with its content.
* `Wrote`, `write_reads_back`: what a workspace writes and what it finds, up to the empty list of lines.
* `external_not_empty`: the file beside a snippet that is meant to be empty.
-/

namespace Doctest

/-! ## Contents of files -/

namespace Text

/-- A line that can stand in a file: no newline is in it, and it does not end in a carriage return. -/
def IsLine (l : String) : Prop := '\n' ∉ l.toList ∧ l.toList.getLast? ≠ some '\r'

/-- The lines that a file has for its readers when these lines were written to it. -/
def readBack (ls : Lines) : Lines := if ls = [] then [""] else ls

instance (l : String) : Decidable (IsLine l) := inferInstanceAs (Decidable (_ ∧ _))

variable {ls ls' : Lines}

theorem content_readBack (ls : Lines) : content (readBack ls) = content ls := by
  cases ls <;> rfl

theorem toList_content (hne : ls ≠ []) :
    (content ls).toList = (ls.map String.toList).flatMap (· ++ ['\n']) := by
  obtain ⟨front, l, rfl⟩ : ∃ front l, ls = front ++ [l] :=
    ⟨_, _, (List.dropLast_concat_getLast hne).symm⟩
  have hjoin : (joinLines (front ++ [l])).toList =
      (front.map String.toList).flatMap (· ++ ['\n']) ++ l.toList := by
    rw [joinLines, String.toList_intercalate, List.map_append, List.map_singleton]
    exact intercalate_lines _ _
  rw [content, String.toList_append, hjoin]
  simp

/-- Cutting a file at its newlines gives back what was written. -/
theorem lines_content (hls : ∀ l ∈ ls, IsLine l) : lines (content ls) = readBack ls := by
  by_cases hne : ls = []
  · subst hne
    rfl
  · have hends : ∀ l ∈ ls.map String.toList, '\n' ∉ l ∧ l.getLast? ≠ some '\r' := by
      intro l hl
      obtain ⟨s, hs, rfl⟩ := List.mem_map.mp hl
      exact hls s hs
    have hlist : lineList (content ls).toList = ls.map String.toList := by
      rw [toList_content hne, ← List.append_nil (List.flatMap _ _),
        lineList_lines hends List.not_mem_nil, if_pos rfl]
    rw [lines, hlist, readBack, if_neg hne, List.map_map]
    exact (List.map_congr_left fun s _ => String.ofList_toList).trans (List.map_id' ls)

/-- Two lists of lines make the same file only if one is empty and the other has one empty line. -/
theorem content_eq_content_iff (hls : ∀ l ∈ ls, IsLine l) (hls' : ∀ l ∈ ls', IsLine l) :
    content ls' = content ls ↔ ls' = ls ∨ ls' = [] ∧ ls = [""] ∨ ls' = [""] ∧ ls = [] := by
  have hread : content ls' = content ls ↔ readBack ls' = readBack ls := by
    constructor
    · intro h
      rw [← lines_content hls', h, lines_content hls]
    · intro h
      rw [← content_readBack ls', h, content_readBack]
  rw [hread]
  unfold readBack
  split <;> split <;> simp_all [eq_comm]

end Text

/-! ## Reading what was written -/

namespace Files

variable {files files' : Files} {directory l l' : Location} {p : Path} {content : String}

/-- Every directory of the first tree is one of the second. -/
def KeepsDirectories (files files' : Files) : Prop :=
  ∀ l, files.node? l = some .directory → files'.node? l = some .directory

theorem requireDirectory_eq_ok_iff :
    files.requireDirectory l = .ok () ↔ files.node? l = some .directory := by
  unfold requireDirectory
  split <;> simp_all

/-- Where a name leads to from a directory. -/
def next (l : Location) (name : String) : Except FileError Location :=
  if name = "" || name = "." then .ok l
  else if name = ".." then .ok l.dropLast
  else if longestName < name.utf8ByteSize then .error .nameTooLong
  else .ok (l ++ [name])

theorem walk_cons (name : String) (rest : List String) :
    files.walk l (name :: rest) =
      files.requireDirectory l >>= fun _ => next l name >>= fun l' => files.walk l' rest := by
  rw [walk, next]
  refine bind_congr fun _ => ?_
  split
  · rfl
  · split
    · rfl
    · split <;> rfl

theorem walk_append (front rest : List String) :
    files.walk l (front ++ rest) = files.walk l front >>= fun l' => files.walk l' rest := by
  induction front generalizing l with
  | nil => rfl
  | cons name front ih => simp only [List.cons_append, walk_cons, bind_assoc, ih]

theorem KeepsDirectories.walk (h : KeepsDirectories files files') {names : List String}
    (hwalk : files.walk l names = .ok l') : files'.walk l names = .ok l' := by
  induction names generalizing l with
  | nil => exact hwalk
  | cons name rest ih =>
    rw [walk_cons] at hwalk ⊢
    obtain ⟨hl, hwalk⟩ := unit_bind_eq_ok.mp hwalk
    obtain ⟨after, hnext, hwalk⟩ := bind_eq_ok.mp hwalk
    have hl' := requireDirectory_eq_ok_iff.mpr (h l (requireDirectory_eq_ok_iff.mp hl))
    exact unit_bind_eq_ok.mpr ⟨hl', bind_eq_ok.mpr ⟨after, hnext, ih hwalk⟩⟩

/-! ### Entries -/

theorem node?_put_self (hl : l ≠ []) (node : FileNode) : (files.put l node).node? l = some node := by
  unfold node? put
  rw [if_neg (by simpa using hl), Keyed.get?_insert, if_pos rfl]

/-- A file in place of what is no directory. -/
theorem keepsDirectories_put (hl : files.node? l ≠ some .directory) (node : FileNode) :
    KeepsDirectories files (files.put l node) := by
  have hne : l ≠ [] := fun h => hl (by rw [h]; rfl)
  intro l' hl'
  by_cases hempty : l' = []
  · rw [hempty]
    rfl
  · unfold node? at hl hl' ⊢
    rw [if_neg (by simpa using hempty)] at hl' ⊢
    rw [if_neg (by simpa using hne)] at hl
    have hpath : l'.path ≠ l.path := fun h => hl (h ▸ hl')
    rw [put, Keyed.get?_insert, if_neg hpath, hl']

/-- The entry that a slot is made for: its path consists of the names on the way to the directory and
of the entry's own name, which has a length that names may have. -/
structure Slot.Names (s : Slot) (files : Files) (directory : Location) (p : Path) : Prop where
  names : ∃ above, Path.names p = above ++ [s.name] ∧
    files.walk (start directory p) above = .ok s.parent
  isDirectory : files.node? s.parent = some .directory
  notLong : ¬ longestName < s.name.utf8ByteSize

theorem names_of_slot {s : Slot} (hslot : files.slot directory p = .ok s) (hidle : ¬ s.isIdle)
    (hslashed : ¬ s.slashed) : s.Names files directory p := by
  unfold slot at hslot
  obtain ⟨parent, hwalk, hslot⟩ := bind_eq_ok.mp hslot
  obtain ⟨hparent, hslot⟩ := unit_bind_eq_ok.mp hslot
  obtain ⟨rest, -, hall, -⟩ := Text.exists_dropEnd_append (· = "") (Path.names p)
  simp only at hslot
  generalize ((Path.names p).reverse.dropWhile fun name => decide (name = "")).reverse = used
    at hslot hwalk hall
  split at hslot
  · cases hslot
  · next hlong =>
    cases hslot
    -- No slash follows the last name, so all names are in use.
    have hrest : rest = [] := by
      have hlength := congrArg List.length hall
      rw [List.length_append] at hlength
      have : ¬ used.length < (Path.names p).length := by simpa using hslashed
      exact List.eq_nil_of_length_eq_zero (by omega)
    rw [hrest, List.append_nil] at hall
    have hused : used ≠ [] := by
      intro h
      simp [h, Slot.isIdle] at hidle
    have hlast : used.getLast?.getD "" = used.getLast hused := by
      rw [List.getLast?_eq_some_getLast hused, Option.getD_some]
    refine ⟨⟨used.dropLast, ?_, hwalk⟩, requireDirectory_eq_ok_iff.mp hparent, hlong⟩
    rw [hall, hlast, List.dropLast_concat_getLast]

theorem Slot.Names.locate {s : Slot} (h : s.Names files directory p) (hidle : ¬ s.isIdle)
    (hkeeps : KeepsDirectories files files') : files'.locate directory p = .ok s.location := by
  obtain ⟨⟨above, hnames, hwalk⟩, hdirectory, hlong⟩ := h
  have hname : s.name ≠ "" ∧ s.name ≠ "." ∧ s.name ≠ ".." := by
    simpa [Slot.isIdle, and_assoc] using hidle
  have hne : ¬ p.isEmpty := by
    intro hp
    obtain rfl := String.isEmpty_iff.mp hp
    have hlast := congrArg List.getLast? hnames
    rw [List.getLast?_concat] at hlast
    exact hname.1 (Option.some.inj hlast).symm
  have hnext : next s.parent s.name = .ok s.location := by
    simp [next, hname, hlong, Slot.location]
  rw [Files.locate, if_neg hne, hnames, walk_append]
  refine bind_eq_ok.mpr ⟨s.parent, hkeeps.walk hwalk, ?_⟩
  rw [walk_cons]
  exact unit_bind_eq_ok.mpr ⟨requireDirectory_eq_ok_iff.mpr (hkeeps _ hdirectory),
    bind_eq_ok.mpr ⟨_, hnext, rfl⟩⟩

/-- A write that succeeds puts a file where no directory is. What it writes plays no part in that. -/
theorem write_eq_ok_iff : files.write directory p content = .ok files' ↔
    ∃ s, files.slot directory p = .ok s ∧ ¬ s.isIdle ∧ ¬ s.slashed ∧
      files.node? s.location ≠ some .directory ∧
      files' = files.put s.location (.file content) := by
  unfold write
  rw [bind_eq_ok]
  refine exists_congr fun s => and_congr_right fun _ => ?_
  split
  · next huse =>
    have huse : s.isIdle ∨ s.slashed := by simpa using huse
    simp only [reduceCtorEq, false_iff]
    exact fun ⟨hidle, hslashed, _⟩ => huse.elim hidle hslashed
  · next huse =>
    have huse : ¬ s.isIdle ∧ ¬ s.slashed := by simpa using huse
    split
    · next hnode => simp [hnode]
    · next hnode =>
      rw [Except.ok.injEq, eq_comm]
      exact ⟨fun h => ⟨huse.1, huse.2, hnode, h⟩, fun h => h.2.2.2⟩

/-- A file that was written holds its content. -/
theorem read_of_write (h : files.write directory p content = .ok files') :
    files'.read directory p = .ok content := by
  obtain ⟨s, hslot, hidle, hslashed, hnode, rfl⟩ := write_eq_ok_iff.mp h
  have hlocate := (names_of_slot hslot hidle hslashed).locate hidle
    (keepsDirectories_put hnode (.file content))
  have hlook : (files.put s.location (.file content)).look directory p = .ok (.file content) := by
    refine bind_eq_ok.mpr ⟨s.location, hlocate, ?_⟩
    rw [node?_put_self (by simp [Slot.location])]
  exact bind_eq_ok.mpr ⟨_, hlook, rfl⟩

end Files

/-! ## Workspaces -/

/-- What a snippet comes to that is looked up among the lines of a file. -/
def Snippet.lookUp (s : Snippet) (path : String) (own lines : Lines) : Except Stop Outcome :=
  if containsLines lines own then .ok (.done s!"contained in `{path}`")
  else
    .error (.failure { Failure.of s.line s!"Content is not contained in file `{path}`" with
      difference := some (own, lines) })

namespace Workspace

variable {w w' w'' : Workspace} {file path : Path} {ls ls' : Lines}

@[simp] theorem tell_files (w : Workspace) (text : String) : (w.tell text).files = w.files := by
  unfold tell
  split <;> rfl

@[simp] theorem tell_directory (w : Workspace) (text : String) :
    (w.tell text).directory = w.directory := by
  unfold tell
  split <;> rfl

@[simp] theorem tell_documentDirectory (w : Workspace) (text : String) :
    (w.tell text).documentDirectory = w.documentDirectory := by
  unfold tell
  split <;> rfl

/-- What a write that succeeds leaves: the file's directory is made first, then the file. -/
structure Wrote (w : Workspace) (file : Path) (ls : Lines) (w' : Workspace) : Prop where
  documentDirectory : w'.documentDirectory = w.documentDirectory
  directory : w'.directory = w.directory
  files : ∃ files, w.files.makeDirectories w.directory
      ((Path.parent? (Path.join w.outputDirectory file)).getD "") = .ok files ∧
    files.write w.directory (Path.join w.outputDirectory file) (Text.content ls) = .ok w'.files

/-- A change of the tree is taken over, and only that. -/
theorem commit_eq_ok {result : Except FileError Files} (h : w.commit result = (.ok (), w')) :
    ∃ files, result = .ok files ∧ w' = { w with files } := by
  cases result with
  | error e => cases (Prod.mk.inj h).1
  | ok files => exact ⟨files, rfl, (Prod.mk.inj h).2.symm⟩

theorem wrote_of_write (h : w.write file ls = (.ok (), w')) : w.Wrote file ls w' := by
  unfold write at h
  simp only at h
  split at h
  · cases (Prod.mk.inj h).1
  · next files hmade =>
    obtain ⟨after, hwrite, hafter⟩ := commit_eq_ok h
    rw [tell_files, tell_directory] at hwrite
    rw [hafter]
    exact ⟨tell_documentDirectory .., tell_directory .., files, hmade, hwrite⟩

theorem Wrote.exists_write (h : w.Wrote file ls w') (ls' : Lines) :
    ∃ w'', w.write file ls' = (.ok (), w'') := by
  obtain ⟨files, hmade, hwrite⟩ := h.files
  obtain ⟨s, hslot, hidle, hslashed, hnode, -⟩ := Files.write_eq_ok_iff.mp hwrite
  have hother := Files.write_eq_ok_iff.mpr
    ⟨s, hslot, hidle, hslashed, hnode, (rfl : _ = files.put s.location (.file (Text.content ls')))⟩
  unfold write
  simp only [hmade, tell_files, tell_directory, hother]
  exact ⟨_, rfl⟩

theorem Wrote.read (h : w.Wrote file ls w')
    (hpath : Path.join w.documentDirectory path = Path.join w.outputDirectory file) :
    w'.read path = .ok (Text.content ls) := by
  obtain ⟨files, -, hwrite⟩ := h.files
  have hread := Files.read_of_write hwrite
  rw [Workspace.read, h.documentDirectory, h.directory, hpath]
  exact mapError_eq_ok.mpr hread

/-- The same file is written only with the same content. -/
theorem Wrote.files_eq_iff (h : w.Wrote file ls w') (h' : w.Wrote file ls' w'') :
    w''.files = w'.files ↔ Text.content ls' = Text.content ls := by
  obtain ⟨files, hmade, hwrite⟩ := h.files
  obtain ⟨files', hmade', hwrite'⟩ := h'.files
  obtain rfl : files = files' := Except.ok.inj (hmade.symm.trans hmade')
  constructor
  · intro heq
    have hread := Files.read_of_write hwrite'
    rw [heq, Files.read_of_write hwrite] at hread
    exact (Except.ok.inj hread).symm
  · intro heq
    rw [heq, hwrite] at hwrite'
    exact (Except.ok.inj hwrite').symm

/-! ## Snippets that are looked up -/

theorem findSnippet_run {content : String} {scope : Scope} {s : Snippet} {own : Lines}
    (hread : w.read path = .ok content) (hown : scope.innerLines s = .ok own) (calls : List Call) :
    (scope.findSnippet host s path).run ⟨w, calls⟩ =
      (s.lookUp path own (Text.lines content), ⟨w, calls ++ [.read path]⟩) := by
  have hask : (Action.ask host (.read path)).run ⟨w, calls⟩ =
      (.ok (w.read path), ⟨w, calls ++ [.read path]⟩) := rfl
  have hfound : (Action.ofFault (scope.innerLines s)).run ⟨w, calls ++ [.read path]⟩ =
      (.ok own, ⟨w, calls ++ [.read path]⟩) := by
    rw [hown]
    rfl
  unfold Scope.findSnippet
  rw [Action.run_bind, hask, hread]
  dsimp only
  rw [Action.run_bind, hfound, Snippet.lookUp]
  dsimp only
  split <;> rfl

/-! ## What is written and what is read -/

/-- **What is written is read back.** Whoever reads a file that was written gets the lines that were
written to it, and a snippet is looked up among them; instead of no lines there is an empty one.
Other lines can be written to the file just as well, and they leave another tree unless the two lists
are that of no lines and that of one empty line. -/
theorem write_reads_back (hls : ∀ l ∈ ls, Text.IsLine l) (h : w.write file ls = (.ok (), w')) :
    (∀ path, Path.join w.documentDirectory path = Path.join w.outputDirectory file →
      w'.read path = .ok (Text.content ls) ∧
      Text.lines (Text.content ls) = (if ls = [] then [""] else ls) ∧
      ∀ (scope : Scope) (s : Snippet) own calls, scope.innerLines s = .ok own →
        (scope.findSnippet host s path).run ⟨w', calls⟩ =
          (s.lookUp path own (if ls = [] then [""] else ls), ⟨w', calls ++ [.read path]⟩)) ∧
    ∀ ls', (∀ l ∈ ls', Text.IsLine l) → ∃ w'', w.write file ls' = (.ok (), w'') ∧
      (w''.files = w'.files ↔ ls' = ls ∨ ls' = [] ∧ ls = [""] ∨ ls' = [""] ∧ ls = []) := by
  have hwrote := wrote_of_write h
  have hlines := Text.lines_content hls
  refine ⟨fun path hpath => ⟨hwrote.read hpath, hlines, fun scope s own calls hown => ?_⟩,
    fun ls' hls' => ?_⟩
  · have hfind := findSnippet_run (hwrote.read hpath) hown calls
    rwa [hlines] at hfind
  · obtain ⟨w'', h'⟩ := hwrote.exists_write ls'
    refine ⟨w'', h', ?_⟩
    rw [hwrote.files_eq_iff (wrote_of_write h'), Text.content_eq_content_iff hls hls']

/-- A workspace on a tree without entries, with the document at the root. -/
def bare : Workspace := ⟨.empty, [], "/", "/out", false, []⟩

theorem write_reads_back_blankEnds :
    ∃ w', bare.write "a/b.txt" ["x", "", ""] = (.ok (), w') ∧
      (∀ l ∈ ["x", "", ""], Text.IsLine l) ∧
      Path.join "/" "out/a/b.txt" = Path.join "/out" "a/b.txt" ∧
      w'.read "out/a/b.txt" = .ok "x\n\n\n" ∧ Text.lines "x\n\n\n" = ["x", "", ""] ∧
      ∃ w'', bare.write "a/b.txt" ["x"] = (.ok (), w'') ∧ w''.files ≠ w'.files := by
  have hok : (bare.write "a/b.txt" ["x", "", ""]).1.toOption = some () := by decide +kernel
  have hwrite : bare.write "a/b.txt" ["x", "", ""] =
      (.ok (), (bare.write "a/b.txt" ["x", "", ""]).2) := Prod.ext (toOption_eq_some.mp hok) rfl
  have hls : ∀ l ∈ ["x", "", ""], Text.IsLine l := by decide
  have hpath : Path.join "/" "out/a/b.txt" = Path.join "/out" "a/b.txt" := by decide +kernel
  obtain ⟨hread, hothers⟩ := write_reads_back hls hwrite
  obtain ⟨hcontent, hlines, -⟩ := hread _ hpath
  obtain ⟨w'', hwrite', hiff⟩ := hothers ["x"] (by decide)
  exact ⟨_, hwrite, hls, hpath, hcontent, hlines, w'', hwrite', fun h => by simpa using hiff.mp h⟩

/-- A snippet without lines that comes with a file that is to have none either. -/
def besideEmpty : String := "<!--markcheck external=\">empty.txt\"-->\n```sh\n```\n"

/-- **A file without lines is not empty.** A run writes it with no lines, and it has one then. -/
theorem external_not_empty :
    ∃ d report w, Document.parse besideEmpty = .ok d ∧
      d.run host .builtin ⟨bare, []⟩ = (.ok report, w) ∧
      .write "empty.txt" [] ∈ w.calls ∧ w.state.read "/out/empty.txt" = .ok "\n" ∧
      Text.content [] = "\n" ∧ Text.lines "\n" = [""] ∧ Text.content [""] = Text.content [] := by
  have hrun : (Document.parse besideEmpty).toOption.bind (fun d =>
      (d.run host .builtin ⟨bare, []⟩).1.toOption.map fun _ =>
        let w := (d.run host .builtin ⟨bare, []⟩).2
        (w.calls, (w.state.read "/out/empty.txt").toOption)) =
      some ([.write "main.sh" [], .write "empty.txt" [], .run ["bash", "main.sh"]], some "\n") := by
    decide +kernel
  obtain ⟨d, hd, hrun⟩ := Option.bind_eq_some_iff.mp hrun
  obtain ⟨report, hreport, hleft⟩ := Option.map_eq_some_iff.mp hrun
  obtain ⟨hcalls, hread⟩ := Prod.mk.inj hleft
  refine ⟨d, report, _, toOption_eq_some.mp hd, Prod.ext (toOption_eq_some.mp hreport) rfl, ?_,
    toOption_eq_some.mp hread, by decide, by decide, by decide⟩
  rw [hcalls]
  simp

end Workspace

end Doctest
