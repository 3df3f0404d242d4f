import Doctest.Proofs.Result
import Doctest.Proofs.Visits

/-!
# The verdict on a snippet that is run

A snippet whose files are written is judged by how its commands end. What is expected of them is said
here without the functions that check it.

* `Scope.Accepts`: what a snippet expects of its last command: how it ends, and what it puts out.
* `Host.results`: what commands come to if all of them are run.
* `Scope.RunsAll`: how commands are run one after the other; from it, which of them are run
  (`RunsAll.calls`) and when all is well (`RunsAll.eq_ok_iff`).
* `Scope.runSnippet_verdict`: a snippet is done if and only if each command is started, all but the
  last succeed, and the snippet accepts the last one.
-/

namespace Doctest

/-! ## What is expected -/

/-- The command ended with exit status zero, and no signal ended it. -/
def CommandResult.Succeeds (r : CommandResult) : Prop := r.signal = none ∧ r.exitStatus = some 0

/-- The exit status that a snippet asks for, zero if it asks for none. -/
def ExitStatus.Allows : Option ExitStatus → Int → Prop
  | none, n => n = 0
  | some (.code expected), n => n = expected
  | some .nonzero, n => n ≠ 0

namespace Scope

/-- The lines of the output, edited by the line mod that is asked for. -/
def Edited (scope : Scope) (lineModId : Option String) (captured : String) (lines : Lines) : Prop :=
  match lineModId with
  | none => lines = Text.lines captured
  | some id => ∃ m, scope.document.lineMod? id = some m ∧ m.edit (Text.lines captured) = .ok lines

/-- The edited output is what the snippet holds that is named, but for empty lines at the end. -/
def Shows (scope : Scope) (content : StreamContent) (captured : String) : Prop :=
  ∃ s expected actual, scope.document.snippet? content.snippetId = some s ∧
    scope.innerLines s = .ok expected ∧ scope.Edited content.lineModId captured actual ∧
    ∃ m n, expected ++ List.replicate m "" = actual ++ List.replicate n ""

/-- What a snippet expects of its last command. -/
structure Accepts (scope : Scope) (p : Properties) (r : CommandResult) : Prop where
  signal : r.signal = none
  exitStatus : ∃ code, r.exitStatus = some code ∧ ExitStatus.Allows p.exitStatus code
  stdout : ∀ content, p.stdout = some content → scope.Shows content r.stdout
  stderr : ∀ content, p.stderr = some content → scope.Shows content r.stderr

end Scope

/-- What commands come to when a host is asked to run all of them, one after the other. -/
def Host.results {σ : Type} (host : Host σ) (st : σ) :
    List (List String) → List (Except String CommandResult)
  | [] => []
  | argv :: rest =>
    (host.answer (.run argv) st).1 :: host.results (host.answer (.run argv) st).2 rest

/-- Each command was started, all but the last succeeded, and the last one is as expected. -/
def EndsWell (results : List (Except String CommandResult)) (expected : CommandResult → Prop) :
    Prop :=
  ∃ (init : List CommandResult) (last : CommandResult),
    results = init.map .ok ++ [.ok last] ∧ (∀ r ∈ init, r.Succeeds) ∧ expected last

section EndsWell

variable {expected : CommandResult → Prop} {result : Except String CommandResult}
  {results : List (Except String CommandResult)}

theorem endsWell_single : EndsWell [result] expected ↔ ∃ r, result = .ok r ∧ expected r := by
  constructor
  · rintro ⟨_ | ⟨_, _ | _⟩, last, ⟨⟩, -, hlast⟩
    exact ⟨last, rfl, hlast⟩
  · rintro ⟨r, rfl, hr⟩
    exact ⟨[], r, rfl, by simp, hr⟩

theorem endsWell_cons (h : results ≠ []) :
    EndsWell (result :: results) expected ↔
      ∃ r, result = .ok r ∧ r.Succeeds ∧ EndsWell results expected := by
  constructor
  · rintro ⟨init, last, hall, hinit, hlast⟩
    cases init with
    | nil => exact absurd (List.cons.inj hall).2 h
    | cons r init =>
      obtain ⟨rfl, rfl⟩ := List.cons.inj hall
      obtain ⟨hr, hinit⟩ := List.forall_mem_cons.mp hinit
      exact ⟨r, rfl, hr, init, last, rfl, hinit, hlast⟩
  · rintro ⟨r, rfl, hr, init, last, rfl, hinit, hlast⟩
    exact ⟨r :: init, last, rfl, List.forall_mem_cons.mpr ⟨hr, hinit⟩, hlast⟩

end EndsWell

/-! ## What is checked -/

theorem CommandResult.succeeded_iff {r : CommandResult} : r.succeeded ↔ r.Succeeds := by
  unfold succeeded Succeeds
  rw [Bool.and_eq_true, Option.isNone_iff_eq_none, decide_eq_true_iff]

theorem ExitStatus.accepts_getD_iff {expected : Option ExitStatus} {n : Int} :
    (expected.getD (.code 0)).accepts n ↔ ExitStatus.Allows expected n := by
  rcases expected with _ | ⟨_ | _⟩ <;> simp [accepts, Allows]

namespace Scope

section Checks

variable {scope : Scope} {line : Nat} {p : Properties} {r : CommandResult}

theorem checkExit_eq_ok :
    checkExit p r = .ok () ↔
      r.signal = none ∧ ∃ code, r.exitStatus = some code ∧ ExitStatus.Allows p.exitStatus code := by
  unfold checkExit
  cases r.signal with
  | some signal => simp
  | none =>
    cases r.exitStatus with
    | none => simp
    | some code => simp [← ExitStatus.accepts_getD_iff]

theorem checkStream_eq_ok {key : String} {content : StreamContent} {captured : String} :
    scope.checkStream line key content captured = .ok () ↔ scope.Shows content captured := by
  unfold checkStream Shows Edited
  dsimp only
  -- The steps differ: without a line mod there is nothing to look up or to edit.
  cases content.lineModId with
  | none =>
    simp only [bind_eq_ok, mapError_eq_ok, snippet_eq_ok, unless_eq_ok, sameLines_iff]
    constructor
    · rintro ⟨s, hs, expected, hexpected, _, ⟨⟩, hsame⟩
      exact ⟨s, expected, _, hs, hexpected, rfl, hsame⟩
    · rintro ⟨s, expected, _, hs, hexpected, rfl, hsame⟩
      exact ⟨s, hs, expected, hexpected, _, rfl, hsame⟩
  | some id =>
    simp only [bind_eq_ok, mapError_eq_ok, snippet_eq_ok, lineMod_eq_ok, atLine_eq_ok, unless_eq_ok,
      sameLines_iff]
    constructor
    · rintro ⟨s, hs, expected, hexpected, m, hm, actual, hactual, hsame⟩
      exact ⟨s, expected, actual, hs, hexpected, ⟨m, hm, hactual⟩, hsame⟩
    · rintro ⟨s, expected, actual, hs, hexpected, ⟨m, hm, hactual⟩, hsame⟩
      exact ⟨s, hs, expected, hexpected, m, hm, actual, hactual, hsame⟩

theorem checkStream?_eq_ok {key : String} {content? : Option StreamContent} {captured : String} :
    scope.checkStream? line key content? captured = .ok () ↔
      ∀ content, content? = some content → scope.Shows content captured := by
  cases content? with
  | none => simp [checkStream?]
  | some content => simp [checkStream?, checkStream_eq_ok]

theorem checkLast_eq_ok : scope.checkLast p r = .ok () ↔ scope.Accepts p r := by
  unfold checkLast
  rw [unit_bind_eq_ok, unit_bind_eq_ok, checkExit_eq_ok, checkStream?_eq_ok, checkStream?_eq_ok]
  constructor
  · rintro ⟨⟨hsignal, hexit⟩, hstdout, hstderr⟩
    exact ⟨hsignal, hexit, hstdout, hstderr⟩
  · rintro ⟨hsignal, hexit, hstdout, hstderr⟩
    exact ⟨⟨hsignal, hexit⟩, hstdout, hstderr⟩

end Checks

/-! ## Commands one after the other -/

section Commands

variable {σ : Type} {host : Host σ} {line : Nat} {check : CommandResult → Except Stop Unit}
  {w : World σ}

/-- The world after a command. -/
def afterCommand (host : Host σ) (argv : List String) (w : World σ) : World σ :=
  ⟨(host.answer (.run argv) w.state).2, w.calls ++ [.run argv]⟩

/-- A command that could not be started. -/
def notStarted (line : Nat) (argv : List String) (reason : String) : Failure :=
  let command := " ".intercalate argv
  .of line s!"Could not run `{command}`: {reason}"

theorem runCommand_run (argv : List String) :
    (runCommand host line argv).run w =
      ((host.answer (.run argv) w.state).1.mapError (.failure <| notStarted line argv ·),
        afterCommand host argv w) := by
  have hask : (Action.ask host (.run argv)).run w =
      (.ok (host.answer (.run argv) w.state).1, afterCommand host argv w) := rfl
  unfold runCommand
  rw [Action.run_bind, hask]
  cases (host.answer (.run argv) w.state).1 <;> rfl

theorem ofExcept_run {α : Type} (result : Except Stop α) :
    (MonadExcept.ofExcept result : Action σ α).run w = (result, w) := by
  cases result <;> rfl

theorem runAll_last (argv : List String) :
    (runAll host line check [argv]).run w =
      match (host.answer (.run argv) w.state).1 with
      | .error reason => (.error (.failure (notStarted line argv reason)), afterCommand host argv w)
      | .ok r => (check r, afterCommand host argv w) := by
  show (runCommand host line argv >>= fun r => MonadExcept.ofExcept (check r)).run w = _
  rw [Action.run_bind, runCommand_run]
  cases (host.answer (.run argv) w.state).1 with
  | error reason => rfl
  | ok r => exact ofExcept_run _

/-- The commands behind the first one are run if it succeeds. -/
theorem runAll_cons (argv next : List String) (rest : List (List String)) :
    (runAll host line check (argv :: next :: rest)).run w =
      match (host.answer (.run argv) w.state).1 with
      | .error reason => (.error (.failure (notStarted line argv reason)), afterCommand host argv w)
      | .ok r =>
        if r.succeeded then
          (runAll host line check (next :: rest)).run (afterCommand host argv w)
        else
          (.error (.failure (failureOf line s!"Command failed: {r.ending}" r)),
            afterCommand host argv w) := by
  show (runCommand host line argv >>= fun r => MonadExcept.ofExcept (checkSuccess line r) >>=
    fun _ => runAll host line check (next :: rest)).run w = _
  rw [Action.run_bind, runCommand_run]
  cases (host.answer (.run argv) w.state).1 with
  | error reason => rfl
  | ok r =>
    show ((MonadExcept.ofExcept (checkSuccess line r) : Action σ Unit) >>= fun _ =>
      runAll host line check (next :: rest)).run _ = _
    rw [Action.run_bind, ofExcept_run]
    by_cases hr : r.succeeded <;> simp [checkSuccess, hr]

variable (host line check)

/-- How commands are run one after the other, from one world to another. -/
inductive RunsAll : List (List String) → World σ → Except Stop Unit → World σ → Prop
  | notStarted {argv : List String} {rest : List (List String)} {w : World σ} {reason : String}
      (h : (host.answer (.run argv) w.state).1 = .error reason) :
      RunsAll (argv :: rest) w (.error (.failure (notStarted line argv reason)))
        (afterCommand host argv w)
  | last {argv : List String} {w : World σ} {r : CommandResult}
      (h : (host.answer (.run argv) w.state).1 = .ok r) :
      RunsAll [argv] w (check r) (afterCommand host argv w)
  | failed {argv next : List String} {rest : List (List String)} {w : World σ} {r : CommandResult}
      (h : (host.answer (.run argv) w.state).1 = .ok r) (hr : ¬ r.Succeeds) :
      RunsAll (argv :: next :: rest) w
        (.error (.failure (failureOf line s!"Command failed: {r.ending}" r)))
        (afterCommand host argv w)
  | next {argv next : List String} {rest : List (List String)} {w v : World σ} {r : CommandResult}
      {result : Except Stop Unit} (h : (host.answer (.run argv) w.state).1 = .ok r)
      (hr : r.Succeeds) (hrest : RunsAll (next :: rest) (afterCommand host argv w) result v) :
      RunsAll (argv :: next :: rest) w result v

/-- What is done is done by these rules, whatever the host answers. -/
theorem runsAll_runAll {commands : List (List String)} (h : commands ≠ []) (w : World σ) :
    RunsAll host line check commands w ((runAll host line check commands).run w).1
      ((runAll host line check commands).run w).2 := by
  induction commands generalizing w with
  | nil => exact absurd rfl h
  | cons argv rest ih =>
    cases rest with
    | nil =>
      rw [runAll_last]
      cases hanswer : (host.answer (.run argv) w.state).1 with
      | error reason => exact .notStarted hanswer
      | ok r => exact .last hanswer
    | cons next rest =>
      rw [runAll_cons]
      cases hanswer : (host.answer (.run argv) w.state).1 with
      | error reason => exact .notStarted hanswer
      | ok r =>
        by_cases hr : r.succeeded
        · simp only [if_pos hr]
          exact .next hanswer (CommandResult.succeeded_iff.mp hr) (ih (by simp) _)
        · simp only [if_neg hr]
          exact .failed hanswer (mt CommandResult.succeeded_iff.mpr hr)

namespace RunsAll

variable {host line check} {commands : List (List String)} {result : Except Stop Unit}
  {v : World σ}

/-- Commands are run in their order, up to the first one that cannot be started or, the last one
apart, does not succeed. -/
theorem calls (h : RunsAll host line check commands w result v) :
    ∃ n < commands.length, v.calls = w.calls ++ (commands.take (n + 1)).map .run ∧
      (∀ i < n, ∃ r, (host.results w.state commands)[i]? = some (.ok r) ∧ r.Succeeds) ∧
      (n + 1 < commands.length →
        ∀ r, (host.results w.state commands)[n]? = some (.ok r) → ¬ r.Succeeds) := by
  induction h with
  | notStarted h =>
    refine ⟨0, by simp, rfl, by simp, fun _ r hr => ?_⟩
    simp [Host.results, h] at hr
  | last h => exact ⟨0, Nat.one_pos, rfl, by simp, by simp⟩
  | @failed argv next rest w r h hr =>
    refine ⟨0, by simp, rfl, by simp, fun _ r' hr' => ?_⟩
    have hsame : r = r' := by simpa [Host.results, h] using hr'
    exact hsame ▸ hr
  | @next argv next rest w v r result h hr _ ih =>
    -- One more command succeeds in front of those that are counted for the rest.
    obtain ⟨n, hn, hcalls, hbefore, hstop⟩ := ih
    refine ⟨n + 1, by simpa using hn, ?_, ?_, fun hlast => hstop (by simpa using hlast)⟩
    · rw [hcalls]
      exact List.append_assoc ..
    · rintro (_ | i) hi
      · exact ⟨r, congrArg some h, hr⟩
      · exact hbefore i (by omega)

/-- All is well if all commands but the last succeed and the check of the last one does. -/
theorem eq_ok_iff (h : RunsAll host line check commands w result v) :
    result = .ok () ↔ EndsWell (host.results w.state commands) (check · = .ok ()) := by
  induction h with
  | @notStarted argv rest w reason h =>
    constructor
    · rintro ⟨⟩
    · rintro ⟨init, last, hall, -⟩
      rw [Host.results, h] at hall
      cases init <;> cases hall
  | last h => simp [Host.results, h, endsWell_single]
  | failed h hr =>
    rw [Host.results, h, endsWell_cons (by simp [Host.results])]
    simp [hr]
  | next h hr _ ih =>
    rw [Host.results, h, endsWell_cons (by simp [Host.results]), ih]
    simp [hr, afterCommand]

/-- However commands end, the run goes on. -/
theorem goesOn (hcheck : ∀ r, GoesOn (check r)) (h : RunsAll host line check commands w result v) :
    GoesOn result := by
  induction h with
  | notStarted _ | failed _ _ => exact goesOn_failure _
  | last _ => exact hcheck _
  | next _ _ _ ih => exact ih

end RunsAll

end Commands

/-! ## Snippets -/

section Snippets

variable {σ : Type} {host : Host σ} {scope : Scope} {s : Snippet} {d : CommandDef} {file : String}
  {commands : List (List String)} {w v : World σ}

/-- Writes the main file of a snippet and those beside it. -/
def writeFiles (scope : Scope) (host : Host σ) (s : Snippet) (file : String) : Action σ Unit := do
  let lines ← Action.ofFault (scope.outerLines s)
  writeFile host s.line file lines
  s.properties.externals.forM fun external => do
    let lines ← Action.ofFault (scope.externalLines s.line external)
    writeFile host s.line external.fileName lines

/-- The files come first, whatever the commands do. -/
theorem runSnippet_eq (hfile : s.fileName d = some file) :
    scope.runSnippet host s d = scope.writeFiles host s file >>= fun _ =>
      match fillCommands (d.commands.getD []) file (s.allFileNames file) with
      | [] => pure (.done s!"wrote {file}")
      | commands => runAll host s.line (scope.checkLast s.properties) commands >>= fun _ =>
          pure (.done s!"ran {file}") := by
  unfold runSnippet writeFiles
  rw [hfile]
  simp only [bind_assoc]
  rfl

theorem runSnippet_run (hfile : s.fileName d = some file)
    (hwritten : (scope.writeFiles host s file).run w = (.ok (), v))
    (hcommands : fillCommands (d.commands.getD []) file (s.allFileNames file) = commands)
    (hne : commands ≠ []) :
    (scope.runSnippet host s d).run w =
      match (runAll host s.line (scope.checkLast s.properties) commands).run v with
      | (.ok (), v) => (.ok (.done s!"ran {file}"), v)
      | (.error stop, v) => (.error stop, v) := by
  obtain ⟨first, rest, rfl⟩ := List.exists_cons_of_ne_nil hne
  rw [runSnippet_eq hfile, hcommands, Action.run_bind, hwritten]
  dsimp only
  rw [Action.run_bind]
  cases (runAll host s.line (scope.checkLast s.properties) (first :: rest)).run v with
  | mk result v' => cases result <;> rfl

/-- **The verdict.** When the files of a snippet are written and there are commands, they are run in
their order, and none behind one that cannot be started or, the last one apart, does not succeed. The
snippet is done if and only if each command can be started, all but the last succeed, and the last one
does what the snippet expects. Otherwise it is a failure or a fault. -/
theorem runSnippet_verdict (hfile : s.fileName d = some file)
    (hwritten : (scope.writeFiles host s file).run w = (.ok (), v))
    (hcommands : fillCommands (d.commands.getD []) file (s.allFileNames file) = commands)
    (hne : commands ≠ []) :
    (∃ n < commands.length,
      ((scope.runSnippet host s d).run w).2.calls = v.calls ++ (commands.take (n + 1)).map .run ∧
      (∀ i < n, ∃ r, (host.results v.state commands)[i]? = some (.ok r) ∧ r.Succeeds) ∧
      (n + 1 < commands.length →
        ∀ r, (host.results v.state commands)[n]? = some (.ok r) → ¬ r.Succeeds)) ∧
    (((scope.runSnippet host s d).run w).1 = .ok (.done s!"ran {file}") ↔
      EndsWell (host.results v.state commands) (scope.Accepts s.properties)) ∧
    (((scope.runSnippet host s d).run w).1 = .ok (.done s!"ran {file}") ∨
      (∃ failure, ((scope.runSnippet host s d).run w).1 = .error (.failure failure)) ∨
      ∃ fault, ((scope.runSnippet host s d).run w).1 = .error (.fault fault)) := by
  have hcheck : ∀ r, GoesOn (scope.checkLast s.properties r) := goesOn_checkLast s.properties
  have hruns := runsAll_runAll host s.line (scope.checkLast s.properties) hne v
  rw [runSnippet_run hfile hwritten hcommands hne]
  cases hrun : (runAll host s.line (scope.checkLast s.properties) commands).run v with
  | mk result v' =>
    rw [hrun] at hruns
    have hcalls := hruns.calls
    have hok := hruns.eq_ok_iff
    have hgoesOn := hruns.goesOn hcheck
    simp only [checkLast_eq_ok] at hok
    cases result with
    | ok _ => exact ⟨hcalls, ⟨fun _ => hok.mp rfl, fun _ => rfl⟩, .inl rfl⟩
    | error stop =>
      refine ⟨hcalls, ⟨(by cases ·), (by cases hok.mpr ·)⟩, .inr ?_⟩
      cases stop with
      | failure failure => exact .inl ⟨failure, rfl⟩
      | fault fault => exact .inr ⟨fault, rfl⟩
      | abort a => exact absurd rfl (hgoesOn a)

/-- What a program has to complain about, and a line mod that leaves out where it does. -/
def complaint : Document := .ofEntities [
  .snippet (.single ⟨{ Properties.bare 1 "txt" with id := some "complaint" }, ["no input"]⟩),
  .lineMod { LineMod.plain 5 (.appliable "message") with ignored := [.single (.number 1)] }]

theorem runSnippet_verdict_complaint :
    let scope : Scope := ⟨complaint, .builtin, []⟩
    let p : Properties := { Properties.bare 9 "c" with
      exitStatus := some .nonzero, stderr := some ⟨some "message", "complaint"⟩ }
    let s : Snippet := .single ⟨p, ["return 3;"]⟩
    let d : CommandDef := { CommandDef.empty with
      defaultFileName := some "main.c", commands := some [["make", "main"], ["./main"]] }
    let script : Script :=
      ⟨[], [.ok ⟨some 0, none, "", ""⟩, .ok ⟨some 3, none, "", "main.c:1:\nno input\n\n"⟩], [], []⟩
    let commands := [["make", "main"], ["./main"]]
    ∃ v, s.fileName d = some "main.c" ∧
      (scope.writeFiles Script.host s "main.c").run ⟨script, []⟩ = (.ok (), v) ∧
      fillCommands (d.commands.getD []) "main.c" (s.allFileNames "main.c") = commands ∧
      commands ≠ [] ∧
      ((scope.runSnippet Script.host s d).run ⟨script, []⟩).1 = .ok (.done "ran main.c") := by
  intro scope p s d script commands
  have hfile : s.fileName d = some "main.c" := rfl
  have hwritten : (scope.writeFiles Script.host s "main.c").run ⟨script, []⟩ =
      (.ok (), ⟨script, [.write "main.c" ["return 3;"]]⟩) := by
    with_unfolding_all rfl
  have hcommands : fillCommands (d.commands.getD []) "main.c" (s.allFileNames "main.c") =
      commands := by
    decide +kernel
  have hne : commands ≠ [] := by decide
  have hshows : scope.Shows ⟨some "message", "complaint"⟩ "main.c:1:\nno input\n\n" := by
    refine ⟨_, ["no input"], ["no input", ""], rfl, ?_, ⟨_, rfl, ?_⟩, 1, 0, rfl⟩
    · with_unfolding_all rfl
    · with_unfolding_all rfl
  have haccepts : scope.Accepts p ⟨some 3, none, "", "main.c:1:\nno input\n\n"⟩ := by
    have hnonzero : (3 : Int) ≠ 0 := by decide
    refine ⟨rfl, ⟨3, rfl, hnonzero⟩, ?_, ?_⟩
    · rintro _ ⟨⟩
    · rintro _ ⟨⟩
      exact hshows
  obtain ⟨-, hdone, -⟩ := runSnippet_verdict hfile hwritten hcommands hne
  refine ⟨_, hfile, hwritten, hcommands, hne, hdone.mpr ?_⟩
  exact ⟨[⟨some 0, none, "", ""⟩], _, rfl, by simp [CommandResult.Succeeds], haccepts⟩

end Snippets

end Scope

end Doctest
