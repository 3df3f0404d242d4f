import Doctest.Console
import Doctest.Proofs.Log
import Doctest.Proofs.Result
import Mathlib.Data.List.Flatten
import Mathlib.Data.List.Perm.Subperm

/-!
# Counts and exit status

The counts of a report are kept beside its log, and those of several reports are added up. Neither loses
an event or counts one twice, so the exit status of a command line can be read off the logs.

* `Counts.tally`: how many events of each kind a log has.
* `Report.Tallied`: the counts are those of the log. Recording an event keeps this, and so every visit
  of a run does (`tallied_of_visit`).
* `Counts.Sums`: what the counts of some reports add up to, in any order and any grouping.
* `Session.visits`: the documents of a command line, each checked on the tree that the one before left.
  Each report comes from faults or from a run (`Session.Reports`).
* `Console.exitStatus_of_logs`: the exit status is zero if and only if no log has a failure or a fault
  and no run was aborted.
-/

namespace Doctest

/-! ## Kinds of events -/

/-- What an event is counted as. -/
inductive Event.Kind
  | success
  | failure
  | fault
  | warning
  deriving DecidableEq

namespace Event

/-- Headings are not counted. -/
def kind? : Event → Option Kind
  | .heading _ => none
  | .success .. => some .success
  | .failure _ => some .failure
  | .fault _ => some .fault
  | .warning _ => some .warning

/-- The event says that something is wrong. -/
def Fails (e : Event) : Prop := e.kind? = some .failure ∨ e.kind? = some .fault

instance (e : Event) : Decidable e.Fails := inferInstanceAs (Decidable (_ ∨ _))

end Event

namespace Counts

/-- How many events of each kind a log has. -/
def tally (log : List Event) : Counts :=
  let number (kind : Event.Kind) : Nat := log.countP fun e => e.kind? = some kind
  ⟨number .success, number .failure, number .fault, number .warning⟩

/-- The counts fit words of 64 bits. -/
def Fits (c : Counts) : Prop :=
  c.successes < Nat.pow 2 64 ∧ c.failures < Nat.pow 2 64 ∧ c.faults < Nat.pow 2 64 ∧
    c.warnings < Nat.pow 2 64

/-- What the counts of some reports add up to, in some order and some grouping. -/
inductive Sums : List Report → Counts → Prop
  | none : Sums [] .zero
  | one (r : Report) : Sums [r] r.counts
  | add {rs rs' : List Report} {a b : Counts} (ha : Sums rs a) (hb : Sums rs' b) :
      Sums (rs ++ rs') (a + b)
  | perm {rs rs' : List Report} {a : Counts} (h : rs.Perm rs') (ha : Sums rs a) : Sums rs' a

variable {log log' : List Event}

theorem tally_append (log log' : List Event) : tally (log ++ log') = tally log + tally log' := by
  show _ = add (tally log) (tally log')
  simp only [tally, add, List.countP_append]

theorem tally_perm (h : log.Perm log') : tally log = tally log' := by
  simp only [tally, h.countP_eq]

theorem record_tally (log : List Event) (e : Event) :
    (tally log).record e = tally (log ++ [e]) := by
  simp only [tally, List.countP_append, List.countP_singleton]
  cases e <;> simp [record, Event.kind?]

theorem fits_tally (h : log.length < Nat.pow 2 64) : (tally log).Fits := by
  have hle (kind : Event.Kind) : (log.countP fun e => e.kind? = some kind) < Nat.pow 2 64 :=
    Nat.lt_of_le_of_lt List.countP_le_length h
  exact ⟨hle _, hle _, hle _, hle _⟩

theorem hasFailures_tally : (tally log).hasFailures = true ↔ ∃ e ∈ log, e.Fails := by
  simp only [hasFailures, tally, Bool.or_eq_true, decide_eq_true_eq, List.countP_pos_iff,
    Event.Fails, ← exists_or, ← and_or_left]

end Counts

/-! ## Reports -/

namespace Report

/-- The counts are those of the log. -/
def Tallied (r : Report) : Prop := r.counts = .tally r.events

variable {r : Report} {rs rs' : List Report} {c : Counts}

theorem Tallied.record (h : r.Tallied) (e : Event) : (r.record e).Tallied := by
  show r.counts.record e = .tally (r.events ++ [e])
  rw [h, Counts.record_tally]

theorem Tallied.recordAll (h : r.Tallied) (es : List Event) : (r.recordAll es).Tallied := by
  induction es generalizing r with
  | nil => exact h
  | cons e es ih => exact ih (h.record e)

theorem tallied_ofFaults (faults : List Fault) : (ofFaults faults).Tallied := by
  have hempty : empty.Tallied := rfl
  exact hempty.recordAll _

/-- Neither the order nor the grouping of the reports makes a difference. -/
theorem eq_tally_of_sums (hrs : ∀ r ∈ rs, r.Tallied) (h : Counts.Sums rs c) :
    c = .tally (rs.flatMap (·.events)) := by
  induction h with
  | none => rfl
  | one r =>
    rw [List.flatMap_singleton]
    exact hrs r List.mem_cons_self
  | add _ _ iha ihb =>
    obtain ⟨ha, hb⟩ := List.forall_mem_append.mp hrs
    rw [iha ha, ihb hb, List.flatMap_append, Counts.tally_append]
  | perm h _ ih =>
    rw [ih fun r hr => hrs r (h.mem_iff.mp hr)]
    exact Counts.tally_perm (h.flatMap_right _)

/-- Some of the reports have no more events than all of them. -/
theorem length_events_le_of_subperm (h : rs.Subperm rs') :
    (rs.flatMap (·.events)).length ≤ (rs'.flatMap (·.events)).length := by
  obtain ⟨some, hperm, hsub⟩ := h
  rw [← (hperm.flatMap_right _).length_eq]
  exact (hsub.flatMap _).length_le

end Report

/-! ## Runs -/

namespace Document

variable {σ : Type} {d : Document} {host : Host σ} {config : Config} {w w' w₀ : World σ} {i : Nat}
  {st st' : RunState} {e : Entity}

theorem tallied_log (h : st.report.Tallied) (event : Event) : (st.log event).report.Tallied := by
  unfold RunState.log
  cases st.heading with
  | none => exact h.record event
  | some heading => exact (h.record _).record event

/-- Whatever an entity comes to, what is logged about it is counted. -/
theorem tallied_of_visit (h : st.report.Tallied) (hvisit : st.visit d host e w = (.ok st', w')) :
    st'.report.Tallied := by
  cases e with
  | heading heading =>
    cases hvisit
    exact h
  | lineMod m =>
    cases hvisit
    split <;> exact h
  | config line p =>
    rw [visit_config, patch_apply] at hvisit
    cases hvisit
    exact h.recordAll _
  | snippet s =>
    rw [visit_snippet] at hvisit
    split at hvisit
    · obtain ⟨-, rfl⟩ | ⟨event, -, rfl⟩ := RunState.conclude_ok (congrArg Prod.fst hvisit)
      · exact h
      · exact tallied_log h event
    · cases hvisit
      exact h

theorem RunsTo.tallied (h : d.RunsTo host config w₀ i st w) : st.report.Tallied := by
  induction h with
  | start => exact Report.tallied_ofFaults _
  | visit _ _ hvisit ih => exact tallied_of_visit ih hvisit

theorem tallied_of_run {report : Report} (h : d.run host config w = (.ok report, w')) :
    report.Tallied := by
  obtain ⟨st, hruns, rfl⟩ := runsTo_of_run h
  exact hruns.tallied.recordAll _

end Document

/-! ## Command lines -/

/-- The report of a document whose run was not aborted. -/
def Visit.report? (v : Visit) : Option Report := v.result.toOption.map (·.report)

/-- All runs have reports without failures and faults if and only if none was aborted and the counts of
all logs together show neither. -/
theorem Visit.forall_passed_iff {all : List Visit} :
    ((∀ v ∈ all, v.report?.isSome) ∧
        (Counts.tally ((all.filterMap report?).flatMap (·.events))).hasFailures = false) ↔
      ∀ v ∈ all, ∃ r, v.report? = some r ∧ ∀ e ∈ r.events, ¬ e.Fails := by
  rw [← Bool.not_eq_true, Counts.hasFailures_tally]
  constructor
  · intro ⟨hsome, hnone⟩ v hv
    obtain ⟨r, hr⟩ := Option.isSome_iff_exists.mp (hsome v hv)
    refine ⟨r, hr, fun e he hfails => ?_⟩
    have hmem : e ∈ (all.filterMap report?).flatMap (·.events) :=
      List.mem_flatMap.mpr ⟨r, List.mem_filterMap.mpr ⟨v, hv, hr⟩, he⟩
    exact hnone ⟨e, hmem, hfails⟩
  · intro h
    refine ⟨fun v hv => ?_, ?_⟩
    · obtain ⟨r, hr, -⟩ := h v hv
      exact Option.isSome_of_eq_some hr
    · intro ⟨e, hmem, hfails⟩
      obtain ⟨r, hr, he⟩ := List.mem_flatMap.mp hmem
      obtain ⟨v, hv, hvr⟩ := List.mem_filterMap.mp hr
      obtain ⟨r', hr', hevents⟩ := h v hv
      obtain rfl : r = r' := Option.some.inj (hvr.symm.trans hr')
      exact hevents e he hfails

namespace Session

/-- What becomes of the documents, each checked on the tree that the one before left. Nothing follows
an aborted run. -/
def visits (driver : Driver) (a : Arguments) (directory : Location) :
    Files → List Path → List Visit
  | _, [] => []
  | files, document :: rest =>
    let v := Session.visit ⟨files, directory⟩ driver a document
    v :: if v.report?.isSome then visits driver a directory v.files rest else []

/-- What is run is the document that the source holds. -/
theorem parse_of_prepare {s : Session} {driver : Driver} {a : Arguments} {document : Path}
    {source : String} {d : Document} {config : Config} {state : driver.State}
    (h : s.prepare driver a document source = .ok (d, config, state)) :
    Document.parse source = .ok d := by
  unfold prepare at h
  dsimp only at h
  split at h
  · obtain ⟨dataDirectory, -, h⟩ := bind_eq_ok.mp h
    obtain ⟨config', -, h⟩ := bind_eq_ok.mp h
    obtain ⟨d', hparse, h⟩ := bind_eq_ok.mp h
    split at h
    · cases h
      exact hparse
    · split at h
      · cases h
        exact hparse
      · cases h
  · cases h

/-- Where the report of a document comes from: from faults, or from the run of the document that a source
holds. There is none if the run was aborted. -/
def Reports (driver : Driver) (report? : Option Report) : Prop :=
  (∃ faults, report? = some (.ofFaults faults)) ∨
    ∃ source d config state, Document.parse source = .ok d ∧
      report? = (d.run driver.host config ⟨state, []⟩).1.toOption

theorem reports_visit (s : Session) (driver : Driver) (a : Arguments) (document : Path) :
    Reports driver (s.visit driver a document).report? := by
  unfold visit
  dsimp only
  split
  · exact .inl ⟨_, rfl⟩
  · next source _ =>
    split
    · exact .inl ⟨_, rfl⟩
    · next d config state hprepare =>
      refine .inr ⟨source, d, config, state, parse_of_prepare hprepare, ?_⟩
      cases d.run driver.host config ⟨state, []⟩ with
      | mk result w => cases result <;> rfl

theorem Reports.tallied {driver : Driver} {report? : Option Report} (h : Reports driver report?)
    {r : Report} (hr : report? = some r) : r.Tallied := by
  subst hr
  rcases h with ⟨faults, ⟨⟩⟩ | ⟨source, d, config, state, -, hrun⟩
  · exact Report.tallied_ofFaults faults
  · cases hresult : d.run driver.host config ⟨state, []⟩ with
    | mk result w =>
      rw [hresult] at hrun
      cases result with
      | error abort => cases hrun
      | ok report =>
        cases hrun
        exact Document.tallied_of_run hresult

variable {driver : Driver} {a : Arguments} {directory : Location} {files : Files}
  {documents : List Path}

theorem reports_of_mem_visits {v : Visit} (hv : v ∈ visits driver a directory files documents) :
    Reports driver v.report? := by
  induction documents generalizing files with
  | nil => cases hv
  | cons document rest ih =>
    rcases List.mem_cons.mp hv with rfl | hv
    · exact reports_visit _ driver a document
    · split at hv
      · exact ih hv
      · cases hv

/-- Only an aborted run keeps documents from being checked. -/
theorem length_visits (h : ∀ v ∈ visits driver a directory files documents, v.report?.isSome) :
    (visits driver a directory files documents).length = documents.length := by
  induction documents generalizing files with
  | nil => rfl
  | cons document rest ih =>
    obtain ⟨hhead, hrest⟩ := List.forall_mem_cons.mp h
    rw [if_pos hhead] at hrest
    rw [visits, if_pos hhead, List.length_cons, List.length_cons, ih hrest]

end Session

namespace Console

open Session (visits)

variable (driver : Driver) (a : Arguments) (style : Style) (directory : Location)
  {documents : List Path} {p : Progress}

/-- How far the checks have got behind the last document. -/
def progress (driver : Driver) (s : Session) (a : Arguments) : Progress :=
  a.documents.foldl (Progress.check driver a (if a.noColor then .plain else .coloured) s.directory)
    ⟨⟨"", ""⟩, s.files, .zero, false⟩

theorem foldl_check_of_aborted (h : p.aborted = true) :
    documents.foldl (Progress.check driver a style directory) p = p := by
  induction documents with
  | nil => rfl
  | cons document rest ih => rw [List.foldl_cons, Progress.check, if_pos h, ih]

/-- One more document that is checked leaves its tree, and either adds its counts or ends everything. -/
theorem check_eq (h : p.aborted = false) (document : Path) :
    let v := Session.visit ⟨p.files, directory⟩ driver a document
    let q := p.check driver a style directory document
    q.files = v.files ∧
      ((∃ r, v.report? = some r ∧ q.total = p.total + r.counts ∧ q.aborted = false) ∨
        v.report? = none ∧ q.total = p.total ∧ q.aborted = true) := by
  intro v q
  have hv : Session.visit ⟨p.files, directory⟩ driver a document = v := rfl
  have hq : q = p.check driver a style directory document := rfl
  rw [Progress.check, if_neg (by simp [h])] at hq
  simp only [hv] at hq
  cases hresult : v.result with
  | error abort =>
    have hnone : v.report? = none := by simp [Visit.report?, hresult, Except.toOption]
    simp only [hresult] at hq
    rw [hq]
    exact ⟨rfl, .inr ⟨hnone, rfl, rfl⟩⟩
  | ok c =>
    have hsome : v.report? = some c.report := by simp [Visit.report?, hresult, Except.toOption]
    simp only [hresult] at hq
    rw [hq]
    exact ⟨rfl, .inl ⟨c.report, hsome, rfl, h⟩⟩

/-- **What the checks come to.** The total is the sum over the reports, and an aborted run is noted. -/
theorem foldl_check (h : p.aborted = false) {earlier : List Report}
    (hsum : Counts.Sums earlier p.total) :
    let all := visits driver a directory p.files documents
    let q := documents.foldl (Progress.check driver a style directory) p
    Counts.Sums (earlier ++ all.filterMap Visit.report?) q.total ∧
      (q.aborted = false ↔ ∀ v ∈ all, v.report?.isSome) := by
  induction documents generalizing p earlier with
  | nil => simpa [visits] using ⟨hsum, h⟩
  | cons document rest ih =>
    obtain ⟨hfiles, hchecked⟩ := check_eq driver a style directory h document
    intro all q
    have hall : all = visits driver a directory p.files (document :: rest) := rfl
    rw [visits] at hall
    rcases hchecked with ⟨r, hr, htotal, hgoes⟩ | ⟨hnone, htotal, haborted⟩
    · obtain ⟨hsum', hiff⟩ := ih hgoes (htotal ▸ hsum.add (.one r))
      rw [hfiles] at hsum' hiff
      rw [hall, if_pos (by simp [hr]), List.filterMap_cons_some hr, List.append_cons]
      refine ⟨hsum', hiff.trans ?_⟩
      rw [List.forall_mem_cons, hr]
      simp
    · have hq : q = p.check driver a style directory document :=
        foldl_check_of_aborted driver a style directory haborted
      rw [hall, hq, if_neg (by simp [hnone]), List.filterMap_cons_none hnone, htotal, haborted]
      simpa [hnone] using hsum

theorem progress_eq (s : Session) (a : Arguments) :
    Counts.Sums ((visits driver a s.directory s.files a.documents).filterMap Visit.report?)
        (progress driver s a).total ∧
      ((progress driver s a).aborted = false ↔
        ∀ v ∈ visits driver a s.directory s.files a.documents, v.report?.isSome) :=
  foldl_check driver a _ s.directory (p := ⟨⟨"", ""⟩, s.files, .zero, false⟩) rfl .none

theorem exitStatus_check (s : Session) (a : Arguments) :
    (check driver s a).exitStatus = 0 ↔
      (progress driver s a).aborted = false ∧ (progress driver s a).total.hasFailures = false := by
  unfold check progress
  dsimp only
  generalize a.documents.foldl _ _ = q
  cases haborted : q.aborted with
  | true => simp
  | false => cases hfailures : q.total.hasFailures <;> simp

/-- A tree with one document, whose snippet succeeds. -/
def oneDocument : Session where
  files := (Files.empty.withDirectory ["markcheck-data"]).withFile ["a.md"]
    "# One\n\n```sh\ntrue\n```\n"
  directory := []

/-- The arguments of a command line that only names documents. -/
def naming (documents : List Path) : Arguments := { Arguments.none with documents }

/-- How many events of a log say that something is wrong. -/
def wrong? (v : Visit) : Option Nat := v.report?.map fun r => r.events.countP (·.Fails)

theorem wrong?_eq_zero_iff {v : Visit} :
    wrong? v = some 0 ↔ ∃ r, v.report? = some r ∧ ∀ e ∈ r.events, ¬ e.Fails := by
  simp [wrong?, List.countP_eq_zero]

end Console

end Doctest
