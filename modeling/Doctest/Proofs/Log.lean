import Doctest.Proofs.Visits

/-!
# The log of a run

Each entity adds its own events to the log of a run, whatever the others come to.

* `Adds`: the events that an entity adds, given the heading that has not been logged yet.
* `pending?`: that heading, found by looking back at what was visited and logged.
* `adds_of_visit`: one visit adds such events.
* `run_log`: the log of a run consists of the faults of the index, what the entities add in their
  order, and the warnings. A heading is logged at most once, and an outcome follows it.
-/

namespace Doctest

namespace Event

def heading? : Event → Option Heading
  | .heading h => some h
  | .success .. | .failure _ | .fault _ | .warning _ => none

/-- The event says what became of a snippet. -/
def IsOutcome : Event → Prop
  | .success .. | .failure _ | .fault _ => True
  | .heading _ | .warning _ => False

/-- What the handling of a snippet on a line came to; nothing if there was nothing to do. -/
def ofResult? (line : Nat) : Except Stop Outcome → Option Event
  | .ok (.done summary) => some (.success line summary)
  | .error (.failure f) => some (.failure f)
  | .error (.fault f) => some (.fault (f.orAtLine line))
  | .ok .idle | .error (.abort _) => none

end Event

/-- The heading that was visited last, unless a heading has been logged since. -/
def pending? (history : List (Entity × List Event)) : Option Heading :=
  (history.reverse.find? fun (e, events) =>
    e.heading?.isSome || events.any (·.heading?.isSome)).bind fun (e, _) => e.heading?

/-- The events that an entity adds to the log when it is visited in a state and a world. `heading` is
the one that has not been logged yet. -/
inductive Adds {σ : Type} (d : Document) (host : Host σ) (st : RunState) (w : World σ)
    (heading : Option Heading) : Entity → List Event → Prop
  | heading (h : Heading) : Adds d host st w heading (.heading h) []
  | lineMod (m : LineMod) : Adds d host st w heading (.lineMod m) []
  /-- There is no directory, or the host accepts it. -/
  | accepted {line : Nat} {p : ConfigPatch}
      (h : ∀ directory, p.directory = some directory →
        (host.answer (.useDirectory directory) w.state).1 = .ok ()) :
      Adds d host st w heading (.config line p) []
  | rejected {line : Nat} {p : ConfigPatch} {directory reason : String}
      (hdirectory : p.directory = some directory)
      (h : (host.answer (.useDirectory directory) w.state).1 = .error reason) :
      Adds d host st w heading (.config line p)
        [.fault (.atLine line (RunCause.unusableDirectory directory reason))]
  | notRun {s : Snippet} (h : s.isRun d.hasOnly = false) : Adds d host st w heading (.snippet s) []
  | idle {s : Snippet} (hrun : s.isRun d.hasOnly = true)
      (h : (((st.scope d).handle host s).run w).1 = .ok .idle) :
      Adds d host st w heading (.snippet s) []
  /-- The outcome stands under the heading. -/
  | outcome {s : Snippet} {event : Event} (hrun : s.isRun d.hasOnly = true)
      (h : Event.ofResult? s.line (((st.scope d).handle host s).run w).1 = some event) :
      Adds d host st w heading (.snippet s) (heading.toList.map .heading ++ [event])

/-- In the log an outcome follows each heading directly. -/
def HeadingsFollowed (log : List Event) : Prop :=
  ∀ before h after, log = before ++ .heading h :: after → ∃ e rest, after = e :: rest ∧ e.IsOutcome

/-! ## One visit -/

theorem Report.events_recordAll (r : Report) (es : List Event) :
    (r.recordAll es).events = r.events ++ es := by
  induction es generalizing r with
  | nil => exact (List.append_nil _).symm
  | cons e es ih =>
    show ((r.record e).recordAll es).events = r.events ++ e :: es
    rw [ih]
    exact List.append_assoc _ [e] es

namespace Event

theorem isOutcome_of_ofResult? {line : Nat} {result : Except Stop Outcome} {e : Event}
    (h : ofResult? line result = some e) : e.IsOutcome := by
  unfold ofResult? at h
  split at h <;> cases h <;> trivial

theorem IsOutcome.heading? {e : Event} (h : e.IsOutcome) : e.heading? = none := by
  cases e with
  | heading _ => cases h
  | success _ _ | failure _ | fault _ | warning _ => rfl

/-- A list of nothing but headings. -/
theorem filterMap_heading? (hs : List Heading) : (hs.map Event.heading).filterMap heading? = hs := by
  rw [List.filterMap_map]
  exact List.filterMap_some

end Event

namespace RunState

theorem log_eq (st : RunState) (e : Event) :
    (st.log e).heading = none ∧
      (st.log e).report.events =
        st.report.events ++ (st.heading.toList.map .heading ++ [e]) := by
  unfold log
  cases st.heading with
  | none => exact ⟨rfl, rfl⟩
  | some h => exact ⟨rfl, List.append_assoc ..⟩

/-- A snippet that did not abort the run was idle, or its outcome is logged. -/
theorem conclude_ok {st st' : RunState} {line : Nat} {result : Except Stop Outcome}
    (h : st.conclude line result = .ok st') :
    result = .ok .idle ∧ st' = st ∨
      ∃ e, Event.ofResult? line result = some e ∧ st' = st.log e := by
  unfold conclude at h
  split at h <;> cases h
  · exact .inl ⟨rfl, rfl⟩
  · exact .inr ⟨_, rfl, rfl⟩
  · exact .inr ⟨_, rfl, rfl⟩
  · exact .inr ⟨_, rfl, rfl⟩

end RunState

section Visit

variable {σ : Type} {d : Document} {host : Host σ} {st st' : RunState} {w w' : World σ} {e : Entity}
  {block : List Event}

/-- The heading that is left to be logged when an entity has been visited. -/
def leftHeading (heading : Option Heading) (e : Entity) (block : List Event) : Option Heading :=
  if e.heading?.isSome || block.any (·.heading?.isSome) then e.heading? else heading

theorem leftHeading_outcome (heading : Option Heading) (s : Snippet) {event : Event}
    (h : event.IsOutcome) :
    leftHeading heading (.snippet s) (heading.toList.map .heading ++ [event]) = none := by
  cases heading with
  | none => simp [leftHeading, Entity.heading?, h.heading?]
  | some _ => simp [leftHeading, Entity.heading?, Event.heading?]

/-- What an entity adds and what it leaves to be logged are the heading that it is itself, or else
the one that was left before. -/
theorem Adds.headings {heading : Option Heading} (h : Adds d host st w heading e block) :
    block.filterMap Event.heading? ++ (leftHeading heading e block).toList =
      (e.heading?.or heading).toList := by
  cases h with
  | heading _ | lineMod _ | accepted _ | rejected _ _ | notRun _ | idle _ _ => rfl
  | outcome _ h =>
    have hevent := Event.isOutcome_of_ofResult? h
    rw [leftHeading_outcome heading _ hevent, List.filterMap_append, Event.filterMap_heading?,
      List.filterMap_cons_none hevent.heading?]
    simp [Entity.heading?]

/-- **One visit.** An entity adds its own events, and leaves the heading that is not logged yet. -/
theorem adds_of_visit (h : st.visit d host e w = (.ok st', w')) :
    ∃ block, Adds d host st w st.heading e block ∧
      st'.report.events = st.report.events ++ block ∧
      st'.heading = leftHeading st.heading e block := by
  cases e with
  | heading heading =>
    cases h
    exact ⟨[], .heading heading, (List.append_nil _).symm, rfl⟩
  | lineMod m =>
    cases h
    refine ⟨[], .lineMod m, ?_, ?_⟩
    · split <;> exact (List.append_nil _).symm
    · split <;> rfl
  | config line p =>
    -- A refused directory is logged at once, and no heading with it.
    rw [Document.visit_config, Document.patch_apply] at h
    cases h
    refine ⟨_, ?_, Report.events_recordAll .., ?_⟩
    · unfold Document.rejection?
      cases hdirectory : p.directory with
      | none => exact .accepted (by simp [hdirectory])
      | some directory =>
        cases hanswer : (host.answer (.useDirectory directory) w.state).1 with
        | error reason =>
          simp only [Option.bind_some, hanswer]
          exact .rejected hdirectory hanswer
        | ok _ =>
          simp only [Option.bind_some, hanswer]
          exact .accepted (by simp [hdirectory, hanswer])
    · cases Document.rejection? host w line p <;> rfl
  | snippet s =>
    rw [Document.visit_snippet] at h
    split at h
    · rename_i hrun
      obtain ⟨hidle, rfl⟩ | ⟨event, hevent, rfl⟩ := RunState.conclude_ok (congrArg Prod.fst h)
      · exact ⟨[], .idle hrun hidle, (List.append_nil _).symm, rfl⟩
      · obtain ⟨hheading, hevents⟩ := st.log_eq event
        refine ⟨_, .outcome hrun hevent, hevents, ?_⟩
        rw [hheading, leftHeading_outcome _ _ (Event.isOutcome_of_ofResult? hevent)]
    · rename_i hrun
      cases h
      exact ⟨[], .notRun (Bool.eq_false_iff.mpr hrun), (List.append_nil _).symm, rfl⟩

end Visit

/-! ## A whole run -/

theorem pending?_concat (history : List (Entity × List Event)) (e : Entity) (block : List Event) :
    pending? (history ++ [(e, block)]) = leftHeading (pending? history) e block := by
  unfold pending? leftHeading
  rw [List.reverse_concat, List.find?_cons]
  split <;> rename_i h <;> simp only [h] <;> rfl

section Run

variable {σ : Type} {d : Document} {host : Host σ} {config : Config} {w₀ w : World σ} {i : Nat}
  {st : RunState} {history : List (Entity × List Event)}

/-- What was visited by the run of a document, each entity with the events that it added. -/
def IsHistory (d : Document) (host : Host σ) (config : Config) (w₀ : World σ)
    (history : List (Entity × List Event)) : Prop :=
  ∀ before e block after, history = before ++ (e, block) :: after →
    ∃ st v, d.RunsTo host config w₀ before.length st v ∧
      Adds d host st v (pending? before) e block

theorem IsHistory.concat {v : World σ} {e : Entity} {block : List Event}
    (h : IsHistory d host config w₀ history) (hruns : d.RunsTo host config w₀ history.length st v)
    (hadds : Adds d host st v (pending? history) e block) :
    IsHistory d host config w₀ (history ++ [(e, block)]) :=
  forall_split_concat.mpr ⟨h, st, v, hruns, hadds⟩

theorem IsHistory.of_concat {last : Entity × List Event}
    (h : IsHistory d host config w₀ (history ++ [last])) : IsHistory d host config w₀ history :=
  (forall_split_concat.mp h).1

/-- Whatever entity the run gets to, the log holds what was added up to there. The heading that the
state keeps is part of the invariant: it decides what the next entity adds. -/
theorem Document.RunsTo.log (h : d.RunsTo host config w₀ i st w) :
    ∃ history, history.map Prod.fst = d.entities.take i ∧
      st.report.events = d.indexFaults.map .fault ++ history.flatMap Prod.snd ∧
      st.heading = pending? history ∧ IsHistory d host config w₀ history := by
  induction h with
  | start =>
    exact ⟨[], rfl, (Report.events_recordAll ..).trans (List.append_nil _).symm, rfl,
      forall_split_nil⟩
  | @visit i st st' w w' e h he hvisit ih =>
    obtain ⟨history, hentities, hevents, hheading, hhistory⟩ := ih
    obtain ⟨block, hadds, hevents', hheading'⟩ := adds_of_visit hvisit
    have hlength : history.length = i := by
      have hi := (List.getElem?_eq_some_iff.mp he).1
      rw [← List.length_map Prod.fst, hentities, List.length_take, min_eq_left hi.le]
    rw [hheading] at hadds hheading'
    refine ⟨history ++ [(e, block)], ?_, ?_, ?_, hhistory.concat (hlength ▸ h) hadds⟩
    · rw [List.map_append, hentities, List.take_add_one, he]
      rfl
    · rw [hevents', hevents, List.flatMap_append, List.append_assoc]
      simp
    · rw [hheading', pending?_concat]

/-- The headings that were logged and the one that is left stand in the document in this order. An
outcome takes over the one that is left, so it is counted here from the beginning. -/
theorem IsHistory.headings (h : IsHistory d host config w₀ history) :
    ((history.flatMap Prod.snd).filterMap Event.heading? ++ (pending? history).toList).Sublist
      ((history.map Prod.fst).filterMap Entity.heading?) := by
  induction history using List.reverseRecOn with
  | nil => exact .slnil
  | append_singleton history last ih =>
    obtain ⟨e, block⟩ := last
    obtain ⟨st, v, -, hadds⟩ := h history e block [] rfl
    have hprefix := ih h.of_concat
    rw [pending?_concat, List.flatMap_append, List.filterMap_append, List.append_assoc,
      List.flatMap_singleton, hadds.headings, List.map_append, List.filterMap_append]
    cases he : e.heading? with
    | none => simpa [he] using hprefix
    | some heading =>
      simpa [he] using ((List.sublist_append_left _ _).trans hprefix).append_right [heading]

end Run

/-! ## Headings and outcomes -/

section Followed

variable {log log' : List Event}

theorem HeadingsFollowed.append (h : HeadingsFollowed log) (h' : HeadingsFollowed log') :
    HeadingsFollowed (log ++ log') := by
  intro before heading after hsplit
  obtain ⟨c, rfl, hc⟩ | ⟨c, rfl, hc⟩ := List.append_eq_append_iff.mp hsplit
  · exact h' c heading after hc
  · cases c with
    | nil => exact h' [] heading after hc.symm
    | cons event c =>
      obtain ⟨rfl, rfl⟩ := List.cons.inj hc
      obtain ⟨e, rest, rfl, he⟩ := h before heading c rfl
      exact ⟨e, rest ++ log', rfl, he⟩

/-- A heading with an outcome goes in front. -/
theorem HeadingsFollowed.cons {event : Event} (heading : Heading) (hevent : event.IsOutcome)
    (h : HeadingsFollowed (event :: log)) : HeadingsFollowed (.heading heading :: event :: log) := by
  intro before heading' after hsplit
  cases before with
  | nil =>
    cases hsplit
    exact ⟨event, log, rfl, hevent⟩
  | cons _ before => exact h before heading' after (List.cons.inj hsplit).2

theorem headingsFollowed_of_no_headings (h : ∀ event ∈ log, event.heading? = none) :
    HeadingsFollowed log := by
  rintro before heading after rfl
  cases h (.heading heading) (by simp)

theorem headingsFollowed_flatMap {α : Type} {f : α → List Event} {as : List α}
    (h : ∀ a ∈ as, HeadingsFollowed (f a)) : HeadingsFollowed (as.flatMap f) := by
  induction as with
  | nil => exact headingsFollowed_of_no_headings (by simp)
  | cons a as ih =>
    rw [List.flatMap_cons]
    exact (h a List.mem_cons_self).append (ih fun b hb => h b (List.mem_cons_of_mem a hb))

end Followed

section Run

variable {σ : Type} {d : Document} {host : Host σ} {config : Config} {w₀ w w' : World σ}

theorem Adds.followed {st : RunState} {heading : Option Heading} {e : Entity} {block : List Event}
    (h : Adds d host st w heading e block) : HeadingsFollowed block := by
  cases h with
  | heading _ | lineMod _ | accepted _ | notRun _ | idle _ _ =>
    exact headingsFollowed_of_no_headings (by simp)
  | rejected _ _ => exact headingsFollowed_of_no_headings (by simp [Event.heading?])
  | @outcome s event _ h =>
    have hevent := Event.isOutcome_of_ofResult? h
    have halone : HeadingsFollowed [event] :=
      headingsFollowed_of_no_headings (by simp [hevent.heading?])
    cases heading with
    | none => exact halone
    | some heading => exact halone.cons heading hevent

theorem IsHistory.followed {history : List (Entity × List Event)}
    (h : IsHistory d host config w₀ history) : HeadingsFollowed (history.flatMap Prod.snd) := by
  refine headingsFollowed_flatMap fun ⟨e, block⟩ hmem => ?_
  obtain ⟨before, after, hsplit⟩ := List.append_of_mem hmem
  obtain ⟨st, v, -, hadds⟩ := h before e block after hsplit
  exact hadds.followed

/-- **The log of a run.** The log of a run that is not aborted consists of the faults of the index,
of what each entity adds when it is visited, in document order, and of the warnings. Hence the headings
in it are headings of the document, each at most once and in document order, and an outcome follows
each of them directly. -/
theorem run_log {report : Report} (h : d.run host config w₀ = (.ok report, w')) :
    ∃ history : List (Entity × List Event), history.map Prod.fst = d.entities ∧
      report.events = d.indexFaults.map .fault ++ history.flatMap Prod.snd ++
        d.unusedIds.map .warning ∧
      (∀ before e block after, history = before ++ (e, block) :: after →
        ∃ st w, d.RunsTo host config w₀ before.length st w ∧
          Adds d host st w (pending? before) e block) ∧
      (report.events.filterMap Event.heading?).Sublist (d.entities.filterMap Entity.heading?) ∧
      ∀ before heading after, report.events = before ++ .heading heading :: after →
        ∃ e rest, after = e :: rest ∧ e.IsOutcome := by
  obtain ⟨st, hruns, rfl⟩ := Document.runsTo_of_run h
  obtain ⟨history, hentities, hevents, -, hhistory⟩ := hruns.log
  rw [List.take_length] at hentities
  rw [Report.events_recordAll, hevents]
  have hfaults : ∀ event ∈ d.indexFaults.map Event.fault, event.heading? = none := by
    simp [Event.heading?]
  have hwarnings : ∀ event ∈ d.unusedIds.map Event.warning, event.heading? = none := by
    simp [Event.heading?]
  refine ⟨history, hentities, rfl, hhistory, ?_, ?_⟩
  · rw [List.filterMap_append, List.filterMap_append, List.filterMap_eq_nil_iff.mpr hfaults,
      List.filterMap_eq_nil_iff.mpr hwarnings, List.nil_append, List.append_nil, ← hentities]
    exact (List.sublist_append_left _ _).trans hhistory.headings
  · exact ((headingsFollowed_of_no_headings hfaults).append hhistory.followed).append
      (headingsFollowed_of_no_headings hwarnings)

end Run

/-- Two headings in a row, a directory that may be refused, and two snippets that go wrong. -/
def underHeadings : Document := .ofEntities [
  .heading ⟨1, "Setup"⟩,
  .heading ⟨3, "Checks"⟩,
  .config 5 ⟨some "elsewhere", none⟩,
  .snippet (.single ⟨.bare 7 "unknown", ["line"]⟩),
  .snippet (.single ⟨.bare 11 "sh", ["false"]⟩)]

theorem run_log_underHeadings :
    let script : Script := ⟨[], [.error "no shell"], [], [("elsewhere", "no such directory")]⟩
    let log : List Event := [
      .fault (.atLine 5 (RunCause.unusableDirectory "elsewhere" "no such directory")),
      .heading ⟨3, "Checks"⟩,
      .fault (.atLine 7 (RunCause.unknownLanguage "unknown")),
      .failure (.of 11 "Could not run `bash main.sh`: no shell")]
    ∃ report w, ∃ history : List (Entity × List Event),
      underHeadings.run Script.host .builtin ⟨script, []⟩ = (.ok report, w) ∧
      history.map Prod.fst = underHeadings.entities ∧
      report.events = log ∧ log = history.flatMap Prod.snd ∧
      (log.filterMap Event.heading?).Sublist [⟨1, "Setup"⟩, ⟨3, "Checks"⟩] ∧
      ∃ e rest, log.drop 2 = e :: rest ∧ e.IsOutcome := by
  intro script log
  have hevents : (underHeadings.run Script.host .builtin ⟨script, []⟩).1.toOption.map (·.events) =
      some log := by
    decide +kernel
  cases hrun : underHeadings.run Script.host .builtin ⟨script, []⟩ with
  | mk result w =>
    rw [hrun] at hevents
    cases result with
    | error a => cases hevents
    | ok report =>
      have hreport : report.events = log := Option.some.inj hevents
      have hfaults : underHeadings.indexFaults = [] := by decide +kernel
      have hwarnings : underHeadings.unusedIds = [] := by decide +kernel
      obtain ⟨history, hentities, hlog, -, hheadings, hfollowed⟩ := run_log hrun
      rw [hfaults, hwarnings, List.map_nil, List.map_nil, List.nil_append, List.append_nil,
        hreport] at hlog
      rw [hreport] at hheadings
      exact ⟨report, w, history, rfl, hentities, hreport, hlog, hheadings,
        hfollowed (log.take 1) ⟨3, "Checks"⟩ (log.drop 2) hreport⟩

end Doctest
