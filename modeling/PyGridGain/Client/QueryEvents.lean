import Mathlib.Data.Int.Notation
import Mathlib.Data.List.Basic
import Mathlib.Logic.Function.Basic
import PyGridGain.Lib.Runs

/-! The events of queries. A query publishes its start whatever the logger is set to, but
its end from inside of a logging branch, and a handler that raises hides an event from the
listeners after it. -/

namespace PyGridGain

/-- What a listener is an instance of. -/
structure EventListener where
  connection : Bool
  query : Bool

/-- `_EventListeners.__init__`: the positions of those kept as query listeners. -/
def queryListeners (listeners : List EventListener) : List ℕ :=
  (listeners.zipIdx.filter fun l => !l.1.connection && l.1.query).map (·.2)

/-- `__publish_query_events`: the listeners whose handler is called. A handler that raises
ends the loop. -/
def publishQueryEvents (raises : ℕ → Bool) : List ℕ → List ℕ
  | [] => []
  | i :: is => if raises i then [i] else i :: publishQueryEvents raises is

/-- What events say of a query and of the connection that it is performed on. -/
structure QueryInfo where
  host : String
  port : ℕ
  nodeUuid : String
  queryId : ℤ
  opCode : ℤ
  opName : Option String
  deriving DecidableEq

/-- The `err` of a query: an exception or the message of the server. -/
inductive QueryError
  | exception (repr : String)
  | message (text : String)
  deriving DecidableEq

inductive QueryEvent
  | start (query : QueryInfo)
  | success (query : QueryInfo) (duration : ℕ)
  | fail (query : QueryInfo) (duration : ℕ) (err : QueryError)
  deriving DecidableEq

/-- What `perform` ends with: an `Exception` (of the encoding, the connection or the
parsing), a result, or an exception that is no `Exception` (a cancelled task). -/
inductive QueryOutcome
  | raised (repr : String)
  | returned (status : ℤ) (message : Option String)
  | cancelled
  deriving DecidableEq

/-- Python's truth value of `err`. -/
def QueryError.isTrue : QueryError → Bool
  | .exception _ => true
  | .message text => text ≠ ""

/-- `_on_query_finished`: the event that is published. -/
def onQueryFinished (query : QueryInfo) (debug : Bool) (duration : ℕ)
    (result : Option (ℤ × Option String)) (err : Option QueryError) : Option QueryEvent :=
  if debug then
    let err := match result with
      | some (status, message) => if status ≠ 0 then message.map QueryError.message else err
      | none => err
    match err.filter QueryError.isTrue with
    | some err => some (.fail query duration err)
    | none => some (.success query duration)
  else none

/-- The calls of `_on_query_finished` in `perform`. -/
def QueryOutcome.event (query : QueryInfo) (debug : Bool) (duration : ℕ) :
    QueryOutcome → Option QueryEvent
  | .raised repr => onQueryFinished query debug duration none (some (.exception repr))
  | .returned status message => onQueryFinished query debug duration (some (status, message)) none
  | .cancelled => none

/-- A call of a handler of the listener at a position, for a query. -/
structure Delivery where
  listener : ℕ
  query : ℕ
  event : QueryEvent

/-- `publish_query_start`, `publish_query_success` and `publish_query_fail`, made if there
are query listeners. -/
def publish (listeners : List EventListener) (raises : ℕ → Bool) (query : ℕ) (e : QueryEvent) :
    List Delivery :=
  if (queryListeners listeners).isEmpty then []
  else (publishQueryEvents raises (queryListeners listeners)).map fun i => ⟨i, query, e⟩

inductive QueryPhase
  | created
  | performing
  | ended (outcome : QueryOutcome)

/-- A step of `perform` or `perform_async`: the start, and the end. At a step, each
listener's handler may raise or not. -/
inductive QueryStep
  | started (query : ℕ) (raises : ℕ → Bool)
  | finished (query : ℕ) (outcome : QueryOutcome) (debug : Bool) (duration : ℕ)
      (raises : ℕ → Bool)

def QueryStep.query : QueryStep → ℕ
  | .started query _ => query
  | .finished query _ _ _ _ => query

/-- The handlers called at a step. -/
def QueryStep.deliveries (listeners : List EventListener) (info : ℕ → QueryInfo) :
    QueryStep → List Delivery
  | .started q raises => publish listeners raises q (.start (info q))
  | .finished q outcome debug duration raises =>
    match outcome.event (info q) debug duration with
    | some e => publish listeners raises q e
    | none => []

/-- The queries of a client, and the calls of handlers so far. -/
structure Queries where
  phase : ℕ → QueryPhase
  received : List Delivery

namespace Queries

def init : Queries := ⟨fun _ => .created, []⟩

/-- A query is started once and finished once; in between, other queries may be. -/
def step (listeners : List EventListener) (info : ℕ → QueryInfo) (s : Queries) (a : QueryStep) :
    Option Queries :=
  match a, s.phase a.query with
  | .started q _, .created => some ⟨Function.update s.phase q .performing,
      s.received ++ a.deliveries listeners info⟩
  | .finished q outcome _ _ _, .performing => some ⟨Function.update s.phase q (.ended outcome),
      s.received ++ a.deliveries listeners info⟩
  | _, _ => none

end Queries

/-- The events about the query `q` that the listener at `i` was given. -/
def eventsOf (i q : ℕ) (ds : List Delivery) : List QueryEvent :=
  (ds.filter fun d => d.listener = i ∧ d.query = q).map (·.event)

/-- The terminal event is a success exactly if the query returned the status 0. -/
def QueryEvent.Reports (query : QueryInfo) (outcome : QueryOutcome) (e : QueryEvent) : Prop :=
  match outcome with
  | .returned 0 _ => ∃ duration, e = .success query duration
  | _ => ∃ duration err, e = .fail query duration err

/-- The events of a query, by how far it is. -/
def QueryPhase.Expects (query : QueryInfo) : QueryPhase → List QueryEvent → Prop
  | .created, es => es = []
  | .performing, es => es = [.start query]
  | .ended outcome, es => ∃ e : QueryEvent, es = [.start query, e] ∧ e.Reports query outcome

/-- Each query listener was given the events of every query. -/
def Queries.Complete (listeners : List EventListener) (info : ℕ → QueryInfo) (s : Queries) :
    Prop :=
  ∀ i l, listeners[i]? = some l → l.query → ∀ q,
    (s.phase q).Expects (info q) (eventsOf i q s.received)

/-- A message of the server that is not empty comes with each status other than 0. -/
def QueryOutcome.Reportable : QueryOutcome → Prop
  | .raised _ => True
  | .returned status message => status ≠ 0 → message ≠ none ∧ message ≠ some ""
  | .cancelled => False

/-- The listener at `i` is kept as a query listener, and no handler before it raises. -/
def Reached (listeners : List EventListener) (raises : ℕ → Bool) (i : ℕ) : Prop :=
  i ∈ queryListeners listeners ∧ ∀ j ∈ queryListeners listeners, j < i → raises j = false

/-- The listener at `i` is given the event of the step. -/
def QueryStep.Reaches (listeners : List EventListener) (i : ℕ) : QueryStep → Prop
  | .started _ raises => Reached listeners raises i
  | .finished _ outcome debug _ raises =>
    debug ∧ outcome.Reportable ∧ Reached listeners raises i

section Publish

variable {listeners : List EventListener} {raises : ℕ → Bool} {is : List ℕ} {i q : ℕ}

theorem pairwise_queryListeners : (queryListeners listeners).Pairwise (· < ·) := by
  have hsub : (queryListeners listeners).Sublist (List.range' 0 listeners.length) := by
    rw [← List.zipIdx_map_snd]
    exact List.filter_sublist.map _
  exact List.Pairwise.sublist hsub List.pairwise_lt_range'

theorem publishQueryEvents_sublist : (publishQueryEvents raises is).Sublist is := by
  induction is with
  | nil => exact List.Sublist.refl _
  | cons j is ih =>
    unfold publishQueryEvents
    split_ifs
    · exact (List.nil_sublist is).cons_cons j
    · exact ih.cons_cons j

/-- The handlers called are those before which none raises. -/
theorem mem_publishQueryEvents (his : is.Pairwise (· < ·)) :
    i ∈ publishQueryEvents raises is ↔ i ∈ is ∧ ∀ j ∈ is, j < i → raises j = false := by
  induction is with
  | nil => simp [publishQueryEvents]
  | cons k is ih =>
    obtain ⟨hk, his⟩ := List.pairwise_cons.mp his
    unfold publishQueryEvents
    split_ifs with hraises
    · constructor
      · intro hi
        obtain rfl := List.mem_singleton.mp hi
        refine ⟨List.mem_cons_self, fun j hj hlt => ?_⟩
        rcases List.mem_cons.mp hj with rfl | hj
        · omega
        · exact absurd (hk j hj) (by omega)
      · rintro ⟨hi, hquiet⟩
        rcases List.mem_cons.mp hi with rfl | hi
        · exact List.mem_cons_self
        · have hfalse := hquiet k List.mem_cons_self (hk i hi)
          rw [hraises] at hfalse
          cases hfalse
    · rw [List.mem_cons, ih his, List.mem_cons]
      constructor
      · rintro (rfl | ⟨hi, hquiet⟩)
        · refine ⟨Or.inl rfl, fun j hj hlt => ?_⟩
          rcases List.mem_cons.mp hj with rfl | hj
          · omega
          · exact absurd (hk j hj) (by omega)
        · refine ⟨Or.inr hi, fun j hj hlt => ?_⟩
          rcases List.mem_cons.mp hj with rfl | hj
          · simpa using hraises
          · exact hquiet j hj hlt
      · rintro ⟨rfl | hi, hquiet⟩
        · exact Or.inl rfl
        · exact Or.inr ⟨hi, fun j hj => hquiet j (List.mem_cons_of_mem k hj)⟩

theorem eventsOf_append {ds ds' : List Delivery} :
    eventsOf i q (ds ++ ds') = eventsOf i q ds ++ eventsOf i q ds' := by
  simp [eventsOf]

theorem eventsOf_map {is : List ℕ} (hnd : is.Nodup) {e : QueryEvent} :
    eventsOf i q (is.map fun j => ⟨j, q, e⟩) = if i ∈ is then [e] else [] := by
  induction is with
  | nil => rfl
  | cons j is ih =>
    obtain ⟨hj, hnd⟩ := List.nodup_cons.mp hnd
    have hrest := ih hnd
    unfold eventsOf at hrest ⊢
    by_cases heq : j = i
    · subst heq
      rw [if_neg hj] at hrest
      rw [List.map_cons, List.filter_cons_of_pos (by simp), List.map_cons, hrest,
        if_pos List.mem_cons_self]
    · rw [List.map_cons, List.filter_cons_of_neg (by simp [heq]), hrest]
      simp [Ne.symm heq]

/-- A listener is given an event once, or not at all. -/
theorem eventsOf_publish {e : QueryEvent} [Decidable (Reached listeners raises i)] :
    eventsOf i q (publish listeners raises q e) =
      if Reached listeners raises i then [e] else [] := by
  have hlt := @pairwise_queryListeners listeners
  have hnd : (queryListeners listeners).Nodup := hlt.imp fun h => by omega
  unfold publish
  split_ifs with hempty hreached hreached
  · have hi := hreached.1
    rw [List.isEmpty_iff.mp hempty] at hi
    cases hi
  · rfl
  · rw [eventsOf_map (hnd.sublist publishQueryEvents_sublist),
      if_pos ((mem_publishQueryEvents hlt).mpr hreached)]
  · rw [eventsOf_map (hnd.sublist publishQueryEvents_sublist),
      if_neg (fun h => hreached ((mem_publishQueryEvents hlt).mp h))]

end Publish

section Run

variable {listeners : List EventListener} {info : ℕ → QueryInfo} {i q : ℕ} {s t : Queries}
  {a : QueryStep} {as : List QueryStep}

theorem step_cases (h : s.step listeners info a = some t) :
    t.received = s.received ++ a.deliveries listeners info ∧
    ((∃ q raises, a = .started q raises ∧ s.phase q = .created ∧
        t.phase = Function.update s.phase q .performing) ∨
      ∃ q outcome debug duration raises, a = .finished q outcome debug duration raises ∧
        s.phase q = .performing ∧ t.phase = Function.update s.phase q (.ended outcome)) := by
  unfold Queries.step at h
  split at h
  case h_1 q raises hphase =>
    obtain rfl := Option.some.inj h
    exact ⟨rfl, Or.inl ⟨q, raises, rfl, hphase, rfl⟩⟩
  case h_2 q outcome debug duration raises hphase =>
    obtain rfl := Option.some.inj h
    exact ⟨rfl, Or.inr ⟨q, outcome, debug, duration, raises, rfl, hphase, rfl⟩⟩
  case h_3 => cases h

/-- A step for another query leaves the phase as it is. -/
theorem step_other (h : s.step listeners info a = some t) (hq : a.query ≠ q) :
    t.phase q = s.phase q := by
  obtain ⟨-, ⟨q', raises, rfl, -, ht⟩ | ⟨q', outcome, debug, duration, raises, rfl, -, ht⟩⟩ :=
    step_cases h <;> exact ht ▸ Function.update_of_ne (Ne.symm hq) _ _

theorem steps_of_ended {outcome : QueryOutcome} (hs : s.phase q = .ended outcome)
    (h : run (Queries.step listeners info) s as = some t) :
    as.filter (·.query = q) = [] ∧ t.phase q = .ended outcome := by
  induction as generalizing s with
  | nil => exact ⟨rfl, Option.some.inj h ▸ hs⟩
  | cons a as ih =>
    obtain ⟨u, hsu, hu⟩ := run_cons h
    have hq : a.query ≠ q := by
      rintro rfl
      obtain ⟨-, ⟨q, raises, rfl, hphase, -⟩ |
        ⟨q, outcome, debug, duration, raises, rfl, hphase, -⟩⟩ := step_cases hsu <;>
        exact absurd (hphase.symm.trans hs) (by simp)
    rw [List.filter_cons_of_neg (by simpa using hq)]
    exact ih ((step_other hsu hq).trans hs) hu

theorem steps_of_performing (hs : s.phase q = .performing)
    (h : run (Queries.step listeners info) s as = some t) :
    (as.filter (·.query = q) = [] ∧ t.phase q = .performing) ∨
    ∃ outcome debug duration raises,
      as.filter (·.query = q) = [.finished q outcome debug duration raises] ∧
      t.phase q = .ended outcome := by
  induction as generalizing s with
  | nil => exact Or.inl ⟨rfl, Option.some.inj h ▸ hs⟩
  | cons a as ih =>
    obtain ⟨u, hsu, hu⟩ := run_cons h
    by_cases hq : a.query = q
    · obtain ⟨-, ⟨q', raises, rfl, hphase, -⟩ |
        ⟨q', outcome, debug, duration, raises, rfl, -, hphase⟩⟩ := step_cases hsu
      · obtain rfl : q' = q := hq
        exact absurd (hphase.symm.trans hs) (by simp)
      · obtain rfl : q' = q := hq
        obtain ⟨hrest, ht⟩ := steps_of_ended (q := q') (by rw [hphase, Function.update_self]) hu
        refine Or.inr ⟨outcome, debug, duration, raises, ?_, ht⟩
        rw [List.filter_cons_of_pos (by simp [QueryStep.query])]
        exact congrArg (List.cons _) hrest
    · rw [List.filter_cons_of_neg (by simpa using hq)]
      exact ih ((step_other hsu hq).trans hs) hu

/-- The steps for a query, by how far it is. -/
theorem steps_of_created (hs : s.phase q = .created)
    (h : run (Queries.step listeners info) s as = some t) :
    (as.filter (·.query = q) = [] ∧ t.phase q = .created) ∨
    (∃ raises, as.filter (·.query = q) = [.started q raises] ∧ t.phase q = .performing) ∨
    ∃ raises outcome debug duration raises', as.filter (·.query = q) =
        [.started q raises, .finished q outcome debug duration raises'] ∧
      t.phase q = .ended outcome := by
  induction as generalizing s with
  | nil => exact Or.inl ⟨rfl, Option.some.inj h ▸ hs⟩
  | cons a as ih =>
    obtain ⟨u, hsu, hu⟩ := run_cons h
    by_cases hq : a.query = q
    · obtain ⟨-, ⟨q', raises, rfl, -, hphase⟩ |
        ⟨q', outcome, debug, duration, raises, rfl, hphase, -⟩⟩ := step_cases hsu
      · obtain rfl : q' = q := hq
        have hfilter : (QueryStep.started q' raises :: as).filter (·.query = q') =
            .started q' raises :: as.filter (·.query = q') :=
          List.filter_cons_of_pos (by simp [QueryStep.query])
        obtain ⟨hrest, ht⟩ | ⟨outcome, debug, duration, raises', hrest, ht⟩ :=
          steps_of_performing (q := q') (by rw [hphase, Function.update_self]) hu
        · exact Or.inr (Or.inl ⟨raises, hrest ▸ hfilter, ht⟩)
        · exact Or.inr (Or.inr ⟨raises, outcome, debug, duration, raises',
            hrest ▸ hfilter, ht⟩)
      · obtain rfl : q' = q := hq
        exact absurd (hphase.symm.trans hs) (by simp)
    · rw [List.filter_cons_of_neg (by simpa using hq)]
      exact ih ((step_other hsu hq).trans hs) hu

theorem eventsOf_other {a : QueryStep} (hq : a.query ≠ q) :
    eventsOf i q (a.deliveries listeners info) = [] := by
  have hpublish : ∀ raises q' e, q' ≠ q → eventsOf i q (publish listeners raises q' e) = [] := by
    intro raises q' e hne
    unfold publish eventsOf
    split_ifs
    · rfl
    · simp [List.filter_map, Function.comp_def, hne]
  cases a with
  | started q' raises => exact hpublish raises q' _ hq
  | finished q' outcome debug duration raises =>
    unfold QueryStep.deliveries
    dsimp only
    split
    · exact hpublish raises q' _ hq
    · rfl

/-- The events about a query come from its own steps. -/
theorem eventsOf_run (h : run (Queries.step listeners info) s as = some t) :
    eventsOf i q t.received = eventsOf i q s.received ++
      (as.filter (·.query = q)).flatMap fun a => eventsOf i q (a.deliveries listeners info) := by
  induction as generalizing s with
  | nil =>
    obtain rfl := Option.some.inj h
    simp
  | cons a as ih =>
    obtain ⟨u, hsu, hu⟩ := run_cons h
    rw [ih hu, (step_cases hsu).1, eventsOf_append, List.append_assoc]
    by_cases hq : a.query = q
    · rw [List.filter_cons_of_pos (by simpa using hq), List.flatMap_cons]
    · rw [List.filter_cons_of_neg (by simpa using hq), eventsOf_other hq, List.nil_append]

end Run

section Steps

variable {listeners : List EventListener} {info : ℕ → QueryInfo} {query : QueryInfo} {i q : ℕ}
  {raises : ℕ → Bool} {outcome : QueryOutcome} {debug : Bool} {duration : ℕ}

/-- The event published at the end is the right one if the logger is set to `DEBUG` and
the error is not hidden by its truth value. -/
theorem event_reports_iff (query : QueryInfo) (duration : ℕ) :
    (∃ e, outcome.event query debug duration = some e ∧ e.Reports query outcome) ↔
      debug ∧ outcome.Reportable := by
  unfold QueryOutcome.event onQueryFinished QueryOutcome.Reportable QueryEvent.Reports
  cases debug with
  | false => cases outcome <;> simp
  | true =>
    cases outcome with
    | raised repr => simp [QueryError.isTrue, Option.filter]
    | cancelled => simp
    | returned status message =>
      by_cases hstatus : status = 0
      · subst hstatus
        simp
      · cases message with
        | none => simp [hstatus]
        | some text =>
          by_cases htext : text = ""
          · simp [hstatus, QueryError.isTrue, Option.filter, htext]
          · simp [hstatus, QueryError.isTrue, Option.filter, htext]

theorem eventsOf_started (info : ℕ → QueryInfo) :
    eventsOf i q ((QueryStep.started q raises).deliveries listeners info) = [.start (info q)] ↔
      (QueryStep.started q raises).Reaches listeners i := by
  classical
  unfold QueryStep.deliveries QueryStep.Reaches
  dsimp only
  rw [eventsOf_publish]
  split_ifs with h <;> simp [h]

/-- A listener is given no more than one event at a step. -/
theorem eventsOf_length_le (listeners : List EventListener) (info : ℕ → QueryInfo) (i q : ℕ)
    (a : QueryStep) : (eventsOf i q (a.deliveries listeners info)).length ≤ 1 := by
  classical
  by_cases hq : a.query = q
  · subst hq
    cases a with
    | started q raises =>
      unfold QueryStep.deliveries
      dsimp only
      rw [QueryStep.query, eventsOf_publish]
      split_ifs <;> simp
    | finished q outcome debug duration raises =>
      unfold QueryStep.deliveries
      dsimp only
      split
      · rw [QueryStep.query, eventsOf_publish]
        split_ifs <;> simp
      · simp [eventsOf]
  · rw [eventsOf_other hq]
    simp

theorem eventsOf_finished (info : ℕ → QueryInfo) :
    (∃ e, eventsOf i q ((QueryStep.finished q outcome debug duration raises).deliveries
        listeners info) = [e] ∧ e.Reports (info q) outcome) ↔
      (QueryStep.finished q outcome debug duration raises).Reaches listeners i := by
  classical
  unfold QueryStep.Reaches
  dsimp only
  rw [← and_assoc, ← event_reports_iff (info q) duration]
  unfold QueryStep.deliveries
  dsimp only
  cases h : outcome.event (info q) debug duration with
  | none => simp [eventsOf]
  | some e =>
    simp only [eventsOf_publish]
    split_ifs with hreached <;> simp [hreached]

end Steps

/-- Every query listener is given, for every query, its start and then its end, exactly if
no listener is a connection listener too, and at each step no handler before raises, the
logger is set to `DEBUG` at the end, and an error has a message that is not empty. -/
theorem query_events_complete_iff {listeners : List EventListener} {info : ℕ → QueryInfo}
    {as : List QueryStep} {s : Queries}
    (hrun : run (Queries.step listeners info) Queries.init as = some s) :
    s.Complete listeners info ↔ ∀ a ∈ as, ∀ i l, listeners[i]? = some l → l.query →
      a.Reaches listeners i := by
  have hevents : ∀ i q, eventsOf i q s.received = (as.filter (·.query = q)).flatMap fun a =>
      eventsOf i q (a.deliveries listeners info) := fun i q => eventsOf_run hrun
  have hsteps : ∀ i q, (s.phase q).Expects (info q) (eventsOf i q s.received) ↔
      ∀ a ∈ as.filter (·.query = q), a.Reaches listeners i := by
    intro i q
    rw [hevents]
    obtain ⟨hfilter, hphase⟩ | ⟨raises, hfilter, hphase⟩ |
      ⟨raises, outcome, debug, duration, raises', hfilter, hphase⟩ :=
      steps_of_created (q := q) rfl hrun <;> rw [hfilter, hphase] <;> unfold QueryPhase.Expects
    · simp
    · simp only [List.flatMap_cons, List.flatMap_nil, List.append_nil, List.forall_mem_singleton]
      exact eventsOf_started info
    · simp only [List.flatMap_cons, List.flatMap_nil, List.append_nil, List.forall_mem_cons,
        List.not_mem_nil, false_implies, implies_true, and_true]
      rw [← eventsOf_started info, ← eventsOf_finished info]
      constructor
      · rintro ⟨e, heq, hreports⟩
        have hle := eventsOf_length_le listeners info i q (.started q raises)
        have hle' := eventsOf_length_le listeners info i q
          (.finished q outcome debug duration raises')
        have htwo := congrArg List.length heq
        rw [List.length_append] at htwo
        simp only [List.length_cons, List.length_nil] at htwo
        obtain ⟨hstart, hend⟩ := List.append_inj (heq.trans (List.singleton_append.symm))
          (by rw [List.length_singleton]; omega)
        exact ⟨hstart, e, hend, hreports⟩
      · rintro ⟨hstart, e, hend, hreports⟩
        exact ⟨e, by rw [hstart, hend]; rfl, hreports⟩
  constructor
  · intro h a ha i l hi hl
    exact (hsteps i a.query).mp (h i l hi hl a.query) a (List.mem_filter.mpr ⟨ha, by simp⟩)
  · intro h i l hi hl q
    exact (hsteps i q).mpr fun a ha => h a (List.mem_of_mem_filter ha) i l hi hl

/-- Two queries of which the second starts and ends within the first, and two listeners. -/
theorem query_events_complete_iff_two :
    let listeners : List EventListener := [⟨false, true⟩, ⟨false, true⟩]
    let info : ℕ → QueryInfo := fun q => ⟨"127.0.0.1", 10800, "", q + 1, 1050, "OP_CACHE_GET_NAMES"⟩
    let as : List QueryStep := [.started 0 fun _ => false, .started 1 fun _ => false,
      .finished 1 (.returned 1001 (some "Cache does not exist")) true 4 fun _ => false,
      .finished 0 (.returned 0 (some "Success")) true 7 fun _ => false]
    ∃ s, run (Queries.step listeners info) Queries.init as = some s ∧
      (s.Complete listeners info ↔ ∀ a ∈ as, ∀ i l, listeners[i]? = some l → l.query →
        a.Reaches listeners i) := by
  intro listeners info as
  obtain ⟨s, hs⟩ : ∃ s, run (Queries.step listeners info) Queries.init as = some s := ⟨_, rfl⟩
  exact ⟨s, hs, query_events_complete_iff hs⟩

/-- With the logger above `DEBUG` a listener is given the start of a query and nothing else. -/
theorem query_end_not_published :
    let info : ℕ → QueryInfo := fun q => ⟨"127.0.0.1", 10800, "", q + 1, 1050, "OP_CACHE_GET_NAMES"⟩
    let as : List QueryStep := [.started 0 fun _ => false,
      .finished 0 (.returned 0 (some "Success")) false 7 fun _ => false]
    ∃ s, run (Queries.step [⟨false, true⟩] info) Queries.init as = some s ∧
      s.phase 0 = .ended (.returned 0 (some "Success")) ∧
      eventsOf 0 0 s.received = [.start (info 0)] ∧ ¬s.Complete [⟨false, true⟩] info := by
  intro info as
  refine ⟨_, rfl, rfl, rfl, fun h => ?_⟩
  obtain ⟨e, hevents, -⟩ := h 0 ⟨false, true⟩ rfl rfl 0
  cases hevents

end PyGridGain
