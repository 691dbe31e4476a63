import Mathlib.Algebra.BigOperators.Group.List.Basic
import RubicaBot.Worker.Join

/-!
# RubicaBot.Worker.Statistics

The counters of the `StatsCollector` that the queue and the workers share.

`Booked` says of each counter what the log says it counts: the calls of `enqueue` by their
decisions, and the evictions.  `Reported` adds the workers: what they have processed is
what they have received and are not handling any more.  Both hold in every run, so the
counters can be added up against each other.
-/

namespace RubicaBot

open Transition

/-! ## what each operation of the queue records -/

namespace JobQueue

@[simp] theorem stats_record (q : JobQueue) (f : StatsCollector → StatsCollector) :
    (q.record f).stats = q.stats.map f := rfl

@[simp] theorem stats_setQueue (q : JobQueue) (p : JobPriority) (a : AsyncQueue (Option Job)) :
    (q.setQueue p a).stats = q.stats := by cases p <;> rfl

@[simp] theorem stats_put (q : JobQueue) (job : Job) : (q.put job).stats = q.stats :=
  q.stats_setQueue _ _

@[simp] theorem stats_counted (q : JobQueue) :
    q.counted.stats = q.stats.map (·.recordEnqueue (q.size + 1)) := rfl

@[simp] theorem stats_taskDone (q : JobQueue) (job : Option Job) (last : Option JobPriority) :
    (q.taskDone job last).stats = q.stats := by
  unfold taskDone
  split <;> simp

/-- Taking an item is not counted. -/
theorem stats_takeFrom {q q' : JobQueue} {p : JobPriority} {item : Option Job}
    (h : q.takeFrom p = some (item, q')) : q'.stats = q.stats := by
  obtain ⟨a, -, rfl⟩ := takeFrom_eq_some h
  exact q.stats_setQueue p a

/-- An eviction is recorded as a drop. -/
theorem stats_dropOldest (q : JobQueue) :
    q.dropOldest.stats = if q.victim.isSome then q.stats.map (·.recordDrop) else q.stats := by
  unfold dropOldest victim
  cases hn : q.normalQueue.discardOldest with
  | some p =>
      obtain ⟨item, normal⟩ := p
      rw [AsyncQueue.items_of_discardOldest hn]
      rfl
  | none =>
      rw [(AsyncQueue.discardOldest_eq_none_iff _).mp hn]
      cases hh : q.highQueue.discardOldest with
      | some p =>
          obtain ⟨item, high⟩ := p
          rw [AsyncQueue.items_of_discardOldest hh]
          rfl
      | none =>
          rw [(AsyncQueue.discardOldest_eq_none_iff _).mp hh]
          rfl

/-- A duplicate is counted as such. -/
theorem stats_seenCheck {q q' : JobQueue} {job : Job} {now : Instant} {duplicate : Bool}
    (h : q.seenCheck job now = (duplicate, q')) :
    q'.stats = if duplicate then q.stats.map (·.recordDedup) else q.stats := by
  simp only [seenCheck, Prod.mk.injEq] at h
  obtain ⟨rfl, rfl⟩ := h
  split <;> rfl

end JobQueue

/-! ## the log -/

namespace Event

/-- The call the event reports as a duplicate. -/
def duplicate? : Event → Option EnqueueCall
  | .decided call .duplicate => some call
  | _ => none

/-- The call the event reports as dropped. -/
def dropped? : Event → Option EnqueueCall
  | .decided call .dropped => some call
  | _ => none

end Event

namespace Loop

/-- The calls answered `duplicate`. -/
def duplicateCalls (s : Loop) : List EnqueueCall := s.log.filterMap Event.duplicate?

/-- The calls answered `dropped`. -/
def droppedCalls (s : Loop) : List EnqueueCall := s.log.filterMap Event.dropped?

/-- The collector's counters of the queue are what the log says. -/
structure Booked (s : Loop) (c : StatsCollector) : Prop where
  enqueued : c.totalEnqueued = s.enqueuedCalls.length
  deduped : c.totalDeduped = s.duplicateCalls.length
  dropped : c.totalDropped = s.droppedCalls.length + s.evicted.length

/-- The counters of the workers. -/
def dispatched (c : StatsCollector) : Nat × Nat := (c.totalUpdates, c.totalErrors)

/-- The books of a queue whose log grows by `events`, with nothing of note in them. -/
theorem Booked.of_log {s s' : Loop} {c : StatsCollector} (hb : s.Booked c) (events : List Event)
    (hlog : s'.log = events ++ s.log) (henqueued : events.filterMap Event.enqueued? = [])
    (hduplicate : events.filterMap Event.duplicate? = [])
    (hdropped : events.filterMap Event.dropped? = [])
    (hevicted : events.filterMap Event.evicted? = []) : s'.Booked c := by
  refine ⟨?_, ?_, ?_⟩
  · rw [enqueuedCalls, hlog, List.filterMap_append, henqueued]
    exact hb.enqueued
  · rw [duplicateCalls, hlog, List.filterMap_append, hduplicate]
    exact hb.deduped
  · rw [droppedCalls, evicted, hlog, List.filterMap_append, List.filterMap_append, hdropped,
      hevicted]
    exact hb.dropped

/-- What a critical section of `enqueue` records: its decision, and the eviction before it. -/
theorem enqueueLocked_stats {q : JobQueue} {c : StatsCollector} (hstats : q.stats = some c)
    (job : Job) : ∃ c', (q.enqueueLocked job).2.stats = some c' ∧
      c'.totalEnqueued =
        c.totalEnqueued + (if (q.enqueueLocked job).1 = .enqueued then 1 else 0) ∧
      c'.totalDeduped = c.totalDeduped ∧
      c'.totalDropped = c.totalDropped + (if (q.enqueueLocked job).1 = .dropped then 1 else 0) +
        ((q.enqueueEvents job).filterMap Event.evicted?).length ∧
      dispatched c' = dispatched c ∧ (q.enqueueLocked job).1 ≠ .duplicate := by
  unfold JobQueue.enqueueLocked JobQueue.enqueueEvents
  by_cases hfull : q.isFull
  · by_cases hpolicy : q.fullPolicy = "drop_oldest"
    · have hdrop := q.stats_dropOldest
      rw [hstats] at hdrop
      simp only [hfull, hpolicy, if_true, JobQueue.stats_counted, JobQueue.stats_put, hdrop,
        List.filterMap_cons, Event.evicted?, Event.evicted_evicted]
      cases q.victim with
      | none => exact ⟨_, rfl, rfl, rfl, rfl, rfl, by simp⟩
      | some item => exact ⟨_, rfl, rfl, rfl, rfl, rfl, by simp⟩
    · simp only [hfull, hpolicy, if_true, if_false, JobQueue.stats_record, hstats]
      exact ⟨_, rfl, rfl, rfl, rfl, rfl, by simp⟩
  · simp only [hfull, Bool.false_eq_true, if_false, JobQueue.stats_counted, JobQueue.stats_put,
      hstats]
    exact ⟨_, rfl, rfl, rfl, rfl, rfl, by simp⟩

/-- What `enqueue` does under its lock is booked: as enqueued, and as dropped once for each job or
item lost. -/
theorem locked_booked {s : Loop} {c : StatsCollector} (hstats : s.queue.stats = some c)
    (hb : s.Booked c) (call : EnqueueCall) (waiters : List EnqueueCall) :
    ∃ c', (s.queue.enqueueLocked call.job).2.stats = some c' ∧
      ({ s with
        queue := (s.queue.enqueueLocked call.job).2
        lockWaiters := waiters
        log := .decided call (s.queue.enqueueLocked call.job).1 ::
          (s.queue.enqueueEvents call.job ++ s.log) } : Loop).Booked c' ∧
      dispatched c' = dispatched c := by
  obtain ⟨c', hstats', henqueued, hdeduped, hdropped, hdispatched, hnot⟩ :=
    enqueueLocked_stats hstats call.job
  have hduplicates : (s.queue.enqueueEvents call.job).filterMap Event.duplicate? = [] :=
    s.queue.enqueueEvents_filterMap_none _ (fun _ => rfl) fun _ => rfl
  have hdrops : (s.queue.enqueueEvents call.job).filterMap Event.dropped? = [] :=
    s.queue.enqueueEvents_filterMap_none _ (fun _ => rfl) fun _ => rfl
  have hold₁ := hb.enqueued
  have hold₂ := hb.deduped
  have hold₃ := hb.dropped
  simp only [enqueuedCalls, duplicateCalls, droppedCalls, evicted] at hold₁ hold₂ hold₃
  refine ⟨c', hstats', ⟨?_, ?_, ?_⟩, hdispatched⟩
  · rw [henqueued, hold₁, enqueuedCalls]
    cases (s.queue.enqueueLocked call.job).1 <;>
      simp [List.filterMap_cons, Event.enqueued?]
  · rw [hdeduped, hold₂, duplicateCalls]
    cases hdecision : (s.queue.enqueueLocked call.job).1 with
    | duplicate => exact absurd hdecision hnot
    | _ => simp [List.filterMap_cons, Event.duplicate?, hduplicates]
  · rw [hdropped, hold₃, droppedCalls, evicted]
    cases (s.queue.enqueueLocked call.job).1 <;>
      simp [List.filterMap_cons, Event.dropped?, Event.evicted?, hdrops] <;> omega

/-- **Step lemma.** -/
theorem step_booked {s s' : Loop} {l : Label} {c : StatsCollector}
    (hstats : s.queue.stats = some c) (hb : s.Booked c) (h : s.step l = some s') :
    ∃ c', s'.queue.stats = some c' ∧ s'.Booked c' ∧ dispatched c' = dispatched c := by
  cases Step.of_step h with
  | duplicate job now q hclock hseen =>
      have hq := JobQueue.stats_seenCheck hseen
      rw [hstats] at hq
      refine ⟨c.recordDedup, hq, ⟨hb.enqueued, ?_, hb.dropped⟩, rfl⟩
      exact congrArg (· + 1) hb.deduped
  | fresh job now q hclock hseen =>
      have hq := JobQueue.stats_seenCheck hseen
      rw [hstats] at hq
      exact ⟨c, hq, ⟨hb.enqueued, hb.deduped, hb.dropped⟩, rfl⟩
  | locked i call hcall => exact locked_booked hstats hb call _
  | putRaw => exact ⟨c, hstats, hb.of_log [.put none] rfl rfl rfl rfl rfl, rfl⟩
  | dropOldest =>
      have hq := s.queue.stats_dropOldest
      rw [hstats] at hq
      obtain ⟨henqueued, hdeduped, hdropped⟩ := hb
      cases hv : s.queue.victim with
      | none =>
          rw [hv] at hq
          exact ⟨c, hq, ⟨henqueued, hdeduped, hdropped⟩, rfl⟩
      | some item =>
          rw [hv] at hq
          refine ⟨c.recordDrop, hq, ⟨henqueued, hdeduped, ?_⟩, rfl⟩
          exact congrArg (· + 1) hdropped
  | drain =>
      refine ⟨c, hstats, hb.of_log _ rfl (Event.enqueued_drained _) ?_ ?_
        (Event.evicted_drained _), rfl⟩
      · exact filterMap_map_none (fun _ => rfl) _
      · exact filterMap_map_none (fun _ => rfl) _
  | getReady i lastQueue item p q hgetter hready =>
      obtain ⟨m, htake, rfl, -⟩ := JobQueue.getReady_eq_some hready
      refine ⟨c, (JobQueue.stats_takeFrom htake).trans hstats, ?_, rfl⟩
      exact hb.of_log [.returned i item] rfl rfl rfl rfl rfl
  | getWait i lastQueue hgetter hready =>
      exact ⟨c, hstats, ⟨hb.enqueued, hb.deduped, hb.dropped⟩, rfl⟩
  | childTakes i p phase lastQueue item q hgetter htask htake =>
      exact ⟨c, (JobQueue.stats_takeFrom htake).trans hstats,
        ⟨hb.enqueued, hb.deduped, hb.dropped⟩, rfl⟩
  | resume i winner phase lastQueue item hgetter htask =>
      exact ⟨c, hstats, hb.of_log [.returned i item] rfl rfl rfl rfl rfl, rfl⟩
  | taskDone i job getter hgetter =>
      exact ⟨c, (JobQueue.stats_taskDone _ _ _).trans hstats,
        ⟨hb.enqueued, hb.deduped, hb.dropped⟩, rfl⟩

/-- Sentinels are put without a record. -/
theorem putSentinels_booked (n : Nat) {s : Loop} {c : StatsCollector}
    (hstats : s.queue.stats = some c) (hb : s.Booked c) :
    (s.putSentinels n).queue.stats = some c ∧ (s.putSentinels n).Booked c := by
  induction n generalizing s with
  | zero => exact ⟨hstats, hb⟩
  | succ n ih => exact ih hstats (hb.of_log [.put none] rfl rfl rfl rfl rfl)

end Loop

/-! ## the workers -/

/-- Replacing one entry of a list exchanges its share of a sum. -/
theorem sum_map_set {α : Type} (f : α → Nat) {xs : List α} {i : Nat} {x : α}
    (h : xs[i]? = some x) (y : α) :
    ((xs.set i y).map f).sum + f x = (xs.map f).sum + f y := by
  induction xs generalizing i with
  | nil => cases h
  | cons z zs ih =>
      cases i with
      | zero =>
          cases h
          simp only [List.set_cons_zero, List.map_cons, List.sum_cons]
          omega
      | succ i =>
          have hih := ih h
          simp only [List.set_cons_succ, List.map_cons, List.sum_cons]
          omega

namespace WorkerPool

/-- What the workers say they have processed. -/
def processed (s : WorkerPool) : Nat := (s.workers.map (·.status.processed)).sum

/-- The collector's counters are what has happened. -/
structure Reported (s : WorkerPool) (c : StatsCollector) : Prop where
  stats : s.loop.queue.stats = some c
  booked : s.loop.Booked c
  updates : c.totalUpdates = s.processed
  errors : c.totalErrors ≤ c.totalUpdates
  received : s.passed.length = c.totalUpdates + s.handling.length

/-- One worker changes, and with it the number of jobs in the handler. -/
theorem length_handling_set {s : WorkerPool} {i : Nat} {w : Worker} (h : s.workers[i]? = some w)
    (w' : Worker) :
    ((s.workers.set i w').flatMap (·.phase.jobs)).length + w.phase.jobs.length =
      s.handling.length + w'.phase.jobs.length := by
  have hcount := countP_flatMap_set (fun _ => true) (fun w : Worker => w.phase.jobs) (y := w') h
  simpa only [List.countP_true, handling] using hcount

/-- And with it the number of jobs processed. -/
theorem processed_set {s : WorkerPool} {i : Nat} {w : Worker} (h : s.workers[i]? = some w)
    (w' : Worker) : ((s.workers.set i w').map (·.status.processed)).sum + w.status.processed =
      s.processed + w'.status.processed :=
  sum_map_set (fun w : Worker => w.status.processed) h w'

/-- A step of the queue that leaves the workers alone. -/
theorem Reported.loop_step {s : WorkerPool} {c : StatsCollector} (hr : s.Reported c)
    {l : RubicaBot.Label} {loop : Loop} (hstep : s.loop.step l = some loop) :
    ∃ c', ({ s with loop := loop } : WorkerPool).Reported c' ∧
      c'.totalErrors = c.totalErrors := by
  obtain ⟨c', hstats, hbooked, hdispatched⟩ := Loop.step_booked hr.stats hr.booked hstep
  obtain ⟨hupdates, herrors⟩ := Prod.mk.inj hdispatched
  refine ⟨c', ⟨hstats, hbooked, hupdates.trans hr.updates, ?_, ?_⟩, herrors⟩
  · rw [hupdates, herrors]
    exact hr.errors
  · rw [hupdates]
    exact hr.received

/-- The errors that a step records. -/
def Label.errors : Label → Nat
  | .handled _ error _ => error.isSome.toNat
  | _ => 0

/-- No handler raises in a turn of `get`. -/
theorem Label.errors_of_own {lab : Label} {i : Nat} {l : RubicaBot.Label}
    (h : lab.own = some (i, l)) : lab.errors = 0 := by
  cases lab <;> first | rfl | cases h

/-- **Step lemma.** -/
theorem step_reported {s s' : WorkerPool} {lab : Label} {c : StatsCollector} (hs : s.Sound)
    (hr : s.Reported c) (h : s.step lab = some s') :
    ∃ c', s'.Reported c' ∧ c'.totalErrors = c.totalErrors + lab.errors := by
  have hs' := step_sound hs h
  cases Step.of_step h with
  | queue l loop hl hstep => exact hr.loop_step hstep
  | waits lab i l hown status loop hworker hstep hdel =>
      rw [Label.errors_of_own hown]
      exact hr.loop_step hstep
  | job lab i l hown status loop hworker hstep job p hdel =>
      rw [Label.errors_of_own hown]
      obtain ⟨c', hr', herrors⟩ := hr.loop_step hstep
      have hhandling := length_handling_set hworker ⟨status, .handling job⟩
      have hprocessed := processed_set hworker ⟨status, .handling job⟩
      have hreceived := hr'.received
      have hupdates := hr'.updates
      refine ⟨c', ⟨hr'.stats, hr'.booked, ?_, hr'.errors, ?_⟩, herrors⟩
      · simp only [processed] at hupdates hprocessed ⊢
        omega
      · simp only [handling, WorkerPhase.jobs, List.length_cons, List.length_nil]
          at hreceived hhandling ⊢
        omega
  | sentinel lab i l hown status loop hworker hstep p hdel =>
      rw [Label.errors_of_own hown]
      obtain ⟨c', hr', herrors⟩ := hr.loop_step hstep
      have hraises := not_raises_of_sound (s := { s with loop := loop }) hworker hs'
      have hhandling := length_handling_set hworker ⟨{ status with alive := false }, .exited⟩
      have hprocessed := processed_set hworker ⟨{ status with alive := false }, .exited⟩
      have hreceived := hr'.received
      have hupdates := hr'.updates
      rw [taskDone_eq _ hraises]
      refine ⟨c', ⟨(JobQueue.stats_taskDone _ _ _).trans hr'.stats,
        ⟨hr'.booked.enqueued, hr'.booked.deduped, hr'.booked.dropped⟩, ?_, hr'.errors, ?_⟩, herrors⟩
      · simp only [processed] at hupdates hprocessed ⊢
        omega
      · simp only [handling, WorkerPhase.jobs, List.length_nil] at hreceived hhandling ⊢
        omega
  | handled i error now status job hworker =>
      have hraises := not_raises_of_sound (s := s.recordDispatch error.isSome) hworker hs'
      have hhandling := length_handling_set hworker ⟨finished status error now, .looping⟩
      have hprocessed := processed_set hworker ⟨finished status error now, .looping⟩
      have hone : (finished status error now).processed = status.processed + 1 := by
        cases error <;> rfl
      have hreceived := hr.received
      have hupdates := hr.updates
      have herrors := hr.errors
      rw [taskDone_eq _ hraises]
      refine ⟨c.recordDispatch error.isSome, ⟨?_,
        ⟨hr.booked.enqueued, hr.booked.deduped, hr.booked.dropped⟩, ?_, ?_, ?_⟩, ?_⟩
      · refine (JobQueue.stats_taskDone _ _ _).trans ?_
        exact congrArg (Option.map _) hr.stats
      · simp only [processed, StatsCollector.recordDispatch, recordDispatch, hone]
          at hupdates hprocessed ⊢
        omega
      · simp only [StatsCollector.recordDispatch]
        split <;> omega
      · simp only [handling, WorkerPhase.jobs, List.length_cons, List.length_nil,
          StatsCollector.recordDispatch, recordDispatch] at hreceived hhandling ⊢
        omega
      · cases error <;> rfl
  | stop hbefore =>
      obtain ⟨hstats, hbooked⟩ := Loop.putSentinels_booked s.workers.length hr.stats hr.booked
      exact ⟨c, ⟨hstats, hbooked, hr.updates, hr.errors, hr.received⟩, rfl⟩
  | stopReturns hbefore hended =>
      exact ⟨c, ⟨hr.stats, hr.booked, hr.updates, hr.errors, hr.received⟩, rfl⟩

/-! ## what a step throws away -/

/-- What a step of the pool takes out of every place. -/
def discarded (s : WorkerPool) (lab : Label) : List (Option Job) :=
  match lab.own with
  | some (_, l) => s.loop.discarded l
  | none => []

/-- **Step lemma.** -/
theorem step_conserves {s s' : WorkerPool} {lab : Label} {lost : List (Option Job)}
    (hc : s.loop.Conserved lost) (h : s.step lab = some s') :
    s'.loop.Conserved (lost ++ s.discarded lab) := by
  have hcounters (s : Loop) (q : JobQueue) (lost : List (Option Job))
      (hq : q.waiting = s.queue.waiting) (hc : s.Conserved lost) :
      ({ s with queue := q } : Loop).Conserved lost := by
    rw [Loop.Conserved, Loop.places, ← hq] at hc
    exact hc
  cases Step.of_step h with
  | queue l loop hl hstep =>
      have hnil : s.loop.discarded l = [] := by cases l <;> first | rfl | cases hl
      have hstep' := Loop.step_conserves hc hstep
      rw [hnil] at hstep'
      exact hstep'
  | waits lab i l hown status loop hworker hstep hdel =>
      rw [discarded, hown]
      exact Loop.step_conserves hc hstep
  | job lab i l hown status loop hworker hstep job p hdel =>
      rw [discarded, hown]
      exact Loop.step_conserves hc hstep
  | sentinel lab i l hown status loop hworker hstep p hdel =>
      rw [discarded, hown]
      exact hcounters loop _ _ (JobQueue.waiting_taskDone _ _ _) (Loop.step_conserves hc hstep)
  | handled i error now status job hworker =>
      rw [show s.discarded (.handled i error now) = [] from rfl, List.append_nil]
      exact hcounters (s.recordDispatch error.isSome).loop _ _ (JobQueue.waiting_taskDone _ _ _)
        (hcounters s.loop _ _ rfl hc)
  | stop hbefore =>
      rw [show s.discarded .stop = [] from rfl, List.append_nil]
      have hput (n : Nat) (s : Loop) (hc : s.Conserved lost) :
          (s.putSentinels n).Conserved lost := by
        induction n generalizing s with
        | zero => exact hc
        | succ n ih =>
            have hstep := Loop.step_conserves (l := .putRaw) hc rfl
            rw [show s.discarded .putRaw = [] from rfl, List.append_nil] at hstep
            exact ih _ hstep
      exact hput _ _ hc
  | stopReturns hbefore hended =>
      rw [show s.discarded .stopReturns = [] from rfl, List.append_nil]
      exact hc

end WorkerPool

end RubicaBot
