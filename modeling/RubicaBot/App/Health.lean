import RubicaBot.App.Serial
import RubicaBot.Worker.Statistics

/-!
# RubicaBot.App.Health

`GET /health/queue` of `app/main.py`, and that its numbers add up: at any moment of any run
the counters of the collector, the sizes of the queues and the statuses of the workers
account for every job that `enqueue` has accepted.
-/

namespace RubicaBot

open Py Transition

/-- What `health_queue` returns, without the dispatch times. -/
structure HealthReport where
  size : Nat
  highSize : Nat
  normalSize : Nat
  maxSize : Int
  totalEnqueued : Nat
  totalDropped : Nat
  totalDeduped : Nat
  workers : List WorkerStatus
  totalUpdates : Nat
  totalErrors : Nat

namespace App

/-- `health_queue`; `startup` gives the queue its collector. -/
def healthQueue (s : App) : HealthReport :=
  let queue := s.pool.loop.queue
  let stats := queue.stats.getD {}
  { size := queue.size
    highSize := queue.highQueue.items.length
    normalSize := queue.normalQueue.items.length
    maxSize := queue.maxSize
    totalEnqueued := stats.totalEnqueued
    totalDropped := stats.totalDropped
    totalDeduped := stats.totalDeduped
    workers := s.pool.workers.map (·.status)
    totalUpdates := stats.totalUpdates
    totalErrors := stats.totalErrors }

/-- What a step takes out of every place. -/
def discarded (s : App) (lab : Label) : List (Option Job) :=
  match lab.ofWorker with
  | some l => s.pool.discarded l
  | none => []

/-- The invariant behind the report, `lost` being what has been discarded. -/
structure Accounted (s : App) (lost : List (Option Job)) : Prop where
  conserved : s.pool.loop.Conserved lost
  reported : ∃ c, s.pool.Reported c

variable {d : AppSettings} {t₀ : Tables} {s s' : App} {lost : List (Option Job)}

/-- A step of the pool alone. -/
theorem Accounted.pool_step (ha : s.Accounted lost) (hs : s.pool.Sound) {l : WorkerPool.Label}
    {pool : WorkerPool} (hpool : s.pool.step l = some pool) :
    pool.loop.Conserved (lost ++ s.pool.discarded l) ∧ ∃ c, pool.Reported c := by
  obtain ⟨c, hc⟩ := ha.reported
  obtain ⟨c', hc', -⟩ := WorkerPool.step_reported hs hc hpool
  exact ⟨WorkerPool.step_conserves ha.conserved hpool, c', hc'⟩

/-- Only a turn of `get` throws an item away. -/
theorem discarded_of_not_own {l : WorkerPool.Label} (hown : l.own = none) :
    s.pool.discarded l = [] := by
  rw [WorkerPool.discarded, hown]

/-- **Step lemma.** -/
theorem step_accounted (hs : s.Sound d t₀) (ha : s.Accounted lost) {lab : Label}
    (h : s.step d lab = some s') : s'.Accounted (lost ++ s.discarded lab) := by
  cases Step.of_step h with
  | turnedAway r limiter =>
      rw [show s.discarded (.request r) = [] from rfl, List.append_nil]
      exact ⟨ha.conserved, ha.reported⟩
  | enqueue r limiter call hcall pool hpool =>
      obtain ⟨hc, hr⟩ := ha.pool_step hs.pool hpool
      rw [discarded_of_not_own rfl] at hc
      exact ⟨hc, hr⟩
  | pool lab hlab l hown hcall pool hpool =>
      obtain ⟨hc, hr⟩ := ha.pool_step hs.pool hpool
      rw [discarded_of_not_own hown] at hc
      rw [discarded, hlab]
      exact ⟨hc, hr⟩
  | waits l env stats i ql hown pool hpool hdel =>
      obtain ⟨hc, hr⟩ := ha.pool_step hs.pool hpool
      exact ⟨hc, hr⟩
  | dispatch l env stats i ql hown pool hpool job hdel =>
      obtain ⟨hc, hr⟩ := ha.pool_step hs.pool hpool
      exact ⟨hc, hr⟩
  | resumed lab hlab n reply t hthread hreply dispatches hstep =>
      rw [discarded, hlab, List.append_nil]
      exact ⟨ha.conserved, ha.reported⟩
  | janitor now =>
      rw [show s.discarded (.janitor now) = [] from rfl, List.append_nil]
      exact ⟨ha.conserved, ha.reported⟩

/-- A new process has nothing to account for. -/
theorem init_accounted (d : AppSettings) (t₀ : Tables) : (init d t₀).Accounted [] := by
  have hlooping : ∀ w ∈ (init d t₀).pool.workers,
      w.status.processed = 0 ∧ w.phase = .looping := by
    intro w hw
    obtain ⟨i, -, rfl⟩ := List.mem_map.mp hw
    exact ⟨rfl, rfl⟩
  have hprocessed : (init d t₀).pool.processed = 0 := by
    rw [WorkerPool.processed, List.sum_eq_zero_iff]
    intro n hn
    obtain ⟨w, hw, rfl⟩ := List.mem_map.mp hn
    exact (hlooping w hw).1
  have hhandling : (init d t₀).pool.handling = [] := by
    rw [WorkerPool.handling, List.flatMap_eq_nil_iff]
    intro w hw
    rw [(hlooping w hw).2]
    rfl
  have hconserved := Loop.init_conserved (max 1 d.concurrency).toNat d.queueMaxSize
    d.queueFullPolicy d.dedupTtl
  refine ⟨hconserved, {}, rfl, ⟨rfl, rfl, rfl⟩, hprocessed.symm, Nat.le_refl _, ?_⟩
  rw [hhandling]
  rfl

/-- **Run lemma.** -/
theorem run_accounted {ls : List Label} (h : run (step d) (init d t₀) ls = some s) :
    s.Accounted (gather (step d) discarded (init d t₀) ls) := by
  have hrun := run_gather (f := discarded) (I := fun s lost => s.Sound d t₀ ∧ s.Accounted lost)
    (fun _ _ _ _ hs hstep => ⟨step_sound hs.1 hstep, step_accounted hs.1 hs.2 hstep⟩)
    ⟨init_sound d t₀, init_accounted d t₀⟩ h
  exact hrun.2

/-! ## the report -/

/-- The jobs among these items. -/
def jobsIn (items : List (Option Job)) : Nat := items.reduceOption.length

/-- The jobs in the one list and in the other. -/
theorem jobsIn_append (xs ys : List (Option Job)) : jobsIn (xs ++ ys) = jobsIn xs + jobsIn ys := by
  rw [jobsIn, List.reduceOption_append, List.length_append]
  rfl

/-- **The report adds up.**  What the workers say they have processed is the number of
dispatches that are over, and no more errors than that are counted; what is counted as
deduplicated and dropped is what was so decided or evicted; and what is counted as enqueued
is what has been processed, is being handled, waits in one of the two queues or at a
suspended `get`, was evicted, drained, or thrown away by a `get` that took two items. -/
theorem health_adds_up {ls : List Label} (h : run (step d) (init d t₀) ls = some s) :
    s.healthQueue.totalUpdates = (s.healthQueue.workers.map (·.processed)).sum ∧
      (s.starts.filterMap Start.job?).length =
        s.healthQueue.totalUpdates + s.pool.handling.length ∧
      s.healthQueue.totalErrors ≤ s.healthQueue.totalUpdates ∧
      s.healthQueue.totalDeduped = s.pool.loop.duplicateCalls.length ∧
      s.healthQueue.totalDropped =
        s.pool.loop.droppedCalls.length + s.pool.loop.evicted.length ∧
      s.healthQueue.highSize + s.healthQueue.normalSize = s.pool.loop.queue.waiting.length ∧
      s.healthQueue.totalEnqueued =
        s.healthQueue.totalUpdates + s.pool.handling.length +
          jobsIn s.pool.loop.queue.waiting + jobsIn s.pool.loop.held +
          jobsIn s.pool.loop.evicted + jobsIn s.pool.loop.drained +
          jobsIn (gather (step d) discarded (init d t₀) ls) := by
  obtain ⟨hconserved, c, hr⟩ := run_accounted h
  have hs := run_sound h
  have hstats : s.pool.loop.queue.stats.getD {} = c := by rw [hr.stats]; rfl
  refine ⟨?_, ?_, ?_, ?_, ?_, ?_, ?_⟩
  · simp only [healthQueue, hstats, List.map_map]
    exact hr.updates
  · rw [hs.passed, hr.received]
    simp only [healthQueue, hstats]
  · simp only [healthQueue, hstats]
    exact hr.errors
  · simp only [healthQueue, hstats]
    exact hr.booked.deduped
  · simp only [healthQueue, hstats]
    exact hr.booked.dropped
  · rw [JobQueue.waiting, List.length_append]
    rfl
  · have haccepted : s.pool.loop.acceptedJobs.length = c.totalEnqueued := by
      rw [Loop.acceptedJobs, List.length_map]
      exact hr.booked.enqueued.symm
    have hreturned : jobsIn s.pool.loop.returned = c.totalUpdates + s.pool.handling.length := by
      rw [jobsIn, hs.pool.passed, hr.received]
    have hlength : jobsIn s.pool.loop.puts = _ := (hconserved.filterMap id).length_eq
    rw [jobsIn, hs.supplied.accepted, haccepted] at hlength
    simp only [healthQueue, hstats]
    rw [hlength]
    show jobsIn (s.pool.loop.places ++ gather (step d) discarded (init d t₀) ls) = _
    rw [Loop.places, jobsIn_append, jobsIn_append, jobsIn_append, jobsIn_append, jobsIn_append,
      hreturned]
    omega

theorem health_adds_up_ping :
    ∃ s, run (step pingSettings) (init pingSettings { rules := {} }) pingRun = some s ∧
      s.healthQueue.totalUpdates = (s.healthQueue.workers.map (·.processed)).sum := by
  have hrun := (Option.some_get pingRun_isSome).symm
  exact ⟨_, hrun, (health_adds_up hrun).1⟩

end App

end RubicaBot
