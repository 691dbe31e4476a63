import RubicaBot.Worker

/-!
# RubicaBot.Worker.Shutdown

When `stop` returns, which of the jobs accepted before it have been handled?

The sentinels go into the high queue behind the high jobs, so a sentinel that
reaches a worker has let every high job of the backlog pass.  The normal jobs
have no such protection: `get` prefers the high queue, so a sentinel overtakes
them.  `Safe` is the condition that this does no harm: the sentinel that ends
the last worker finds no normal job of the backlog waiting (and no `get` resumes
with both of its child tasks done).  In runs that keep it, whatever was accepted
before `stop` has been passed to the handler, evicted or drained.
-/

namespace RubicaBot

open Transition

namespace Loop

/-- What is put, accepted or accounted for does not depend on the counters. -/
theorem Open.of_waiting {s : Loop} (ho : s.Open) {q : JobQueue}
    (hq : q.waiting = s.queue.waiting) : ({ s with queue := q } : Loop).Open := by
  refine ⟨?_, ho.puts⟩
  have hc := ho.conserved
  rw [Conserved, places, ← hq] at hc
  exact hc

/-- Only the items of the queue matter. -/
theorem Carries.of_items {s : Loop} {accepted : List Job} {high normal : List (Option Job)}
    (hc : s.Carries accepted high normal) {q : JobQueue}
    (hq : ∀ p, (q.queue p).items = (s.queue.queue p).items) :
    ({ s with queue := q } : Loop).Carries accepted high normal := by
  refine ⟨?_, ?_, hc.noSentinel, hc.known, hc.overtaken, hc.covered⟩
  · exact (hq .high) ▸ hc.highFront
  · exact (hq .normal) ▸ hc.normalFront

/-- The sentinels come after the jobs that are there. -/
theorem putSentinels_carries (n : Nat) {s : Loop} {accepted : List Job}
    {high normal : List (Option Job)} (hc : s.Carries accepted high normal) :
    (s.putSentinels n).Carries accepted high normal := by
  induction n generalizing s with
  | zero => exact hc
  | succ n ih =>
      exact ih ⟨hc.highFront.trans (List.prefix_append _ _), hc.normalFront, hc.noSentinel,
        hc.known, hc.overtaken, hc.covered⟩

/-- Before any sentinel is put, none is returned. -/
theorem Open.none_not_mem_returned {s : Loop} (ho : s.Open) : none ∉ s.returned := by
  intro hmem
  have hput : none ∈ s.puts := by
    refine ho.conserved.mem_iff.mpr ?_
    simp [places, hmem]
  rw [ho.puts] at hput
  simp at hput

end Loop

namespace WorkerPool

/-! ## the condition on steps -/

/-- Worker `i` is the last one that has not ended. -/
def LastOne (s : WorkerPool) (i : Nat) : Prop :=
  ∀ j w, j ≠ i → s.workers[j]? = some w → w.phase.ended = true

/-- A job accepted before `stop` waits in the normal queue. -/
def BacklogWaits (s : WorkerPool) : Prop :=
  ∃ accepted ∈ s.acceptedBefore, ∃ job ∈ accepted, some job ∈ s.loop.queue.normalQueue.items

/-- No `get` resumes with both child tasks done, and the last worker does not
receive its sentinel before the normal jobs of the backlog. -/
def Safe (s : WorkerPool) (lab : Label) : Prop :=
  ∀ i l, lab.own = some (i, l) → s.loop.NoDoubleTake l ∧
    ((∃ p, s.loop.delivers l = some (none, p)) → s.LastOne i → ¬ s.BacklogWaits)

/-! ## the invariant -/

/-- Every worker has ended. -/
def AllEnded (s : WorkerPool) : Prop := ∀ w ∈ s.workers, w.phase.ended = true

/-- Until `stop` is called every accepted job is accounted for; from then on the
backlog is carried by prefixes of the queues, the normal one empty when every
worker has ended. -/
structure Kept (s : WorkerPool) : Prop where
  staffed : s.workers ≠ []
  before : s.acceptedBefore = none → s.loop.Open
  after : ∀ accepted, s.acceptedBefore = some accepted → ∃ high normal,
    s.loop.Carries accepted high normal ∧ (s.AllEnded → normal = [])
  returned : s.stopped = true → s.acceptedBefore.isSome = true ∧ s.AllEnded

/-- There are still workers. -/
theorem set_ne_nil {i : Nat} {ws : List Worker} {w : Worker} (h : ws ≠ []) : ws.set i w ≠ [] := by
  rwa [Ne, List.set_eq_nil_iff]

/-- While a worker that has not ended is replaced by another such one, not every
worker has ended. -/
theorem not_all_ended_set {ws : List Worker} {i : Nat} {w w' : Worker} (h : ws[i]? = some w)
    (hended : w'.phase.ended = false) : ¬ ∀ v ∈ ws.set i w', v.phase.ended = true := by
  intro hall
  obtain ⟨hi, -⟩ := List.getElem?_eq_some_iff.mp h
  have hmem := hall w' (List.mem_set hi w')
  rw [hended] at hmem
  cases hmem

/-- `stop` has not returned while a worker goes on. -/
theorem Kept.not_stopped {s : WorkerPool} (hk : s.Kept) {i : Nat} {w : Worker}
    (h : s.workers[i]? = some w) (hended : w.phase.ended = false) : s.stopped = false := by
  rw [← Bool.not_eq_true]
  intro hstop
  have hall := (hk.returned hstop).2 w (List.mem_of_getElem? h)
  rw [hended] at hall
  cases hall

/-- The queue's part of a step keeps the account. -/
theorem Kept.loop_step {s : WorkerPool} (hs : s.Sound) (hk : s.Kept) {l : RubicaBot.Label}
    {loop : Loop} (hput : l ≠ .putRaw) (hno : s.loop.NoDoubleTake l)
    (hstep : s.loop.step l = some loop) :
    (s.acceptedBefore = none → loop.Open) ∧
      ∀ accepted, s.acceptedBefore = some accepted → ∃ high normal n m,
        s.loop.Carries accepted high normal ∧ (s.AllEnded → normal = []) ∧
          loop.Carries accepted (high.drop n) (normal.drop m) := by
  refine ⟨fun hbefore => Loop.step_open (hk.before hbefore) hput hno hstep, ?_⟩
  intro accepted haccepted
  obtain ⟨high, normal, hc, hended⟩ := hk.after accepted haccepted
  obtain ⟨n, m, hc'⟩ := Loop.step_carries hc (hs.covers.queue.belongs .normal) hno hstep
  exact ⟨high, normal, n, m, hc, hended, hc'⟩

/-- In a pool in which every worker has ended, one of them has received its sentinel. -/
theorem Sound.none_mem_returned {s : WorkerPool} (hs : s.Sound) (hstaffed : s.workers ≠ [])
    (hall : s.AllEnded) : none ∈ s.loop.returned := by
  obtain ⟨w, ws, hws⟩ := List.exists_cons_of_ne_nil hstaffed
  have hw : w ∈ s.workers := hws ▸ List.mem_cons_self
  have hexited : w.phase = .exited := by
    have hended := hall w hw
    have halive := hs.alive w hw
    cases hphase : w.phase <;> simp_all [WorkerPhase.ended]
  exact hs.received w hw hexited

/-- **Step lemma.** -/
theorem step_kept {s s' : WorkerPool} {lab : Label} (hs : s.Sound) (hk : s.Kept)
    (hsafe : s.Safe lab) (h : s.step lab = some s') : s'.Kept := by
  cases Step.of_step h with
  | queue l loop hl hstep =>
      have hput : l ≠ .putRaw := by rintro rfl; cases hl
      have hno : s.loop.NoDoubleTake l := by cases l <;> trivial
      obtain ⟨hopen, hcarries⟩ := hk.loop_step hs hput hno hstep
      refine ⟨hk.staffed, hopen, fun accepted haccepted => ?_, hk.returned⟩
      obtain ⟨high, normal, n, m, -, hended, hc'⟩ := hcarries accepted haccepted
      exact ⟨_, _, hc', fun hall => by rw [hended hall, List.drop_nil]⟩
  | waits lab i l hown status loop hworker hstep hdel =>
      have hput : l ≠ .putRaw := by rintro rfl; cases Label.caller_of_own hown
      obtain ⟨hopen, hcarries⟩ := hk.loop_step hs hput (hsafe i l hown).1 hstep
      refine ⟨hk.staffed, hopen, fun accepted haccepted => ?_, hk.returned⟩
      obtain ⟨high, normal, n, m, -, hended, hc'⟩ := hcarries accepted haccepted
      exact ⟨_, _, hc', fun hall => by rw [hended hall, List.drop_nil]⟩
  | job lab i l hown status loop hworker hstep job p hdel =>
      have hput : l ≠ .putRaw := by rintro rfl; cases Label.caller_of_own hown
      obtain ⟨hopen, hcarries⟩ := hk.loop_step hs hput (hsafe i l hown).1 hstep
      refine ⟨set_ne_nil hk.staffed, hopen, fun accepted haccepted => ?_, fun hstop => ?_⟩
      · obtain ⟨high, normal, n, m, -, -, hc'⟩ := hcarries accepted haccepted
        exact ⟨_, _, hc', fun hall => absurd hall (not_all_ended_set hworker rfl)⟩
      · exact absurd hstop (by simp [hk.not_stopped hworker rfl])
  | sentinel lab i l hown status loop hworker hstep p hdel =>
      have hput : l ≠ .putRaw := by rintro rfl; cases Label.caller_of_own hown
      obtain ⟨hno, hlast⟩ := hsafe i l hown
      obtain ⟨hopen, hcarries⟩ := hk.loop_step hs hput hno hstep
      refine ⟨set_ne_nil hk.staffed, fun hbefore => (hopen hbefore).of_waiting (by simp),
        fun accepted haccepted => ?_, fun hstop => ?_⟩
      · obtain ⟨high, normal, n, m, hc, -, hc'⟩ := hcarries accepted haccepted
        refine ⟨_, _, hc'.of_items fun p => by simp, fun hall => ?_⟩
        -- every other worker has ended, so no job of the backlog waits
        have hothers : s.LastOne i := by
          intro j w hj hw
          refine hall w (List.mem_of_getElem? (i := j) ?_)
          rw [workers_taskDone_ne _ hj, hw]
        have hnormal : normal = [] := by
          rw [List.eq_nil_iff_forall_not_mem]
          intro item hitem
          obtain ⟨job, hjob, rfl⟩ := hc.known item hitem
          exact hlast ⟨p, hdel⟩ hothers
            ⟨accepted, haccepted, job, hjob, hc.normalFront.subset hitem⟩
        rw [hnormal, List.drop_nil]
      · exact absurd hstop (by simp [taskDone, hk.not_stopped hworker rfl])
  | handled i error now status job hworker =>
      have hbusy : ¬ (((s.recordDispatch error.isSome).taskDone i (some job)
          ⟨finished status error now, .looping⟩).AllEnded) := by
        intro hall
        obtain ⟨w', hw', hnext⟩ := mem_workers_taskDone (s := s.recordDispatch error.isSome) hworker
          (some job) ⟨finished status error now, .looping⟩
        have hended := hall w' hw'
        rcases hnext with rfl | hcrashed
        · cases hended
        · exact (step_sound hs h).alive w' hw' hcrashed
      refine ⟨set_ne_nil hk.staffed, fun hbefore => ?_, fun accepted haccepted => ?_,
        fun hstop => ?_⟩
      · have hrecord := (hk.before hbefore).of_waiting
          (q := s.loop.queue.record (·.recordDispatch error.isSome)) rfl
        exact hrecord.of_waiting (JobQueue.waiting_taskDone _ _ _)
      · obtain ⟨high, normal, hc, -⟩ := hk.after accepted haccepted
        have hrecord := hc.of_items (q := s.loop.queue.record (·.recordDispatch error.isSome))
          fun p => by cases p <;> rfl
        exact ⟨high, normal, hrecord.of_items fun p => by simp [recordDispatch], fun hall =>
          absurd hall hbusy⟩
      · exact absurd hstop (by simp [taskDone, recordDispatch, hk.not_stopped hworker rfl])
  | stop hbefore =>
      have hopen := hk.before hbefore
      refine ⟨hk.staffed, fun hnone => ?_, fun accepted haccepted => ?_, fun hstop => ?_⟩
      · cases hnone
      · cases haccepted
        refine ⟨_, _, Loop.putSentinels_carries _ hopen.carries, fun hall => ?_⟩
        -- some worker has left its loop, but no sentinel has been put yet
        exact absurd (hs.none_mem_returned hk.staffed hall) hopen.none_not_mem_returned
      · have hsome := (hk.returned hstop).1
        rw [hbefore] at hsome
        cases hsome
  | stopReturns hbefore hended =>
      exact ⟨hk.staffed, hk.before, hk.after, fun _ => ⟨hbefore, List.all_eq_true.mp hended⟩⟩

/-- How often a job occurs among the items. -/
theorem count_reduceOption {α : Type} [BEq α] (a : α) (xs : List (Option α)) :
    xs.reduceOption.count a = xs.countP fun x => x.any (· == a) := by
  rw [List.reduceOption, List.count, List.countP_filterMap]
  congr 1
  funext x
  cases x <;> rfl

/-- In a new pool `stop` has not been called. -/
theorem init_kept (concurrency maxSize : Int) (fullPolicy : String) (ttl : ℚ) :
    (init concurrency maxSize fullPolicy ttl).Kept := by
  refine ⟨?_, fun _ => Loop.init_open _ _ _ _, nofun, nofun⟩
  have hpos : (max 1 concurrency).toNat ≠ 0 := by omega
  simp [init, hpos]

/-- A pool in which every worker has ended holds no item. -/
theorem Sound.held_eq_nil {s : WorkerPool} (hs : s.Sound) (hall : s.AllEnded) :
    s.loop.held = [] := by
  rw [Loop.held, List.flatMap_eq_nil_iff]
  intro g hg
  obtain ⟨i, hi, hget⟩ := List.getElem_of_mem hg
  obtain ⟨w, hw⟩ : ∃ w, s.workers[i]? = some w :=
    ⟨_, List.getElem?_eq_getElem (hs.tasks ▸ hi)⟩
  have hphase : w.phase ≠ .looping := by
    intro hlooping
    have hended := hall w (List.mem_of_getElem? hw)
    rw [hlooping] at hended
    cases hended
  have hidle := hs.idle i w hw hphase g (by rw [List.getElem?_eq_getElem hi, hget]; rfl)
  rw [hidle]
  rfl

/-- **Graceful shutdown.**  For any number of workers, in every safe run: when
`stop` has returned, every job accepted before it was called has been passed to
the handler, evicted or drained. -/
theorem accepted_handled_of_safe {concurrency maxSize : Int} {fullPolicy : String} {ttl : ℚ}
    {ls : List Label} {s : WorkerPool}
    (hsafe : Along step Safe (init concurrency maxSize fullPolicy ttl) ls)
    (h : run step (init concurrency maxSize fullPolicy ttl) ls = some s)
    (hstopped : s.stopped = true) :
    ∃ accepted, s.acceptedBefore = some accepted ∧
      accepted.Subperm
        (s.passed ++ s.loop.evicted.reduceOption ++ s.loop.drained.reduceOption) := by
  obtain ⟨hs, hk⟩ := run_invariant (I := fun s => s.Sound ∧ s.Kept)
    (fun _ _ _ hI hP hstep => ⟨step_sound hI.1 hstep, step_kept hI.1 hI.2 hP hstep⟩)
    ⟨init_sound concurrency maxSize fullPolicy ttl, init_kept concurrency maxSize fullPolicy ttl⟩
    hsafe h
  obtain ⟨hsome, hall⟩ := hk.returned hstopped
  obtain ⟨accepted, haccepted⟩ := Option.isSome_iff_exists.mp hsome
  obtain ⟨high, normal, hc, hnormal⟩ := hk.after accepted haccepted
  have hheld := hs.held_eq_nil hall
  refine ⟨accepted, haccepted, ?_⟩
  -- some worker has received its sentinel, so the high backlog is gone too
  have hhigh : high = [] := by
    refine hc.overtaken ?_
    have hpos : 0 < s.loop.returned.countP Option.isNone :=
      List.countP_pos_iff.mpr ⟨none, hs.none_mem_returned hk.staffed hall, rfl⟩
    rw [Loop.elsewhere]
    omega
  classical
  refine List.subperm_ext_iff.mpr fun job _ => ?_
  have hcov := hc.covered fun item => item.any (· == job)
  rw [hhigh, hnormal hall, Loop.elsewhere, hheld, List.countP_map] at hcov
  simp only [List.count_append, ← hs.passed, count_reduceOption]
  simpa [List.count, Function.comp_def] using hcov

/-! ### a sentinel overtakes a normal job -/

/-- The only worker is busy with a first job when a second one is accepted and
`stop` is called; then it receives the sentinel. -/
def overtakenRun : List Label :=
  [.queue (.enqueue { jobId := "first", receivedAt := 0 } 0), .queue (.lockAcquired 0), .get 0,
    .queue (.enqueue { jobId := "second", receivedAt := 0 } 0), .queue (.lockAcquired 0), .stop,
    .handled 0 none 1, .get 0, .stopReturns]

theorem overtakenRun_isSome : (run step (init 1 10 "reject" 60) overtakenRun).isSome := by
  decide +kernel

/-- `stop` has returned and the second job is lost. -/
theorem overtakenRun_loses_job :
    ∃ s, run step (init 1 10 "reject" 60) overtakenRun = some s ∧ s.stopped = true ∧
      ∀ accepted ∈ s.acceptedBefore, ¬ accepted.Subperm
        (s.passed ++ s.loop.evicted.reduceOption ++ s.loop.drained.reduceOption) := by
  refine ⟨_, (Option.some_get overtakenRun_isSome).symm, by decide +kernel, ?_⟩
  intro accepted haccepted hsub
  have hle := hsub.length_le
  rw [Option.mem_def] at haccepted
  have hlen : (Option.map List.length ((run step (init 1 10 "reject" 60) overtakenRun).get
      overtakenRun_isSome).acceptedBefore) = some 2 := by decide +kernel
  rw [haccepted, Option.map_some, Option.some.injEq] at hlen
  rw [hlen] at hle
  revert hle
  decide +kernel

/-! ### workers that find nothing waiting -/

/-- No `get` resumes, and a sentinel is handed out only while the normal queue is
empty: more than `Safe` asks for, and decided by computation. -/
def calm (s : WorkerPool) : Label → Bool
  | .get i =>
      match s.loop.delivers (.get i) with
      | some (none, _) => s.loop.queue.normalQueue.empty
      | _ => true
  | .resume _ _ => false
  | _ => true

/-- A sentinel that is taken while no normal job waits overtakes none. -/
theorem safe_of_calm {s : WorkerPool} {lab : Label} (h : s.calm lab = true) : s.Safe lab := by
  intro i l hown
  cases lab with
  | get j =>
      cases hown
      refine ⟨trivial, ?_⟩
      rintro ⟨p, hp⟩ - ⟨accepted, -, job, -, hmem⟩
      simp only [calm, hp, AsyncQueue.empty, List.isEmpty_iff] at h
      rw [h] at hmem
      exact List.not_mem_nil hmem
  | resume j winner => cases h
  | _ => cases hown

/-- Two workers handle a normal and a high job before `stop` is called. -/
def calmRun : List Label :=
  [.queue (.enqueue { jobId := "first", receivedAt := 0 } 0), .queue (.lockAcquired 0), .get 0,
    .queue (.enqueue { jobId := "second", receivedAt := 0, priority := .high } 0),
    .queue (.lockAcquired 0), .get 1, .stop, .handled 0 none 1, .get 0,
    .handled 1 (some ("timeout", 1)) 2, .get 1, .stopReturns]

theorem calmRun_isSome : (run step (init 2 10 "reject" 60) calmRun).isSome := by decide +kernel

theorem calmRun_loses_nothing :
    ∃ s, run step (init 2 10 "reject" 60) calmRun = some s ∧
      ∃ accepted, s.acceptedBefore = some accepted ∧
        accepted.Subperm
          (s.passed ++ s.loop.evicted.reduceOption ++ s.loop.drained.reduceOption) := by
  have hcalm : Along step (fun s lab => s.calm lab = true) (init 2 10 "reject" 60) calmRun := by
    decide +kernel
  have hrun := (Option.some_get calmRun_isSome).symm
  exact ⟨_, hrun, accepted_handled_of_safe (hcalm.mono fun _ _ => safe_of_calm) hrun
    (by decide +kernel)⟩

end WorkerPool

end RubicaBot
