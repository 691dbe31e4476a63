import RubicaBot.Worker.Shutdown
import RubicaBot.Worker.Statistics

/-!
# RubicaBot.Worker.Rest

The pool comes to rest.

Between two things that come from outside, a request or a call of `stop` or `drain`, the
coroutines of the queue and the workers take turns.  Each turn lowers the `effort` that is
left, so there are only finitely many; and when no turn is left, every call of `get` that
has not returned waits on two empty queues, and nobody waits for the lock.
-/

namespace RubicaBot

open Transition

/-- A turn of a coroutine of the queue. -/
def Label.isTurn : Label → Bool
  | .lockAcquired _ => true
  | .childTakes _ _ => true
  | .get _ => true
  | .resume _ _ => true
  | _ => false

/-- A task that is about to call `get` has that call left. -/
def GetPhase.weight : GetPhase → Nat
  | .idle => 1
  | .waiting _ _ => 0

namespace JobQueue

/-- The critical section of `enqueue` adds one item at most. -/
theorem length_waiting_enqueueLocked (q : JobQueue) (job : Job) :
    (q.enqueueLocked job).2.waiting.length ≤ q.waiting.length + 1 := by
  have hcount := Loop.countP_enqueueLocked q job fun _ => true
  have hput : ((q.enqueueEvents job).filterMap Event.put?).length ≤ 1 := by
    rw [q.enqueueEvents_put]
    split
    · exact Nat.le_refl 1
    · exact Nat.zero_le 1
  simp only [List.countP_true] at hcount
  omega

end JobQueue

namespace Loop

/-- An item waiting for the lock may have to be put, taken by a child task and returned. -/
def effort (s : Loop) : Nat :=
  5 * s.lockWaiters.length + 4 * s.queue.waiting.length + 3 * s.held.length +
    (s.getters.map (·.phase.weight)).sum

/-- Replacing a task exchanges what it holds and what it has left. -/
theorem held_set {s : Loop} {i : Nat} {g : Getter} (h : s.getters[i]? = some g) (g' : Getter) :
    ((s.getters.set i g').flatMap fun g => g.phase.held).length + g.phase.held.length =
      s.held.length + g'.phase.held.length := by
  have hcount := countP_flatMap_set (fun _ => true) (fun g : Getter => g.phase.held) (y := g') h
  simpa only [List.countP_true, held] using hcount

/-- One caller of `get` changes, and with it the weight of its phase. -/
theorem weight_set {s : Loop} {i : Nat} {g : Getter} (h : s.getters[i]? = some g) (g' : Getter) :
    ((s.getters.set i g').map (·.phase.weight)).sum + g.phase.weight =
      (s.getters.map (·.phase.weight)).sum + g'.phase.weight :=
  sum_map_set (fun g : Getter => g.phase.weight) h g'

/-- **Step lemma.**  A turn lowers the effort, by two if `get` returns. -/
theorem step_effort {s s' : Loop} {l : Label} (hl : l.isTurn = true) (h : s.step l = some s') :
    s'.effort + (s.delivers l).toList.length < s.effort := by
  cases Step.of_step h with
  | locked i call hcall =>
      obtain ⟨hi, -⟩ := List.getElem?_eq_some_iff.mp hcall
      have hwaiting := s.queue.length_waiting_enqueueLocked call.job
      have hlock := List.length_eraseIdx_add_one hi
      simp only [effort, held, delivers, Option.toList_none, List.length_nil]
      omega
  | getReady i lastQueue item p q hgetter hready =>
      obtain ⟨m, htake, rfl, -⟩ := JobQueue.getReady_eq_some hready
      have hwaiting := (JobQueue.waiting_takeFrom htake).length_eq
      have hheld := held_set hgetter ⟨.idle, some p⟩
      have hweight := weight_set hgetter ⟨.idle, some p⟩
      simp only [effort, held, delivers, hready, Option.map_some, Option.toList_some,
        List.length_cons, List.length_nil, JobQueue.waiting_decremented] at hwaiting hheld hweight ⊢
      omega
  | getWait i lastQueue hgetter hready =>
      have hheld := held_set hgetter ⟨.waiting .pending .pending, lastQueue⟩
      have hweight := weight_set hgetter ⟨.waiting .pending .pending, lastQueue⟩
      simp only [effort, held, delivers, hready, Option.map_none, Option.toList_none,
        List.length_nil, GetPhase.held, ChildTask.held, GetPhase.weight, List.append_nil]
        at hheld hweight ⊢
      omega
  | childTakes i p phase lastQueue item q hgetter htask htake =>
      have hwaiting := (JobQueue.waiting_takeFrom htake).length_eq
      have hcomplete := (GetPhase.held_complete item htask).length_eq
      have hheld := held_set hgetter ⟨phase.complete p item, lastQueue⟩
      have hweight := weight_set hgetter ⟨phase.complete p item, lastQueue⟩
      have hsame : (phase.complete p item).weight = phase.weight := by
        cases phase with
        | idle => rfl
        | waiting highTask normalTask => cases p <;> rfl
      simp only [effort, held, delivers, Option.toList_none, List.length_cons, List.length_nil]
        at hwaiting hcomplete hheld hweight ⊢
      omega
  | resume i winner phase lastQueue item hgetter htask =>
      have hloser := (GetPhase.held_perm_loser htask).length_eq
      have hheld := held_set hgetter ⟨.idle, some winner⟩
      have hweight := weight_set hgetter ⟨.idle, some winner⟩
      have hidle : GetPhase.idle.weight = 1 := rfl
      simp only [effort, held, delivers, hgetter, htask, Option.toList_some, List.length_cons,
        List.length_nil, GetPhase.held, JobQueue.waiting_decremented] at hloser hheld hweight ⊢
      omega
  | duplicate | fresh | putRaw | dropOldest | drain | taskDone => cases hl

/-! ## when no turn is left -/

/-- If no `enqueue` can get the lock, nobody waits for it. -/
theorem lockWaiters_of_stuck {s : Loop} (h : s.step (.lockAcquired 0) = none) :
    s.lockWaiters = [] := by
  cases hwaiters : s.lockWaiters with
  | nil => rfl
  | cons call calls => simp only [step, hwaiters, List.getElem?_cons_zero, reduceCtorEq] at h

/-- If neither a `get` nor its child tasks can go on, it waits for both of them, and they
wait on empty queues. -/
theorem getter_of_stuck {s : Loop} {i : Nat} {g : Getter} (hg : s.getters[i]? = some g)
    (hget : s.step (.get i) = none) (hresume : ∀ p, s.step (.resume i p) = none)
    (htakes : ∀ p, s.step (.childTakes i p) = none) :
    g.phase.held = [] ∧ s.queue.waiting = [] := by
  obtain ⟨phase, lastQueue⟩ := g
  cases phase with
  | idle =>
      simp only [step, hg] at hget
      split at hget <;> cases hget
  | waiting highTask normalTask =>
      have hpending : ∀ p item,
          (GetPhase.waiting highTask normalTask).task p ≠ some (.done item) := by
        intro p item htask
        have hnone := hresume p
        simp only [step, hg, htask, reduceCtorEq] at hnone
      have hempty : ∀ p, (GetPhase.waiting highTask normalTask).task p = some .pending →
          (s.queue.queue p).items = [] := by
        intro p htask
        have hnone := htakes p
        simp only [step, hg, htask] at hnone
        cases htake : s.queue.takeFrom p with
        | none => exact (JobQueue.takeFrom_eq_none_iff _ _).mp htake
        | some r =>
            rw [htake] at hnone
            cases hnone
      cases highTask with
      | done item => exact absurd rfl (hpending .high item)
      | pending =>
          cases normalTask with
          | done item => exact absurd rfl (hpending .normal item)
          | pending =>
              exact ⟨rfl, List.append_eq_nil_iff.mpr ⟨hempty .high rfl, hempty .normal rfl⟩⟩

/-! ## the sentinels -/

/-- Only `put_raw` puts one. -/
theorem step_puts_none {s s' : Loop} {l : Label} (hl : l ≠ .putRaw) (h : s.step l = some s') :
    s'.puts.countP Option.isNone = s.puts.countP Option.isNone := by
  simp only [puts]
  cases Step.of_step h with
  | locked i call hcall =>
      simp only [List.filterMap_cons, List.filterMap_append, Event.put?,
        JobQueue.enqueueEvents_put, List.countP_append]
      split <;> simp
  | putRaw => exact absurd rfl hl
  | dropOldest => rw [List.filterMap_append, Event.put_evicted, List.nil_append]
  | drain => rw [List.filterMap_append, Event.put_drained, List.nil_append]
  | _ => rfl

/-- `stop` puts as many sentinels as it says. -/
theorem putSentinels_puts_none (n : Nat) (s : Loop) :
    (s.putSentinels n).puts.countP Option.isNone = s.puts.countP Option.isNone + n := by
  induction n generalizing s with
  | zero => rfl
  | succ n ih =>
      rw [putSentinels, ih, puts, List.filterMap_cons, Event.put?]
      simp only [List.countP_cons, Option.isNone_none, if_true, puts]
      omega

end Loop

namespace WorkerPhase

/-- What a worker has left to do with its job, and to call `get` after it. -/
def weight : WorkerPhase → Nat
  | .handling _ => 2
  | .looping => 1
  | _ => 0

end WorkerPhase

namespace WorkerPool

/-- A turn of a coroutine of the queue, or of a worker that calls it. -/
def Label.isTurn : Label → Bool
  | .queue l => l.isTurn
  | .get _ => true
  | .resume _ _ => true
  | _ => false

/-- The effort of the queue and of the workers. -/
def effort (s : WorkerPool) : Nat := s.loop.effort + (s.workers.map (·.phase.weight)).sum

/-- One worker changes, and with it the weight of its phase. -/
theorem workerWeight_set {s : WorkerPool} {i : Nat} {w : Worker} (h : s.workers[i]? = some w)
    (w' : Worker) : ((s.workers.set i w').map (·.phase.weight)).sum + w.phase.weight =
      (s.workers.map (·.phase.weight)).sum + w'.phase.weight :=
  sum_map_set (fun w : Worker => w.phase.weight) h w'

/-- `task_done` and the statistics move no item. -/
theorem effort_of_waiting (s : Loop) {q : JobQueue} (hq : q.waiting = s.queue.waiting) :
    ({ s with queue := q } : Loop).effort = s.effort := by
  simp only [Loop.effort, Loop.held, hq]

/-- The steps of `get` are turns of the event loop. -/
theorem isTurn_of_own {lab : Label} {i : Nat} {l : RubicaBot.Label} (h : lab.own = some (i, l)) :
    l.isTurn = true := by
  cases lab <;> cases h <;> rfl

/-- **Step lemma.**  A turn, and the end of a dispatch, lower the effort. -/
theorem step_effort {s s' : WorkerPool} {lab : Label} (hs : s.Sound)
    (hlab : lab.isTurn = true ∨ ∃ i error now, lab = .handled i error now)
    (h : s.step lab = some s') : s'.effort < s.effort := by
  have hs' := step_sound hs h
  cases Step.of_step h with
  | queue l loop hl hstep =>
      have hturn : l.isTurn = true := by
        obtain hturn | ⟨i, error, now, heq⟩ := hlab
        · exact hturn
        · cases heq
      have hlt := Loop.step_effort hturn hstep
      simp only [effort]
      omega
  | waits lab i l hown status loop hworker hstep hdel =>
      have hlt := Loop.step_effort (isTurn_of_own hown) hstep
      simp only [effort]
      omega
  | job lab i l hown status loop hworker hstep job p hdel =>
      have hlt := Loop.step_effort (isTurn_of_own hown) hstep
      have hweight := workerWeight_set hworker ⟨status, .handling job⟩
      simp only [effort, hdel, WorkerPhase.weight, Option.toList_some, List.length_cons,
        List.length_nil] at hlt hweight ⊢
      omega
  | sentinel lab i l hown status loop hworker hstep p hdel =>
      have hlt := Loop.step_effort (isTurn_of_own hown) hstep
      have hraises := not_raises_of_sound (s := { s with loop := loop }) hworker hs'
      have hweight := workerWeight_set hworker ⟨{ status with alive := false }, .exited⟩
      rw [taskDone_eq _ hraises]
      simp only [effort, effort_of_waiting _ (JobQueue.waiting_taskDone _ _ _), WorkerPhase.weight]
        at hweight ⊢
      omega
  | handled i error now status job hworker =>
      have hraises := not_raises_of_sound (s := s.recordDispatch error.isSome) hworker hs'
      have hweight := workerWeight_set hworker ⟨finished status error now, .looping⟩
      have hdone := effort_of_waiting (s.recordDispatch error.isSome).loop
        (JobQueue.waiting_taskDone (s.recordDispatch error.isSome).loop.queue (some job)
          ((s.recordDispatch error.isSome).loop.lastQueue i))
      have hrecorded : (s.recordDispatch error.isSome).loop.effort = s.loop.effort :=
        effort_of_waiting s.loop rfl
      have hworkers : (s.recordDispatch error.isSome).workers = s.workers := rfl
      rw [taskDone_eq _ hraises, effort, hdone, hrecorded, effort]
      simp only [WorkerPhase.weight, hworkers] at hweight ⊢
      exact Nat.add_lt_add_left (by omega) _
  | stop | stopReturns =>
      obtain hturn | ⟨i, error, now, heq⟩ := hlab
      · cases hturn
      · cases heq

/-! ## the sentinels -/

/-- `stop` puts one sentinel for each worker, and a worker that has ended has received one. -/
structure Dismissed (s : WorkerPool) : Prop where
  staffed : s.workers ≠ []
  put : s.loop.puts.countP Option.isNone = if s.acceptedBefore.isSome then s.workers.length else 0
  received : s.loop.returned.countP Option.isNone = s.workers.countP (·.phase.ended)

/-- A worker that goes on may be one more that has ended. -/
theorem countP_ended_set {s : WorkerPool} {i : Nat} {w : Worker} (h : s.workers[i]? = some w)
    (hended : w.phase.ended = false) (w' : Worker) :
    (s.workers.set i w').countP (·.phase.ended) =
      s.workers.countP (·.phase.ended) + if w'.phase.ended then 1 else 0 := by
  obtain ⟨hi, hget⟩ := List.getElem?_eq_some_iff.mp h
  rw [List.countP_set hi, hget, hended]
  rfl

/-- **Step lemma.** -/
theorem step_dismissed {s s' : WorkerPool} {lab : Label} (hs : s.Sound) (hd : s.Dismissed)
    (h : s.step lab = some s') : s'.Dismissed := by
  have hs' := step_sound hs h
  have hput {l : RubicaBot.Label} {loop : Loop} (hl : l ≠ .putRaw)
      (hstep : s.loop.step l = some loop) : loop.puts.countP Option.isNone =
        if s.acceptedBefore.isSome then s.workers.length else 0 :=
    (Loop.step_puts_none hl hstep).trans hd.put
  have hown {lab : Label} {i : Nat} {l : RubicaBot.Label} (hown : lab.own = some (i, l)) :
      l ≠ .putRaw := by
    rintro rfl
    cases isTurn_of_own hown
  cases Step.of_step h with
  | queue l loop hl hstep =>
      have hdel : s.loop.delivers l = none := by cases l <;> first | rfl | cases hl
      obtain ⟨hret, -⟩ := Loop.step_delivers hstep
      rw [hdel] at hret
      refine ⟨hd.staffed, hput ?_ hstep, ?_⟩
      · rintro rfl
        cases hl
      · rw [hret]
        exact hd.received
  | waits lab i l hlown status loop hworker hstep hdel =>
      obtain ⟨hret, -⟩ := Loop.step_delivers hstep
      rw [hdel] at hret
      refine ⟨hd.staffed, hput (hown hlown) hstep, ?_⟩
      rw [hret]
      exact hd.received
  | job lab i l hlown status loop hworker hstep job p hdel =>
      obtain ⟨hret, -⟩ := Loop.step_delivers hstep
      rw [hdel] at hret
      refine ⟨set_ne_nil hd.staffed, ?_, ?_⟩
      · simp only [List.length_set]
        exact hput (hown hlown) hstep
      · rw [countP_ended_set hworker rfl, hret]
        exact hd.received
  | sentinel lab i l hlown status loop hworker hstep p hdel =>
      obtain ⟨hret, -⟩ := Loop.step_delivers hstep
      have hraises := not_raises_of_sound (s := { s with loop := loop }) hworker hs'
      rw [hdel] at hret
      have hputs := hput (hown hlown) hstep
      rw [taskDone_eq _ hraises]
      refine ⟨set_ne_nil hd.staffed, ?_, ?_⟩
      · simp only [List.length_set]
        exact hputs
      · rw [countP_ended_set hworker rfl]
        show loop.returned.countP Option.isNone = s.workers.countP (·.phase.ended) + 1
        rw [hret, ← hd.received]
        exact List.countP_cons_of_pos rfl
  | handled i error now status job hworker =>
      have hraises := not_raises_of_sound (s := s.recordDispatch error.isSome) hworker hs'
      rw [taskDone_eq _ hraises]
      refine ⟨set_ne_nil hd.staffed, ?_, ?_⟩
      · simp only [List.length_set]
        exact hd.put
      · rw [countP_ended_set (s := s.recordDispatch error.isSome) hworker rfl]
        exact hd.received
  | stop hbefore =>
      obtain ⟨-, hret⟩ := Loop.putSentinels_getters s.workers.length s.loop
      have hnone := hd.put
      rw [hbefore] at hnone
      refine ⟨hd.staffed, ?_, ?_⟩
      · rw [Loop.putSentinels_puts_none, hnone]
        exact Nat.zero_add _
      · rw [hret]
        exact hd.received
  | stopReturns hbefore hended => exact ⟨hd.staffed, hd.put, hd.received⟩

/-- Nobody has been dismissed from a new pool. -/
theorem init_dismissed (concurrency maxSize : Int) (fullPolicy : String) (ttl : ℚ) :
    (init concurrency maxSize fullPolicy ttl).Dismissed := by
  refine ⟨?_, rfl, ?_⟩
  · have hpos : (max 1 concurrency).toNat ≠ 0 := by omega
    simp [init, hpos]
  refine (List.countP_eq_zero.mpr fun w hw => ?_).symm
  obtain ⟨i, -, rfl⟩ := List.mem_map.mp hw
  simp [WorkerPhase.ended]

/-- Before `stop` no worker ends. -/
theorem Dismissed.not_ended {s : WorkerPool} (hd : s.Dismissed)
    (hc : ∃ lost, s.loop.Conserved lost) (hstop : s.acceptedBefore = none) {w : Worker}
    (hw : w ∈ s.workers) : w.phase.ended = false := by
  obtain ⟨lost, hc⟩ := hc
  have hcount := (Loop.conserved_iff _ _).mp hc Option.isNone
  have hput := hd.put
  rw [hstop] at hput
  have hzero : s.workers.countP (·.phase.ended) = 0 := by
    have hreceived := hd.received
    simp only [Option.isSome_none, Bool.false_eq_true, if_false] at hput
    omega
  exact Bool.eq_false_iff.mpr (List.countP_eq_zero.mp hzero w hw)

/-! ## when no turn is left -/

/-- No turn is left, and no dispatch is going on. -/
structure Rests (s : WorkerPool) : Prop where
  stuck : ∀ lab, lab.isTurn = true → s.step lab = none
  handling : ∀ w ∈ s.workers, ∀ job, w.phase ≠ .handling job

/-- A worker that is looping can do what its `get` can. -/
theorem step_none_of_advance {s : WorkerPool} {i : Nat} {w : Worker} {l : RubicaBot.Label}
    (hw : s.workers[i]? = some w) (hphase : w.phase = .looping) (h : s.advance i l = none) :
    s.loop.step l = none := by
  obtain ⟨status, phase⟩ := w
  obtain rfl : phase = .looping := hphase
  simp only [advance, hw] at h
  split at h
  · split at h <;> cases h
  · next hnone =>
      cases hstep : s.loop.step l with
      | none => rfl
      | some loop => exact absurd hstep (hnone status loop rfl)

/-- What the pool cannot do from outside the queue cannot. -/
theorem step_none_of_queue {s : WorkerPool} {l : RubicaBot.Label} (hl : l.isExternal = true)
    (h : s.step (.queue l) = none) : s.loop.step l = none := by
  simp only [step, hl, if_true] at h
  cases hstep : s.loop.step l with
  | none => rfl
  | some loop =>
      rw [hstep] at h
      cases h

/-- A worker that has not ended waits for both of its child tasks on empty queues. -/
theorem Rests.looping {s : WorkerPool} (h : s.Rests) {i : Nat} {w : Worker} {g : Getter}
    (hw : s.workers[i]? = some w) (hphase : w.phase = .looping)
    (hg : s.loop.getters[i]? = some g) : g.phase.held = [] ∧ s.loop.queue.waiting = [] :=
  Loop.getter_of_stuck hg (step_none_of_advance hw hphase (h.stuck (.get i) rfl))
    (fun p => step_none_of_advance hw hphase (h.stuck (.resume i p) rfl))
    fun p => step_none_of_queue rfl (h.stuck (.queue (.childTakes i p)) rfl)

/-- A worker at rest that has not ended is looping. -/
theorem Rests.looping_of_not_ended {s : WorkerPool} (h : s.Rests) {w : Worker}
    (hw : w ∈ s.workers) (hended : w.phase.ended = false) : w.phase = .looping := by
  cases hphase : w.phase with
  | looping => rfl
  | handling job => exact absurd hphase (h.handling w hw job)
  | exited | crashed =>
      rw [hphase] at hended
      cases hended

/-- **At rest**, nobody waits for the lock and no child task holds an item. -/
theorem Rests.idle {s : WorkerPool} (hs : s.Sound) (h : s.Rests) :
    s.loop.lockWaiters = [] ∧ s.loop.held = [] := by
  refine ⟨Loop.lockWaiters_of_stuck
    (step_none_of_queue rfl (h.stuck (.queue (.lockAcquired 0)) rfl)), ?_⟩
  rw [Loop.held, List.flatMap_eq_nil_iff]
  intro g hg
  obtain ⟨i, hi, hget⟩ := List.getElem_of_mem hg
  have hgetter : s.loop.getters[i]? = some g := by rw [List.getElem?_eq_getElem hi, hget]
  obtain ⟨w, hw⟩ : ∃ w, s.workers[i]? = some w :=
    ⟨_, List.getElem?_eq_getElem (hs.tasks ▸ hi)⟩
  by_cases hphase : w.phase = .looping
  · exact (h.looping hw hphase hgetter).1
  · rw [hs.idle i w hw hphase g hgetter]
    rfl

/-- With a worker left that has not ended, nothing waits in the queues. -/
theorem Rests.waiting {s : WorkerPool} (hs : s.Sound) (h : s.Rests) {w : Worker}
    (hw : w ∈ s.workers) (hended : w.phase.ended = false) : s.loop.queue.waiting = [] := by
  obtain ⟨i, hi, hget⟩ := List.getElem_of_mem hw
  have hworker : s.workers[i]? = some w := by rw [List.getElem?_eq_getElem hi, hget]
  obtain ⟨g, hg⟩ : ∃ g, s.loop.getters[i]? = some g :=
    ⟨_, List.getElem?_eq_getElem (hs.tasks ▸ hi)⟩
  exact (h.looping hworker (h.looping_of_not_ended hw hended) hg).2

/-- **Nothing is forgotten.**  With a worker left that has not ended, the jobs accepted are
those passed to the handler and those evicted, drained or discarded. -/
theorem Rests.accounted {s : WorkerPool} (hs : s.Sound) (h : s.Rests)
    {lost : List (Option Job)} (hc : s.loop.Conserved lost)
    (haccepted : s.loop.puts.reduceOption = s.loop.acceptedJobs) {w : Worker}
    (hw : w ∈ s.workers) (hended : w.phase.ended = false) :
    s.loop.acceptedJobs.Perm
      (s.passed ++ (s.loop.evicted ++ s.loop.drained ++ lost).reduceOption) := by
  have hjobs := List.Perm.filterMap id hc
  rw [Loop.places, h.waiting hs hw hended, (h.idle hs).2] at hjobs
  rw [← haccepted, ← hs.passed, ← List.reduceOption_append]
  simpa only [List.reduceOption, List.nil_append, List.append_assoc] using hjobs

/-- The sentinels, by where they are. -/
theorem Dismissed.count {s : WorkerPool} (hd : s.Dismissed) {lost : List (Option Job)}
    (hc : s.loop.Conserved lost) (hstop : s.acceptedBefore.isSome) :
    s.workers.length = s.loop.queue.waiting.countP Option.isNone +
      s.loop.held.countP Option.isNone + s.workers.countP (·.phase.ended) +
      (s.loop.evicted ++ s.loop.drained ++ lost).countP Option.isNone := by
  have hcount := (Loop.conserved_iff _ _).mp hc Option.isNone
  have hput := hd.put
  rw [hstop, if_pos rfl] at hput
  rw [hput, hd.received] at hcount
  rw [List.countP_append, List.countP_append]
  omega

/-- No sentinel is among the items. -/
theorem none_not_mem_iff (items : List (Option Job)) :
    none ∉ items ↔ items.countP Option.isNone = 0 := by
  rw [List.countP_eq_zero]
  constructor
  · rintro hmem (_ | job) hitem
    · exact absurd hitem hmem
    · simp
  · intro hall hmem
    exact hall none hmem rfl

/-- If every worker has ended, each has received a sentinel of its own. -/
theorem Dismissed.none_not_mem {s : WorkerPool} (hd : s.Dismissed) {lost : List (Option Job)}
    (hc : s.loop.Conserved lost) (hstop : s.acceptedBefore.isSome) (hall : s.AllEnded) :
    none ∉ s.loop.evicted ++ s.loop.drained ++ lost := by
  have hcount := hd.count hc hstop
  have hlength : s.workers.countP (·.phase.ended) = s.workers.length :=
    List.countP_eq_length.mpr hall
  rw [none_not_mem_iff]
  omega

/-- **Shutdown.**  After `stop` a pool at rest has ended, unless a sentinel was evicted,
drained or discarded. -/
theorem Rests.all_ended {s : WorkerPool} (hs : s.Sound) (hd : s.Dismissed) (h : s.Rests)
    {lost : List (Option Job)} (hc : s.loop.Conserved lost) (hstop : s.acceptedBefore.isSome)
    (hnone : none ∉ s.loop.evicted ++ s.loop.drained ++ lost) : s.AllEnded := by
  have hcount := hd.count hc hstop
  rw [(none_not_mem_iff _).mp hnone, (h.idle hs).2, List.countP_nil] at hcount
  intro w hw
  rw [← Bool.not_eq_false]
  intro hended
  rw [h.waiting hs hw hended, List.countP_nil] at hcount
  have hlength : s.workers.countP (·.phase.ended) = s.workers.length := by omega
  have hall := List.countP_eq_length.mp hlength w hw
  rw [hended] at hall
  cases hall

end WorkerPool

end RubicaBot
