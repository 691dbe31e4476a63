import RubicaBot.Queue
import RubicaBot.Transition

/-!
# RubicaBot.Queue.Interleaving

`JobQueue` under the event loop: every interleaving of its coroutines at their
suspension points, as one executable step function.

A coroutine runs without interruption between two `await`s that really suspend,
and these are the only ones:

* `enqueue` may wait for the lock, after its duplicate check;
* `get` on two empty queues waits for its child tasks `high_queue.get()` and
  `normal_queue.get()`.  Each of them completes on its own (`childTakes`), so
  when `get` resumes one or both may be done; the code then takes the result of
  *one* of the done tasks and cancels the pending ones.

`asyncio.Queue` is FIFO and its `get` cancellation-safe: a cancelled child has
taken nothing.  The state also keeps the log of what happened to each item,
which the code does not have; the properties of runs are stated with it.
-/

namespace RubicaBot

open Transition

/-! ## the lists of items -/

/-- Replacing one entry of a list exchanges its share of a `flatMap`. -/
theorem countP_flatMap_set {α β : Type} (p : β → Bool) (f : α → List β) {xs : List α} {i : Nat}
    {x y : α} (h : xs[i]? = some x) :
    ((xs.set i y).flatMap f).countP p + (f x).countP p =
      (xs.flatMap f).countP p + (f y).countP p := by
  induction xs generalizing i with
  | nil => simp at h
  | cons z zs ih =>
      cases i with
      | zero =>
          simp only [List.getElem?_cons_zero, Option.some.injEq] at h
          subst h
          simp only [List.set_cons_zero, List.flatMap_cons, List.countP_append]
          omega
      | succ i =>
          simp only [List.getElem?_cons_succ] at h
          have hih := ih h
          simp only [List.set_cons_succ, List.flatMap_cons, List.countP_append]
          omega

/-- No event of this kind says anything of the other. -/
theorem filterMap_map_none {α β γ : Type} {f : β → α} {g : α → Option γ} (h : ∀ b, g (f b) = none)
    (bs : List β) : (bs.map f).filterMap g = [] := by
  simp [List.filterMap_map, h]

/-- The events of a kind give back what they were made of. -/
theorem filterMap_map_some {α β : Type} {f : β → α} {g : α → Option β}
    (h : ∀ b, g (f b) = some b) (bs : List β) : (bs.map f).filterMap g = bs := by
  simp [List.filterMap_map, h]

/-! ## state -/

/-- A child task of `get`: still waiting, or completed with the item it removed
from its queue. -/
inductive ChildTask where
  | pending
  | done (item : Option Job)

/-- What a child task holds. -/
def ChildTask.held : ChildTask → List (Option Job)
  | .pending => []
  | .done item => [item]

/-- `get` as seen from the task that calls it. -/
inductive GetPhase where
  | idle
  /-- Suspended in `asyncio.wait({high_task, normal_task}, FIRST_COMPLETED)`. -/
  | waiting (highTask normalTask : ChildTask)

namespace GetPhase

/-- The child task waiting on the queue of priority `p`. -/
def task : GetPhase → JobPriority → Option ChildTask
  | .idle, _ => none
  | .waiting highTask _, .high => some highTask
  | .waiting _ normalTask, .normal => some normalTask

/-- The child task on queue `p` completes with `item`. -/
def complete : GetPhase → JobPriority → Option Job → GetPhase
  | .idle, _, _ => .idle
  | .waiting _ normalTask, .high, item => .waiting (.done item) normalTask
  | .waiting highTask _, .normal, item => .waiting highTask (.done item)

/-- Items taken off the queues by child tasks, before `get` has resumed. -/
def held : GetPhase → List (Option Job)
  | .idle => []
  | .waiting highTask normalTask => highTask.held ++ normalTask.held

end GetPhase

/-- A task that calls `get`, with its value of the context variable
`_last_queue`. -/
structure Getter where
  phase : GetPhase := .idle
  lastQueue : Option JobPriority := none

/-- A call of `enqueue` that has passed its duplicate check. -/
structure EnqueueCall where
  job : Job
  checkedAt : Instant

/-- What the log records. -/
inductive Event where
  | put (item : Option Job)
  | returned (getter : Nat) (item : Option Job)
  | evicted (item : Option Job)
  | drained (item : Option Job)
  | decided (call : EnqueueCall) (decision : QueueDecision)

namespace Event

/-- The item, if it was put into the queue. -/
def put? : Event → Option (Option Job)
  | .put item => some item
  | _ => none

/-- The item, if `get` has returned it. -/
def returned? : Event → Option (Option Job)
  | .returned _ item => some item
  | _ => none

/-- The item, if it gave way to a new one. -/
def evicted? : Event → Option (Option Job)
  | .evicted item => some item
  | _ => none

/-- The item, if `drain` took it. -/
def drained? : Event → Option (Option Job)
  | .drained item => some item
  | _ => none

/-- The call the event reports as enqueued. -/
def enqueued? : Event → Option EnqueueCall
  | .decided call .enqueued => some call
  | _ => none

/-! What a batch of evictions and a batch of drained items say, kind by kind. -/

/-- What gives way is not put. -/
theorem put_evicted (items : List (Option Job)) : (items.map evicted).filterMap put? = [] :=
  filterMap_map_none (fun _ => rfl) items

/-- Nor is it returned. -/
theorem returned_evicted (items : List (Option Job)) :
    (items.map evicted).filterMap returned? = [] :=
  filterMap_map_none (fun _ => rfl) items

/-- It is what gives way. -/
theorem evicted_evicted (items : List (Option Job)) :
    (items.map evicted).filterMap evicted? = items :=
  filterMap_map_some (f := evicted) (fun _ => rfl) items

/-- Nor is it drained. -/
theorem drained_evicted (items : List (Option Job)) :
    (items.map evicted).filterMap drained? = [] :=
  filterMap_map_none (fun _ => rfl) items

/-- Nor is a call of `enqueue` answered with it. -/
theorem enqueued_evicted (items : List (Option Job)) :
    (items.map evicted).filterMap enqueued? = [] :=
  filterMap_map_none (fun _ => rfl) items

/-- What is drained is not put. -/
theorem put_drained (items : List (Option Job)) : (items.map drained).filterMap put? = [] :=
  filterMap_map_none (fun _ => rfl) items

/-- Nor is it returned. -/
theorem returned_drained (items : List (Option Job)) :
    (items.map drained).filterMap returned? = [] :=
  filterMap_map_none (fun _ => rfl) items

/-- Nor does it give way. -/
theorem evicted_drained (items : List (Option Job)) :
    (items.map drained).filterMap evicted? = [] :=
  filterMap_map_none (fun _ => rfl) items

/-- It is what is drained. -/
theorem drained_drained (items : List (Option Job)) :
    (items.map drained).filterMap drained? = items :=
  filterMap_map_some (f := drained) (fun _ => rfl) items

/-- Nor is a call of `enqueue` answered with it. -/
theorem enqueued_drained (items : List (Option Job)) :
    (items.map drained).filterMap enqueued? = [] :=
  filterMap_map_none (fun _ => rfl) items

end Event

/-- The queue, the tasks that call `get` on it, the calls of `enqueue` waiting
for the lock, the last clock reading and the log, newest event first. -/
structure Loop where
  queue : JobQueue
  getters : List Getter
  lockWaiters : List EnqueueCall := []
  clock : Instant := 0
  log : List Event := []

/-- One uninterrupted stretch of one coroutine. -/
inductive Label where
  /-- `enqueue(job)` up to the lock. -/
  | enqueue (job : Job) (now : Instant)
  /-- The `i`-th waiting `enqueue` gets the lock and finishes. -/
  | lockAcquired (i : Nat)
  /-- `put_raw(None)`. -/
  | putRaw
  /-- `_drop_oldest()` on its own. -/
  | dropOldest
  | drain
  /-- Task `i` calls `get`, which returns at once or suspends. -/
  | get (i : Nat)
  /-- The child task of `i` on queue `p` completes. -/
  | childTakes (i : Nat) (p : JobPriority)
  /-- Task `i` resumes in `get`, with the child on queue `winner` as the
  `next(iter(done))`. -/
  | resume (i : Nat) (winner : JobPriority)
  /-- Task `i` calls `task_done(job)`. -/
  | taskDone (i : Nat) (job : Option Job)

/-! ## step -/

namespace JobQueue

/-- What `enqueueLocked` logs, newest first. -/
def enqueueEvents (q : JobQueue) (job : Job) : List Event :=
  if q.isFull then
    if q.fullPolicy = "drop_oldest" then
      .put (some job) :: q.victim.toList.map Event.evicted
    else []
  else [.put (some job)]

/-- Besides puts and evictions it logs nothing. -/
theorem enqueueEvents_filterMap_none {α : Type} {g : Event → Option α} (q : JobQueue) (job : Job)
    (hput : ∀ item, g (.put item) = none) (hevicted : ∀ item, g (.evicted item) = none) :
    (q.enqueueEvents job).filterMap g = [] := by
  unfold enqueueEvents
  split
  · split
    · rw [List.filterMap_cons, hput]
      exact filterMap_map_none hevicted _
    · rfl
  · rw [List.filterMap_cons, hput]
    rfl

@[simp] theorem enqueueEvents_returned (q : JobQueue) (job : Job) :
    (q.enqueueEvents job).filterMap Event.returned? = [] :=
  q.enqueueEvents_filterMap_none job (fun _ => rfl) fun _ => rfl

@[simp] theorem enqueueEvents_drained (q : JobQueue) (job : Job) :
    (q.enqueueEvents job).filterMap Event.drained? = [] :=
  q.enqueueEvents_filterMap_none job (fun _ => rfl) fun _ => rfl

@[simp] theorem enqueueEvents_enqueued (q : JobQueue) (job : Job) :
    (q.enqueueEvents job).filterMap Event.enqueued? = [] :=
  q.enqueueEvents_filterMap_none job (fun _ => rfl) fun _ => rfl

/-- `enqueueLocked` puts the job exactly when it answers `enqueued`. -/
theorem enqueueEvents_put (q : JobQueue) (job : Job) :
    (q.enqueueEvents job).filterMap Event.put? =
      if (q.enqueueLocked job).1 = .enqueued then [some job] else [] := by
  unfold enqueueEvents enqueueLocked
  split
  · split
    · cases q.victim <;> rfl
    · rfl
  · rfl

end JobQueue

namespace Loop

/-- `n` tasks that will call `get`, and an empty queue made by
`JobQueue(max_size=…, deduplicator=Deduplicator(ttl), full_policy=…)`. -/
def init (n : Nat) (maxSize : Int) (fullPolicy : String) (ttl : ℚ) : Loop where
  queue := { maxSize := maxSize, deduplicator := { ttlSeconds := ttl }, fullPolicy := fullPolicy }
  getters := List.replicate n {}

/-- A turn of the event loop.  A label that names no turn that can be taken now gives `none`. -/
def step (s : Loop) : Label → Option Loop
  | .enqueue job now =>
      if s.clock ≤ now then
        match s.queue.seenCheck job now with
        | (true, q) =>
            some { s with
              queue := q, clock := now, log := .decided ⟨job, now⟩ .duplicate :: s.log }
        | (false, q) =>
            some { s with queue := q, clock := now, lockWaiters := s.lockWaiters ++ [⟨job, now⟩] }
      else none
  | .lockAcquired i =>
      match s.lockWaiters[i]? with
      | some call =>
          let (decision, q) := s.queue.enqueueLocked call.job
          some { s with
            queue := q
            lockWaiters := s.lockWaiters.eraseIdx i
            log := .decided call decision :: (s.queue.enqueueEvents call.job ++ s.log) }
      | none => none
  | .putRaw => some { s with queue := s.queue.putRaw none, log := .put none :: s.log }
  | .dropOldest =>
      some { s with
        queue := s.queue.dropOldest, log := s.queue.victim.toList.map Event.evicted ++ s.log }
  | .drain =>
      some { s with
        queue := s.queue.drain.2, log := s.queue.waiting.map Event.drained ++ s.log }
  | .get i =>
      match s.getters[i]? with
      | some ⟨.idle, lastQueue⟩ =>
          match s.queue.getReady with
          | some (item, p, q) =>
              some { s with
                queue := q
                getters := s.getters.set i ⟨.idle, some p⟩
                log := .returned i item :: s.log }
          | none =>
              some { s with
                getters := s.getters.set i ⟨.waiting .pending .pending, lastQueue⟩ }
      | _ => none
  | .childTakes i p =>
      match s.getters[i]? with
      | some ⟨phase, lastQueue⟩ =>
          match phase.task p, s.queue.takeFrom p with
          | some .pending, some (item, q) =>
              some { s with
                queue := q, getters := s.getters.set i ⟨phase.complete p item, lastQueue⟩ }
          | _, _ => none
      | none => none
  | .resume i winner =>
      match s.getters[i]? with
      | some ⟨phase, _⟩ =>
          match phase.task winner with
          | some (.done item) =>
              some { s with
                queue := s.queue.decremented
                getters := s.getters.set i ⟨.idle, some winner⟩
                log := .returned i item :: s.log }
          | _ => none
      | none => none
  | .taskDone i job =>
      match s.getters[i]? with
      | some ⟨_, lastQueue⟩ => some { s with queue := s.queue.taskDone job lastQueue }
      | none => none

/-! ## what one step can be -/

/-- The branches of `step`, each with its guard. -/
inductive Step (s : Loop) : Label → Loop → Prop where
  | duplicate (job : Job) (now : Instant) (q : JobQueue) (hclock : s.clock ≤ now)
      (hseen : s.queue.seenCheck job now = (true, q)) :
      Step s (.enqueue job now)
        { s with queue := q, clock := now, log := .decided ⟨job, now⟩ .duplicate :: s.log }
  | fresh (job : Job) (now : Instant) (q : JobQueue) (hclock : s.clock ≤ now)
      (hseen : s.queue.seenCheck job now = (false, q)) :
      Step s (.enqueue job now)
        { s with queue := q, clock := now, lockWaiters := s.lockWaiters ++ [⟨job, now⟩] }
  | locked (i : Nat) (call : EnqueueCall) (hcall : s.lockWaiters[i]? = some call) :
      Step s (.lockAcquired i)
        { s with
          queue := (s.queue.enqueueLocked call.job).2
          lockWaiters := s.lockWaiters.eraseIdx i
          log := .decided call (s.queue.enqueueLocked call.job).1 ::
            (s.queue.enqueueEvents call.job ++ s.log) }
  | putRaw : Step s .putRaw { s with queue := s.queue.putRaw none, log := .put none :: s.log }
  | dropOldest :
      Step s .dropOldest
        { s with
          queue := s.queue.dropOldest, log := s.queue.victim.toList.map Event.evicted ++ s.log }
  | drain :
      Step s .drain
        { s with queue := s.queue.drain.2, log := s.queue.waiting.map Event.drained ++ s.log }
  | getReady (i : Nat) (lastQueue : Option JobPriority) (item : Option Job) (p : JobPriority)
      (q : JobQueue) (hgetter : s.getters[i]? = some ⟨.idle, lastQueue⟩)
      (hready : s.queue.getReady = some (item, p, q)) :
      Step s (.get i)
        { s with
          queue := q
          getters := s.getters.set i ⟨.idle, some p⟩
          log := .returned i item :: s.log }
  | getWait (i : Nat) (lastQueue : Option JobPriority)
      (hgetter : s.getters[i]? = some ⟨.idle, lastQueue⟩) (hready : s.queue.getReady = none) :
      Step s (.get i)
        { s with getters := s.getters.set i ⟨.waiting .pending .pending, lastQueue⟩ }
  | childTakes (i : Nat) (p : JobPriority) (phase : GetPhase) (lastQueue : Option JobPriority)
      (item : Option Job) (q : JobQueue) (hgetter : s.getters[i]? = some ⟨phase, lastQueue⟩)
      (htask : phase.task p = some .pending) (htake : s.queue.takeFrom p = some (item, q)) :
      Step s (.childTakes i p)
        { s with queue := q, getters := s.getters.set i ⟨phase.complete p item, lastQueue⟩ }
  | resume (i : Nat) (winner : JobPriority) (phase : GetPhase) (lastQueue : Option JobPriority)
      (item : Option Job) (hgetter : s.getters[i]? = some ⟨phase, lastQueue⟩)
      (htask : phase.task winner = some (.done item)) :
      Step s (.resume i winner)
        { s with
          queue := s.queue.decremented
          getters := s.getters.set i ⟨.idle, some winner⟩
          log := .returned i item :: s.log }
  | taskDone (i : Nat) (job : Option Job) (getter : Getter)
      (hgetter : s.getters[i]? = some getter) :
      Step s (.taskDone i job) { s with queue := s.queue.taskDone job getter.lastQueue }

/-- **Inversion.**  Whatever `step` does is one of the branches. -/
theorem Step.of_step {s s' : Loop} {l : Label} (h : s.step l = some s') : Step s l s' := by
  cases l with
  | enqueue job now =>
      simp only [step] at h
      split at h
      · next hclock =>
          split at h
          · next q hseen => cases h; exact .duplicate job now q hclock hseen
          · next q hseen => cases h; exact .fresh job now q hclock hseen
      · contradiction
  | lockAcquired i =>
      simp only [step] at h
      split at h
      · next call hcall => cases h; exact .locked i call hcall
      · contradiction
  | putRaw => simp only [step] at h; cases h; exact .putRaw
  | dropOldest => simp only [step] at h; cases h; exact .dropOldest
  | drain => simp only [step] at h; cases h; exact .drain
  | get i =>
      simp only [step] at h
      split at h
      · next lastQueue hgetter =>
          split at h
          · next item p q hready => cases h; exact .getReady i lastQueue item p q hgetter hready
          · next hready => cases h; exact .getWait i lastQueue hgetter hready
      · contradiction
  | childTakes i p =>
      simp only [step] at h
      split at h
      · next phase lastQueue hgetter =>
          split at h
          · next item q htask htake =>
              cases h; exact .childTakes i p phase lastQueue item q hgetter htask htake
          · contradiction
      · contradiction
  | resume i winner =>
      simp only [step] at h
      split at h
      · next phase lastQueue hgetter =>
          split at h
          · next item htask => cases h; exact .resume i winner phase lastQueue item hgetter htask
          · contradiction
      · contradiction
  | taskDone i job =>
      simp only [step] at h
      split at h
      · next phase lastQueue hgetter =>
          cases h; exact .taskDone i job ⟨phase, lastQueue⟩ hgetter
      · contradiction

/-- The parameters and the deduplicator change in `enqueue`'s duplicate check
only. -/
theorem step_frame {s s' : Loop} {l : Label} (hl : ∀ job now, l ≠ .enqueue job now)
    (h : s.step l = some s') : s'.queue.frame = s.queue.frame := by
  cases Step.of_step h with
  | duplicate job now q hclock hseen => exact absurd rfl (hl job now)
  | fresh job now q hclock hseen => exact absurd rfl (hl job now)
  | locked i call hcall => exact JobQueue.frame_enqueueLocked _ _
  | dropOldest => exact JobQueue.frame_dropOldest _
  | getReady i lastQueue item p q hgetter hready =>
      obtain ⟨m, htake, rfl, -⟩ := JobQueue.getReady_eq_some hready
      exact (JobQueue.frame_decremented m).trans (JobQueue.frame_takeFrom htake)
  | childTakes i p phase lastQueue item q hgetter htask htake =>
      exact JobQueue.frame_takeFrom htake
  | taskDone i job getter hgetter => exact JobQueue.frame_taskDone _ _ _
  | _ => rfl

/-! ## views of the state -/

/-- Items taken by child tasks of calls of `get` that have not resumed. -/
def held (s : Loop) : List (Option Job) := s.getters.flatMap fun g => g.phase.held

@[simp] theorem held_init (n : Nat) (maxSize : Int) (fullPolicy : String) (ttl : ℚ) :
    (init n maxSize fullPolicy ttl).held = [] := by
  simp [held, init, GetPhase.held]

@[simp] theorem waiting_init (n : Nat) (maxSize : Int) (fullPolicy : String) (ttl : ℚ) :
    (init n maxSize fullPolicy ttl).queue.waiting = [] := rfl

/-- What has been put into the queue, newest first. -/
def puts (s : Loop) : List (Option Job) := s.log.filterMap Event.put?

/-- What calls of `get` have returned. -/
def returned (s : Loop) : List (Option Job) := s.log.filterMap Event.returned?

/-- What gave way to new jobs. -/
def evicted (s : Loop) : List (Option Job) := s.log.filterMap Event.evicted?

/-- What `drain` took. -/
def drained (s : Loop) : List (Option Job) := s.log.filterMap Event.drained?

/-- The calls answered `enqueued`. -/
def enqueuedCalls (s : Loop) : List EnqueueCall := s.log.filterMap Event.enqueued?

end Loop

namespace Loop

/-- What the step makes `get` return, and the queue it was taken from. -/
def delivers (s : Loop) : Label → Option (Option Job × JobPriority)
  | .get _ => s.queue.getReady.map fun (item, p, _) => (item, p)
  | .resume i winner =>
      match s.getters[i]? with
      | some ⟨phase, _⟩ =>
          match phase.task winner with
          | some (.done item) => some (item, winner)
          | _ => none
      | none => none
  | _ => none

/-- The jobs accepted so far, newest first. -/
def acceptedJobs (s : Loop) : List Job := s.enqueuedCalls.map EnqueueCall.job

/-- Task `i` is not suspended in `get`. -/
def IdleAt (s : Loop) (i : Nat) : Prop := ∀ g ∈ s.getters[i]?, g.phase = .idle

end Loop

/-- The task that takes the step, where it is one in `get`. -/
def Label.caller : Label → Option Nat
  | .get i => some i
  | .resume i _ => some i
  | _ => none

namespace Loop

/-- What one task does says nothing of whether another is idle. -/
theorem idleAt_set_ne {s : Loop} {i j : Nat} (hne : i ≠ j) (g : Getter) :
    (∀ g' ∈ (s.getters.set i g)[j]?, g'.phase = .idle) ↔ s.IdleAt j := by
  rw [List.getElem?_set_ne hne, IdleAt]

/-- A task that is not suspended in `get` stays so, unless it calls it. -/
theorem step_idleAt {s s' : Loop} {l : Label} {j : Nat} (hj : s.IdleAt j)
    (hl : l.caller ≠ some j) (h : s.step l = some s') : s'.IdleAt j := by
  cases Step.of_step h with
  | getReady i lastQueue item p q hgetter hready =>
      exact (idleAt_set_ne (fun hij => hl (congrArg some hij)) _).mpr hj
  | getWait i lastQueue hgetter hready =>
      exact (idleAt_set_ne (fun hij => hl (congrArg some hij)) _).mpr hj
  | childTakes i p phase lastQueue item q hgetter htask htake =>
      refine (idleAt_set_ne (fun hij => ?_) _).mpr hj
      subst hij
      have hidle : phase = .idle := hj _ hgetter
      rw [hidle] at htask
      cases htask
  | resume i winner phase lastQueue item hgetter htask =>
      exact (idleAt_set_ne (fun hij => hl (congrArg some hij)) _).mpr hj
  | _ => exact hj

/-- What a step delivers, `get` returns to the task that takes the step, which is
then not suspended any more and has noted the queue. -/
theorem step_delivers {s s' : Loop} {l : Label} (h : s.step l = some s') :
    s'.returned = ((s.delivers l).map Prod.fst).toList ++ s.returned ∧
      ∀ i item p, l.caller = some i → s.delivers l = some (item, p) →
        s'.getters[i]? = some ⟨.idle, some p⟩ := by
  have hset {i : Nat} {g : Getter} (p : JobPriority) (hg : s.getters[i]? = some g) :
      (s.getters.set i ⟨.idle, some p⟩)[i]? = some ⟨.idle, some p⟩ := by
    rw [List.getElem?_set_self']
    simp [hg]
  cases Step.of_step h with
  | duplicate job now q hclock hseen => exact ⟨rfl, nofun⟩
  | fresh job now q hclock hseen => exact ⟨rfl, nofun⟩
  | locked i call hcall =>
      refine ⟨?_, nofun⟩
      simp only [returned, List.filterMap_cons, List.filterMap_append, Event.returned?]
      rw [JobQueue.enqueueEvents_returned]
      rfl
  | putRaw => exact ⟨rfl, nofun⟩
  | dropOldest =>
      refine ⟨?_, nofun⟩
      simp only [returned, List.filterMap_append]
      rw [filterMap_map_none (f := Event.evicted) fun _ => rfl]
      rfl
  | drain =>
      refine ⟨?_, nofun⟩
      simp only [returned, List.filterMap_append]
      rw [filterMap_map_none (f := Event.drained) fun _ => rfl]
      rfl
  | getReady i lastQueue item p q hgetter hready =>
      refine ⟨by simp [returned, delivers, hready, Event.returned?], ?_⟩
      intro j item' p' hcall hdel
      cases hcall
      simp only [delivers, hready, Option.map_some, Option.some.injEq, Prod.mk.injEq] at hdel
      rw [← hdel.2]
      exact hset p hgetter
  | getWait i lastQueue hgetter hready =>
      refine ⟨by simp [returned, delivers, hready], ?_⟩
      intro j item p _ hdel
      simp [delivers, hready] at hdel
  | childTakes i p phase lastQueue item q hgetter htask htake => exact ⟨rfl, nofun⟩
  | resume i winner phase lastQueue item hgetter htask =>
      refine ⟨by simp [returned, delivers, hgetter, htask, Event.returned?], ?_⟩
      intro j item' p' hcall hdel
      cases hcall
      simp only [delivers, hgetter, htask, Option.some.injEq, Prod.mk.injEq] at hdel
      rw [← hdel.2]
      exact hset winner hgetter
  | taskDone i job getter hgetter => exact ⟨rfl, nofun⟩

/-- No step starts or ends a task. -/
theorem step_getters_length {s s' : Loop} {l : Label} (h : s.step l = some s') :
    s'.getters.length = s.getters.length := by
  cases Step.of_step h <;> first | rfl | exact List.length_set

end Loop

/-- A child task that completes adds its item to what its `get` holds. -/
theorem GetPhase.held_complete {phase : GetPhase} {p : JobPriority} (item : Option Job)
    (h : phase.task p = some .pending) :
    (phase.complete p item).held.Perm (item :: phase.held) := by
  cases phase with
  | idle => simp [task] at h
  | waiting highTask normalTask =>
      cases p with
      | high =>
          simp only [task, Option.some.injEq] at h
          simp [complete, held, h, ChildTask.held]
      | normal =>
          simp only [task, Option.some.injEq] at h
          simp only [complete, held, h, ChildTask.held, List.append_nil]
          exact List.perm_append_singleton _ _

end RubicaBot
