import Mathlib.Data.List.Perm.Basic
import RubicaBot.Dedup
import RubicaBot.PyVal

/-!
# RubicaBot.Queue

`app/core/queue.py`: the `Job` record and the `JobQueue`, two `asyncio.Queue`s
(one per priority) beside a counter that the code keeps by hand.

Every operation here is a piece of the source that runs without suspending:
`seenCheck` and `enqueueLocked` are the two halves of `enqueue` (the lock is
acquired between them), `getReady` is the part of `get` that does not wait,
`takeFrom` is what a child task of `get` does when it completes, and
`decremented` is the statement all paths of `get` end in.
`RubicaBot.Queue.Interleaving` puts the pieces together.

The lemmas state what each piece does to the two FIFOs, up to `List.Perm`, to
the counter and to the deduplicator; later modules use nothing else.
-/

namespace RubicaBot

open Py

/-! ## the counters of `app/utils/stats.py` the queue and the workers update -/

/-- The counters of `StatsCollector`. -/
structure StatsCollector where
  totalUpdates : Nat := 0
  totalErrors : Nat := 0
  totalEnqueued : Nat := 0
  totalDropped : Nat := 0
  totalDeduped : Nat := 0
  lastQueueSize : Nat := 0

namespace StatsCollector

/-- `record_enqueue`. -/
def recordEnqueue (s : StatsCollector) (queueSize : Nat) : StatsCollector :=
  { s with lastQueueSize := queueSize, totalEnqueued := s.totalEnqueued + 1 }

/-- `record_drop`. -/
def recordDrop (s : StatsCollector) : StatsCollector :=
  { s with totalDropped := s.totalDropped + 1 }

/-- `record_dedup`. -/
def recordDedup (s : StatsCollector) : StatsCollector :=
  { s with totalDeduped := s.totalDeduped + 1 }

/-- `record_dispatch`, as far as it counts. -/
def recordDispatch (s : StatsCollector) (error : Bool) : StatsCollector :=
  { s with
    totalUpdates := s.totalUpdates + 1
    totalErrors := if error then s.totalErrors + 1 else s.totalErrors }

end StatsCollector

/-! ## asyncio.Queue -/

/-- `asyncio.Queue()` without a size limit.  `task_done()` raises `ValueError`
when nothing is unfinished; `overrun` records that it has. -/
structure AsyncQueue (α : Type) where
  items : List α := []
  unfinished : Nat := 0
  overrun : Bool := false

namespace AsyncQueue

variable {α : Type}

/-- `empty()`. -/
def empty (q : AsyncQueue α) : Bool := q.items.isEmpty

/-- `qsize()`. -/
def qsize (q : AsyncQueue α) : Nat := q.items.length

/-- `put` (never waits: the queue is unbounded). -/
def put (q : AsyncQueue α) (item : α) : AsyncQueue α :=
  { q with items := q.items ++ [item], unfinished := q.unfinished + 1 }

/-- `get_nowait`; `none` is `QueueEmpty`. -/
def getNowait (q : AsyncQueue α) : Option (α × AsyncQueue α) :=
  match q.items with
  | [] => none
  | item :: items => some (item, { q with items := items })

def taskDone (q : AsyncQueue α) : AsyncQueue α :=
  { q with unfinished := q.unfinished - 1, overrun := q.overrun || q.unfinished == 0 }

/-- `get_nowait(); task_done()`, as `_drop_oldest` and `drain` do. -/
def discardOldest (q : AsyncQueue α) : Option (α × AsyncQueue α) :=
  q.getNowait.map fun (item, q') => (item, q'.taskDone)

/-- The loop of `drain` over one queue, with the number of items drained; `fuel`
bounds the iterations by the items waiting. -/
def drainLoop : Nat → AsyncQueue α → Nat → AsyncQueue α × Nat
  | 0, q, drained => (q, drained)
  | fuel + 1, q, drained =>
      match q.discardOldest with
      | some (_, q') => drainLoop fuel q' (drained + 1)
      | none => (q, drained)

/-- The loop of `drain` over one queue. -/
def drainAll (q : AsyncQueue α) : AsyncQueue α × Nat := drainLoop q.qsize q 0

@[simp] theorem items_put (q : AsyncQueue α) (item : α) :
    (q.put item).items = q.items ++ [item] := rfl

@[simp] theorem items_taskDone (q : AsyncQueue α) : q.taskDone.items = q.items := rfl

/-- `QueueEmpty` is raised on an empty queue only. -/
theorem getNowait_eq_none_iff (q : AsyncQueue α) : q.getNowait = none ↔ q.items = [] := by
  unfold getNowait
  split <;> simp_all

/-- The oldest item is taken. -/
theorem items_of_getNowait {q q' : AsyncQueue α} {item : α}
    (h : q.getNowait = some (item, q')) : q.items = item :: q'.items := by
  unfold getNowait at h
  split at h
  · contradiction
  · next hitems =>
      simp only [Option.some.injEq, Prod.mk.injEq] at h
      obtain ⟨rfl, rfl⟩ := h
      exact hitems

/-- The oldest item is discarded. -/
theorem items_of_discardOldest {q q' : AsyncQueue α} {item : α}
    (h : q.discardOldest = some (item, q')) : q.items = item :: q'.items := by
  obtain ⟨⟨item', r⟩, hr, heq⟩ := Option.map_eq_some_iff.mp h
  simp only [Prod.mk.injEq] at heq
  obtain ⟨rfl, rfl⟩ := heq
  rw [items_taskDone]
  exact items_of_getNowait hr

/-- Nothing is discarded from an empty queue only. -/
theorem discardOldest_eq_none_iff (q : AsyncQueue α) : q.discardOldest = none ↔ q.items = [] := by
  rw [discardOldest, Option.map_eq_none_iff, getNowait_eq_none_iff]

/-- The loop empties the queue and counts what it removed. -/
theorem drainLoop_spec (fuel : Nat) (q : AsyncQueue α) (drained : Nat)
    (h : q.items.length ≤ fuel) :
    (drainLoop fuel q drained).1.items = [] ∧
      (drainLoop fuel q drained).2 = drained + q.items.length := by
  induction fuel generalizing q drained with
  | zero =>
      have hnil : q.items = [] := List.length_eq_zero_iff.mp (by omega)
      simp [drainLoop, hnil]
  | succ fuel ih =>
      unfold drainLoop
      cases hd : q.discardOldest with
      | none =>
          have hnil := (discardOldest_eq_none_iff q).mp hd
          simp [hnil]
      | some p =>
          obtain ⟨item, q'⟩ := p
          have hitems := items_of_discardOldest hd
          rw [hitems, List.length_cons] at h
          have hrec := ih q' (drained + 1) (by omega)
          refine ⟨hrec.1, ?_⟩
          rw [hrec.2, hitems, List.length_cons]
          omega

@[simp] theorem items_drainAll (q : AsyncQueue α) : q.drainAll.1.items = [] :=
  (drainLoop_spec q.qsize q 0 (le_refl _)).1

@[simp] theorem drained_drainAll (q : AsyncQueue α) : q.drainAll.2 = q.items.length := by
  rw [drainAll, (drainLoop_spec q.qsize q 0 (le_refl _)).2, Nat.zero_add]

end AsyncQueue

/-! ## jobs -/

/-- `JobPriority`. -/
inductive JobPriority where
  | high
  | normal
  deriving DecidableEq, Repr

/-- `QueueDecision`. -/
inductive QueueDecision where
  | enqueued
  | duplicate
  | dropped
  deriving DecidableEq, Repr

/-- The fields `handle_request` copies from the payload are of whatever type the
payload gives them. -/
structure Job where
  jobId : String
  receivedAt : Instant
  chatId : PyVal := .none
  messageId : PyVal := .none
  senderId : PyVal := .none
  updateType : PyVal := .none
  text : PyVal := .none
  rawPayload : PyVal := .none
  dedupKey : Option String := none
  priority : JobPriority := .normal

/-- `job.dedup_key or job.job_id`. -/
def Job.effectiveKey (job : Job) : String :=
  match job.dedupKey with
  | some key => if key ≠ "" then key else job.jobId
  | none => job.jobId

/-! ## the job queue -/

/-- `JobQueue`, without its lock (see `Interleaving`).  An item is a job or the
stop sentinel `None`. -/
structure JobQueue where
  highQueue : AsyncQueue (Option Job) := {}
  normalQueue : AsyncQueue (Option Job) := {}
  size : Nat := 0
  maxSize : Int
  deduplicator : Deduplicator
  fullPolicy : String := "reject"
  stats : Option StatsCollector := none

namespace JobQueue

/-- The queue of one priority. -/
def queue (q : JobQueue) : JobPriority → AsyncQueue (Option Job)
  | .high => q.highQueue
  | .normal => q.normalQueue

/-- With the queue of one priority replaced. -/
def setQueue (q : JobQueue) (p : JobPriority) (a : AsyncQueue (Option Job)) : JobQueue :=
  match p with
  | .high => { q with highQueue := a }
  | .normal => { q with normalQueue := a }

/-- `if self.stats: self.stats.record_…`. -/
def record (q : JobQueue) (f : StatsCollector → StatsCollector) : JobQueue :=
  { q with stats := q.stats.map f }

/-- `_put`: by priority. -/
def put (q : JobQueue) (job : Job) : JobQueue :=
  q.setQueue job.priority ((q.queue job.priority).put (some job))

/-- `put_raw`: always the high queue, and the counter is left alone. -/
def putRaw (q : JobQueue) (item : Option Job) : JobQueue :=
  { q with highQueue := q.highQueue.put item }

/-- `self._size += 1` and the enqueue statistics. -/
def counted (q : JobQueue) : JobQueue :=
  let size := q.size + 1
  { q with size := size }.record (·.recordEnqueue size)

/-- `self._size = max(0, self._size - 1)`. -/
def decremented (q : JobQueue) : JobQueue := { q with size := q.size - 1 }

/-- `_drop_oldest`. -/
def dropOldest (q : JobQueue) : JobQueue :=
  match q.normalQueue.discardOldest with
  | some (_, normal) => { q with normalQueue := normal }.decremented.record (·.recordDrop)
  | none =>
      match q.highQueue.discardOldest with
      | some (_, high) => { q with highQueue := high }.decremented.record (·.recordDrop)
      | none => q

/-- The first statement of `enqueue`: is the job's key a duplicate? -/
def seenCheck (q : JobQueue) (job : Job) (now : Instant) : Bool × JobQueue :=
  let (duplicate, deduplicator) := q.deduplicator.seen (some job.effectiveKey) now
  let q := { q with deduplicator := deduplicator }
  (duplicate, if duplicate then q.record (·.recordDedup) else q)

/-- `self._size >= self.max_size`. -/
def isFull (q : JobQueue) : Bool := decide (q.maxSize ≤ q.size)

/-- The body of `async with self._lock` in `enqueue`. -/
def enqueueLocked (q : JobQueue) (job : Job) : QueueDecision × JobQueue :=
  if q.isFull then
    if q.fullPolicy = "drop_oldest" then (.enqueued, (q.dropOldest.put job).counted)
    else (.dropped, q.record (·.recordDrop))
  else (.enqueued, (q.put job).counted)

/-- `enqueue`, when nobody holds the lock. -/
def enqueue (q : JobQueue) (job : Job) (now : Instant) : QueueDecision × JobQueue :=
  match q.seenCheck job now with
  | (true, q) => (.duplicate, q)
  | (false, q) => q.enqueueLocked job

/-- What a child task `self.high_queue.get()` (or `normal_queue`) does when it
completes. -/
def takeFrom (q : JobQueue) (p : JobPriority) : Option (Option Job × JobQueue) :=
  (q.queue p).getNowait.map fun (item, a) => (item, q.setQueue p a)

/-- The branches of `get` that do not wait: the high queue first, then the
normal one; `none` means that `get` has to wait. -/
def getReady (q : JobQueue) : Option (Option Job × JobPriority × JobQueue) :=
  match q.takeFrom .high with
  | some (item, q) => some (item, .high, q.decremented)
  | none =>
      match q.takeFrom .normal with
      | some (item, q) => some (item, .normal, q.decremented)
      | none => none

/-- `task_done(job)`: a job's queue is its priority's, the sentinel's is the one
`get` last took from in this task. -/
def taskDone (q : JobQueue) (job : Option Job) (lastQueue : Option JobPriority) : JobQueue :=
  match job, lastQueue with
  | some job, _ => q.setQueue job.priority (q.queue job.priority).taskDone
  | none, some p => q.setQueue p (q.queue p).taskDone
  | none, none => q

/-- `task_done(job)` would raise `ValueError`. -/
def taskDoneRaises (q : JobQueue) (job : Option Job) (lastQueue : Option JobPriority) : Bool :=
  match job, lastQueue with
  | some job, _ => (q.queue job.priority).unfinished == 0
  | none, some p => (q.queue p).unfinished == 0
  | none, none => false

/-- `drain`, with the numbers it reports. -/
def drain (q : JobQueue) : (Nat × Nat) × JobQueue :=
  let (high, drainedHigh) := q.highQueue.drainAll
  let (normal, drainedNormal) := q.normalQueue.drainAll
  ((drainedHigh, drainedNormal), { q with highQueue := high, normalQueue := normal, size := 0 })

/-! ## fields an operation leaves alone -/

@[simp] theorem queue_setQueue_same (q : JobQueue) (p : JobPriority)
    (a : AsyncQueue (Option Job)) : (q.setQueue p a).queue p = a := by cases p <;> rfl

@[simp] theorem size_decremented (q : JobQueue) : q.decremented.size = q.size - 1 := rfl

@[simp] theorem size_setQueue (q : JobQueue) (p : JobPriority) (a : AsyncQueue (Option Job)) :
    (q.setQueue p a).size = q.size := by cases p <;> rfl

/-- The parameters and the deduplicator: only `seenCheck` changes any of them. -/
def frame (q : JobQueue) : Int × String × Deduplicator := (q.maxSize, q.fullPolicy, q.deduplicator)

@[simp] theorem frame_setQueue (q : JobQueue) (p : JobPriority) (a : AsyncQueue (Option Job)) :
    (q.setQueue p a).frame = q.frame := by cases p <;> rfl

@[simp] theorem frame_counted (q : JobQueue) : q.counted.frame = q.frame := rfl

@[simp] theorem frame_decremented (q : JobQueue) : q.decremented.frame = q.frame := rfl

@[simp] theorem frame_put (q : JobQueue) (job : Job) : (q.put job).frame = q.frame :=
  q.frame_setQueue _ _

@[simp] theorem frame_dropOldest (q : JobQueue) : q.dropOldest.frame = q.frame := by
  unfold dropOldest
  split
  · rfl
  · split <;> rfl

@[simp] theorem frame_enqueueLocked (q : JobQueue) (job : Job) :
    (q.enqueueLocked job).2.frame = q.frame := by
  unfold enqueueLocked
  split
  · split
    · simp
    · rfl
  · simp

@[simp] theorem frame_taskDone (q : JobQueue) (job : Option Job) (last : Option JobPriority) :
    (q.taskDone job last).frame = q.frame := by
  unfold taskDone
  split <;> simp

/-- The bound belongs to the frame. -/
theorem maxSize_eq_of_frame {q q' : JobQueue} (h : q'.frame = q.frame) :
    q'.maxSize = q.maxSize := congrArg Prod.fst h

/-- So does the deduplicator. -/
theorem deduplicator_eq_of_frame {q q' : JobQueue} (h : q'.frame = q.frame) :
    q'.deduplicator = q.deduplicator := congrArg (fun f => f.2.2) h

/-! ## what each operation does to the two FIFOs -/

/-- Everything waiting, high queue first. -/
def waiting (q : JobQueue) : List (Option Job) := q.highQueue.items ++ q.normalQueue.items

/-- The item `_drop_oldest` would remove. -/
def victim (q : JobQueue) : Option (Option Job) :=
  q.normalQueue.items.head? <|> q.highQueue.items.head?

@[simp] theorem waiting_record (q : JobQueue) (f : StatsCollector → StatsCollector) :
    (q.record f).waiting = q.waiting := rfl

@[simp] theorem waiting_counted (q : JobQueue) : q.counted.waiting = q.waiting := rfl

@[simp] theorem waiting_decremented (q : JobQueue) : q.decremented.waiting = q.waiting := rfl

/-- `_put` adds the job to what waits. -/
theorem waiting_put (q : JobQueue) (job : Job) :
    (q.put job).waiting.Perm (some job :: q.waiting) := by
  rw [put]
  cases job.priority with
  | high =>
      simp only [setQueue, queue, waiting, AsyncQueue.items_put, List.append_assoc]
      exact List.perm_middle
  | normal =>
      simp only [setQueue, queue, waiting, AsyncQueue.items_put, ← List.append_assoc]
      exact List.perm_append_singleton _ _

/-- `put_raw` adds the item. -/
theorem waiting_putRaw (q : JobQueue) (item : Option Job) :
    (q.putRaw item).waiting.Perm (item :: q.waiting) := by
  simp only [putRaw, waiting, AsyncQueue.items_put, List.append_assoc]
  exact List.perm_middle

/-- The oldest item of that priority is taken. -/
theorem takeFrom_eq_some {q q' : JobQueue} {p : JobPriority} {item : Option Job}
    (h : q.takeFrom p = some (item, q')) :
    ∃ a, (q.queue p).items = item :: a.items ∧ q' = q.setQueue p a := by
  obtain ⟨⟨item', a⟩, ha, heq⟩ := Option.map_eq_some_iff.mp h
  simp only [Prod.mk.injEq] at heq
  obtain ⟨rfl, rfl⟩ := heq
  exact ⟨a, AsyncQueue.items_of_getNowait ha, rfl⟩

/-- There is none to take from an empty queue only. -/
theorem takeFrom_eq_none_iff (q : JobQueue) (p : JobPriority) :
    q.takeFrom p = none ↔ (q.queue p).items = [] := by
  rw [takeFrom, Option.map_eq_none_iff, AsyncQueue.getNowait_eq_none_iff]

/-- Taking an item leaves the frame alone. -/
theorem frame_takeFrom {q q' : JobQueue} {p : JobPriority} {item : Option Job}
    (h : q.takeFrom p = some (item, q')) : q'.frame = q.frame := by
  obtain ⟨a, -, rfl⟩ := takeFrom_eq_some h
  simp

/-- And takes it from what waits. -/
theorem waiting_takeFrom {q q' : JobQueue} {p : JobPriority} {item : Option Job}
    (h : q.takeFrom p = some (item, q')) : q.waiting.Perm (item :: q'.waiting) := by
  obtain ⟨a, hitems, rfl⟩ := takeFrom_eq_some h
  cases p with
  | high =>
      simp only [queue] at hitems
      simp [waiting, setQueue, hitems]
  | normal =>
      simp only [queue] at hitems
      simp only [waiting, setQueue, hitems]
      exact List.perm_middle

/-- `getReady` takes from the high queue, or from the normal one when the high
one is empty, and decrements the counter. -/
theorem getReady_eq_some {q q' : JobQueue} {p : JobPriority} {item : Option Job}
    (h : q.getReady = some (item, p, q')) :
    ∃ m, q.takeFrom p = some (item, m) ∧ q' = m.decremented ∧
      (p = .normal → q.highQueue.items = []) := by
  unfold getReady at h
  split at h
  · next item' m hm =>
      simp only [Option.some.injEq, Prod.mk.injEq] at h
      obtain ⟨rfl, rfl, rfl⟩ := h
      exact ⟨m, hm, rfl, nofun⟩
  · next hnone =>
      split at h
      · next item' m hm =>
          simp only [Option.some.injEq, Prod.mk.injEq] at h
          obtain ⟨rfl, rfl, rfl⟩ := h
          exact ⟨m, hm, rfl, fun _ => (takeFrom_eq_none_iff q .high).mp hnone⟩
      · contradiction

/-- `_drop_oldest` removes its victim and decrements the counter, or does
nothing when nothing waits. -/
theorem dropOldest_spec (q : JobQueue) :
    match q.victim with
    | some item => q.waiting.Perm (item :: q.dropOldest.waiting) ∧ q.dropOldest.size = q.size - 1
    | none => q.waiting = [] ∧ q.dropOldest = q := by
  unfold dropOldest victim
  cases hn : q.normalQueue.discardOldest with
  | some p =>
      obtain ⟨item, normal⟩ := p
      have hitems := AsyncQueue.items_of_discardOldest hn
      simp only [hitems, List.head?_cons, Option.orElse_eq_orElse, Option.orElse_some]
      refine ⟨?_, rfl⟩
      simp only [waiting, hitems, record, decremented]
      exact List.perm_middle
  | none =>
      have hnil := (AsyncQueue.discardOldest_eq_none_iff _).mp hn
      simp only [hnil, List.head?_nil, Option.orElse_eq_orElse, Option.orElse_none]
      cases hh : q.highQueue.discardOldest with
      | some p =>
          obtain ⟨item, high⟩ := p
          have hitems := AsyncQueue.items_of_discardOldest hh
          simp only [hitems, List.head?_cons]
          exact ⟨by simp [waiting, hitems, record, decremented], rfl⟩
      | none =>
          have hnil' := (AsyncQueue.discardOldest_eq_none_iff _).mp hh
          simp [hnil', waiting, hnil]

@[simp] theorem waiting_taskDone (q : JobQueue) (job : Option Job) (last : Option JobPriority) :
    (q.taskDone job last).waiting = q.waiting := by
  unfold taskDone
  split
  · next job => cases job.priority <;> rfl
  · next p => cases p <;> rfl
  · rfl

@[simp] theorem items_queue_taskDone (q : JobQueue) (job : Option Job) (last : Option JobPriority)
    (p : JobPriority) : ((q.taskDone job last).queue p).items = (q.queue p).items := by
  unfold taskDone
  split
  · next job => cases job.priority <;> cases p <;> rfl
  · next p' => cases p' <;> cases p <;> rfl
  · rfl

@[simp] theorem waiting_drain (q : JobQueue) : q.drain.2.waiting = [] := by
  simp [drain, waiting]

@[simp] theorem size_drain (q : JobQueue) : q.drain.2.size = 0 := rfl

/-- `drain` reports how many items of each queue it removed. -/
theorem drain_reports (q : JobQueue) :
    q.drain.1 = (q.highQueue.items.length, q.normalQueue.items.length) := by
  simp [drain]

/-- A job goes to the end of the queue of its priority. -/
theorem queue_put (q : JobQueue) (job : Job) (p : JobPriority) :
    ((q.put job).queue p).items =
      (q.queue p).items ++ if job.priority = p then [some job] else [] := by
  rw [put]
  cases job.priority <;> cases p <;> simp [setQueue, queue]

/-- The other queue is as it was. -/
theorem queue_setQueue_ne (q : JobQueue) {p p' : JobPriority} (h : p' ≠ p)
    (a : AsyncQueue (Option Job)) : (q.setQueue p a).queue p' = q.queue p' := by
  cases p <;> cases p' <;> first | rfl | exact absurd rfl h

/-- `_drop_oldest` takes the head of one queue, or both are empty. -/
theorem dropOldest_queue (q : JobQueue) :
    (q.victim = none ∧ q.dropOldest = q) ∨
    ∃ p item, q.victim = some item ∧
      (q.queue p).items = item :: (q.dropOldest.queue p).items ∧
      ∀ p', p' ≠ p → (q.dropOldest.queue p').items = (q.queue p').items := by
  unfold dropOldest victim
  cases hn : q.normalQueue.discardOldest with
  | some r =>
      obtain ⟨item, normal⟩ := r
      have hitems := AsyncQueue.items_of_discardOldest hn
      refine .inr ⟨.normal, item, by simp [hitems], hitems, fun p' hp => ?_⟩
      cases p' with
      | high => rfl
      | normal => exact absurd rfl hp
  | none =>
      have hnil := (AsyncQueue.discardOldest_eq_none_iff _).mp hn
      cases hh : q.highQueue.discardOldest with
      | some r =>
          obtain ⟨item, high⟩ := r
          have hitems := AsyncQueue.items_of_discardOldest hh
          refine .inr ⟨.high, item, by simp [hitems, hnil], hitems, fun p' hp => ?_⟩
          cases p' with
          | high => exact absurd rfl hp
          | normal => rfl
      | none =>
          have hnil' := (AsyncQueue.discardOldest_eq_none_iff _).mp hh
          exact .inl ⟨by simp [hnil, hnil'], rfl⟩

/-- The duplicate check asks the deduplicator and touches nothing else but the
statistics. -/
theorem seenCheck_spec {q q' : JobQueue} {job : Job} {now : Instant} {duplicate : Bool}
    (h : q.seenCheck job now = (duplicate, q')) :
    (q.deduplicator.seen (some job.effectiveKey) now).1 = duplicate ∧
      q'.deduplicator = (q.deduplicator.seen (some job.effectiveKey) now).2 ∧
      q'.waiting = q.waiting ∧ q'.size = q.size ∧ q'.maxSize = q.maxSize := by
  simp only [seenCheck, Prod.mk.injEq] at h
  obtain ⟨rfl, rfl⟩ := h
  split <;> exact ⟨rfl, rfl, rfl, rfl, rfl⟩

/-- The check for duplicates touches no queue. -/
theorem queue_seenCheck {q q' : JobQueue} {job : Job} {now : Instant} {duplicate : Bool}
    (h : q.seenCheck job now = (duplicate, q')) (p : JobPriority) : q'.queue p = q.queue p := by
  simp only [seenCheck, Prod.mk.injEq] at h
  obtain ⟨rfl, rfl⟩ := h
  split <;> cases p <;> rfl

/-- The three ways `enqueue` ends.  The deduplicator has been asked in each of
them, so it has noted the key even of a job that is dropped. -/
theorem enqueue_cases (q : JobQueue) (job : Job) (now : Instant) :
    (q.enqueue job now).2.deduplicator =
        (q.deduplicator.seen (some job.effectiveKey) now).2 ∧
      (((q.enqueue job now).1 = .duplicate ∧
          (q.deduplicator.seen (some job.effectiveKey) now).1 = true ∧
          ∀ p, (q.enqueue job now).2.queue p = q.queue p) ∨
        ((q.enqueue job now).1 = .enqueued ∧
          (q.deduplicator.seen (some job.effectiveKey) now).1 = false ∧
          (q.isFull = true → q.fullPolicy = "drop_oldest")) ∨
        ((q.enqueue job now).1 = .dropped ∧
          (q.deduplicator.seen (some job.effectiveKey) now).1 = false ∧
          q.isFull = true ∧ q.fullPolicy ≠ "drop_oldest" ∧
          ∀ p, (q.enqueue job now).2.queue p = q.queue p)) := by
  cases hcheck : q.seenCheck job now with
  | mk duplicate m =>
      obtain ⟨hseen, hdedup, -⟩ := seenCheck_spec hcheck
      have hqueue := queue_seenCheck hcheck
      obtain ⟨hfull, hpolicy⟩ : m.isFull = q.isFull ∧ m.fullPolicy = q.fullPolicy := by
        simp only [seenCheck, Prod.mk.injEq] at hcheck
        obtain ⟨rfl, rfl⟩ := hcheck
        split <;> exact ⟨rfl, rfl⟩
      rw [hseen]
      cases duplicate with
      | true =>
          simp only [enqueue, hcheck]
          exact ⟨hdedup, .inl ⟨trivial, trivial, hqueue⟩⟩
      | false =>
          simp only [enqueue, hcheck]
          refine ⟨?_, .inr ?_⟩
          · rw [deduplicator_eq_of_frame (frame_enqueueLocked m job), hdedup]
          · rw [← hfull, ← hpolicy]
            unfold enqueueLocked
            by_cases hf : m.isFull
            · by_cases hp : m.fullPolicy = "drop_oldest"
              · exact .inl (by simp [hf, hp])
              · simp only [hf, hp, if_true, if_false]
                refine .inr ⟨trivial, trivial, trivial, hp, fun p => ?_⟩
                rw [← hqueue p]
                cases p <;> rfl
            · exact .inl (by simp [hf])

/-- What waits after `enqueue` waited before, or is the job it accepted. -/
theorem mem_waiting_enqueue {q : JobQueue} {job : Job} {now : Instant} {item : Option Job}
    (h : item ∈ (q.enqueue job now).2.waiting) :
    item ∈ q.waiting ∨ (item = some job ∧ (q.enqueue job now).1 = .enqueued) := by
  cases hcheck : q.seenCheck job now with
  | mk duplicate m =>
      obtain ⟨-, -, hwaiting, -⟩ := seenCheck_spec hcheck
      have hdrop : m.dropOldest.waiting ⊆ m.waiting := by
        have hspec := m.dropOldest_spec
        cases hv : m.victim with
        | some x =>
            rw [hv] at hspec
            exact fun y hy => hspec.1.mem_iff.mpr (List.mem_cons_of_mem _ hy)
        | none =>
            rw [hv] at hspec
            rw [hspec.2]
            exact List.Subset.refl _
      cases duplicate with
      | true =>
          simp only [enqueue, hcheck, hwaiting] at h
          exact .inl h
      | false =>
          simp only [enqueue, hcheck, enqueueLocked] at h ⊢
          rw [← hwaiting]
          split at h
          · split at h
            · next hfull hpolicy =>
                rw [waiting_counted] at h
                rcases List.mem_cons.mp ((waiting_put _ job).mem_iff.mp h) with rfl | h
                · exact .inr ⟨rfl, by simp [hfull, hpolicy]⟩
                · exact .inl (hdrop h)
            · exact .inl h
          · next hfull =>
              rw [waiting_counted] at h
              rcases List.mem_cons.mp ((waiting_put _ job).mem_iff.mp h) with rfl | h
              · exact .inr ⟨rfl, by simp [hfull]⟩
              · exact .inl h

end JobQueue

end RubicaBot
