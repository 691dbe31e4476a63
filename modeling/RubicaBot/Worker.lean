import Mathlib.Data.List.ReduceOption
import RubicaBot.Queue.Unfinished

/-!
# RubicaBot.Worker

`app/core/worker.py`: the `WorkerPool` on top of the job queue.

A worker task is one of the tasks that call `get`; after `get` returns it runs
on without suspending until it awaits the handler, or leaves its loop on a
sentinel.  The handler is code of its own that may take any time and may raise,
so it ends in a step of its own (`handled`).  `stop` puts one sentinel for each
task without suspending, and `asyncio.gather` lets it return once every task is
over.

`Sound` is the invariant of every run: a worker that is not in `get` has nothing
pending there, and each item a worker has received and not finished is owed one
`task_done`.  So no `task_done` raises and no worker crashes.
-/

namespace RubicaBot

open Transition

/-- The status of a worker, as `/health/queue` reports it. -/
structure WorkerStatus where
  workerId : Nat
  startedAt : Instant := 0
  lastJobAt : Option Instant := none
  lastErrorAt : Option Instant := none
  lastError : Option String := none
  processed : Nat := 0
  alive : Bool := true

/-- Where a task is in `_worker_loop`. -/
inductive WorkerPhase where
  /-- In `queue.get()`, or about to call it. -/
  | looping
  /-- In `handler(job)`. -/
  | handling (job : Job)
  /-- Left the loop on a sentinel. -/
  | exited
  /-- Ended by a `ValueError` of `task_done`. -/
  | crashed

namespace WorkerPhase

/-- The task has ended. -/
def ended : WorkerPhase → Bool
  | .exited => true
  | .crashed => true
  | _ => false

/-- The queue that waits for a `task_done` of the worker. -/
def owes : WorkerPhase → List JobPriority
  | .handling job => [job.priority]
  | _ => []

@[simp] theorem owes_looping : looping.owes = [] := rfl

@[simp] theorem owes_handling (job : Job) : (handling job).owes = [job.priority] := rfl

@[simp] theorem owes_exited : exited.owes = [] := rfl

end WorkerPhase

/-- A worker task: what it reports, and where it is. -/
structure Worker where
  status : WorkerStatus
  phase : WorkerPhase := .looping

/-- The pool and the queue it works on, worker `i` being task `i` there.  Besides
what the code has, the state remembers the jobs passed to the handler, newest
first, those accepted before `stop` was called, and whether it has returned. -/
structure WorkerPool where
  loop : Loop
  workers : List Worker
  passed : List Job := []
  acceptedBefore : Option (List Job) := none
  stopped : Bool := false

/-- The steps of the queue that are not a worker's own. -/
def Label.isExternal : Label → Bool
  | .enqueue _ _ => true
  | .lockAcquired _ => true
  | .drain => true
  | .childTakes _ _ => true
  | _ => false

namespace Loop

/-- `n` calls of `put_raw(None)`. -/
def putSentinels : Nat → Loop → Loop
  | 0, s => s
  | n + 1, s => putSentinels n { s with queue := s.queue.putRaw none, log := .put none :: s.log }

/-- `_last_queue` in task `i`. -/
def lastQueue (s : Loop) (i : Nat) : Option JobPriority := s.getters[i]? >>= Getter.lastQueue

end Loop

namespace Loop

/-- Sentinels are put without waking or answering anyone. -/
theorem putSentinels_getters (n : Nat) (s : Loop) :
    (s.putSentinels n).getters = s.getters ∧ (s.putSentinels n).returned = s.returned := by
  induction n generalizing s with
  | zero => exact ⟨rfl, rfl⟩
  | succ n ih => exact ih _

/-- The sentinels of `stop` are counted as unfinished when they are put. -/
theorem putSentinels_covers (n : Nat) {s : Loop} {owed : List JobPriority} (hc : s.Covers owed) :
    (s.putSentinels n).Covers owed := by
  induction n generalizing s with
  | zero => exact hc
  | succ n ih => exact ih ⟨hc.queue.putRaw, hc.heldBelongs⟩

end Loop

namespace WorkerPool

/-- One turn of the event loop, of the pool or of its queue. -/
inductive Label where
  | queue (l : RubicaBot.Label)
  | get (i : Nat)
  | resume (i : Nat) (winner : JobPriority)
  /-- Worker `i`'s handler returns, or raises `error` at some time. -/
  | handled (i : Nat) (error : Option (String × Instant)) (now : Instant)
  | stop
  | stopReturns

/-- The step of `get` that worker `i` takes. -/
def Label.own : Label → Option (Nat × RubicaBot.Label)
  | .get i => some (i, .get i)
  | .resume i winner => some (i, .resume i winner)
  | _ => none

/-- `WorkerPool(queue, handler, concurrency=…)` on a new queue, started. -/
def init (concurrency maxSize : Int) (fullPolicy : String) (ttl : ℚ) : WorkerPool where
  loop := Loop.init (max 1 concurrency).toNat maxSize fullPolicy ttl
  workers := (List.range (max 1 concurrency).toNat).map fun i => { status := { workerId := i } }

/-- `self.queue.task_done(job)` in worker `i`, which goes on as `next` unless the
call raises. -/
def taskDone (s : WorkerPool) (i : Nat) (job : Option Job) (next : Worker) : WorkerPool :=
  let last := s.loop.lastQueue i
  { s with
    loop := { s.loop with queue := s.loop.queue.taskDone job last }
    workers := s.workers.set i
      (if s.loop.queue.taskDoneRaises job last then { next with phase := .crashed } else next) }

/-- Worker `i` performs the step `l` of its `get`; when that returns, it goes on. -/
def advance (s : WorkerPool) (i : Nat) (l : RubicaBot.Label) : Option WorkerPool :=
  match s.workers[i]?, s.loop.step l with
  | some ⟨status, .looping⟩, some loop =>
      match s.loop.delivers l with
      | none => some { s with loop := loop }
      | some (some job, _) =>
          some { s with
            loop := loop
            workers := s.workers.set i ⟨status, .handling job⟩
            passed := job :: s.passed }
      | some (none, _) =>
          -- `if job is None`
          let left : Worker := ⟨{ status with alive := false }, .exited⟩
          some (({ s with loop := loop } : WorkerPool).taskDone i none left)
  | _, _ => none

/-- The `except` and the `finally` clause of the loop on the status. -/
def finished (status : WorkerStatus) (error : Option (String × Instant)) (now : Instant) :
    WorkerStatus :=
  let status := match error with
    | some (message, failedAt) =>
        { status with lastError := some message, lastErrorAt := some failedAt }
    | none => status
  { status with processed := status.processed + 1, lastJobAt := some now }

/-- `self.stats.record_dispatch(…)`; the pool and its queue share the collector. -/
def recordDispatch (s : WorkerPool) (error : Bool) : WorkerPool :=
  { s with loop := { s.loop with queue := s.loop.queue.record (·.recordDispatch error) } }

/-- A turn of the event loop.  A label that names no turn that can be taken now gives `none`. -/
def step (s : WorkerPool) : Label → Option WorkerPool
  | .queue l =>
      if l.isExternal then
        match s.loop.step l with
        | some loop => some { s with loop := loop }
        | none => none
      else none
  | .get i => s.advance i (.get i)
  | .resume i winner => s.advance i (.resume i winner)
  | .handled i error now =>
      match s.workers[i]? with
      | some ⟨status, .handling job⟩ =>
          let next : Worker := ⟨finished status error now, .looping⟩
          some ((s.recordDispatch error.isSome).taskDone i (some job) next)
      | _ => none
  | .stop =>
      match s.acceptedBefore with
      | none =>
          some { s with
            loop := s.loop.putSentinels s.workers.length
            acceptedBefore := some s.loop.acceptedJobs }
      | some _ => none
  | .stopReturns =>
      if s.acceptedBefore.isSome ∧ s.workers.all (·.phase.ended) then
        some { s with stopped := true }
      else none

/-! ## what one step can be -/

/-- The branches of `step`, each with its guard. -/
inductive Step (s : WorkerPool) : Label → WorkerPool → Prop where
  | queue (l : RubicaBot.Label) (loop : Loop) (hl : l.isExternal = true)
      (hstep : s.loop.step l = some loop) : Step s (.queue l) { s with loop := loop }
  | waits (lab : Label) (i : Nat) (l : RubicaBot.Label) (hown : lab.own = some (i, l))
      (status : WorkerStatus) (loop : Loop) (hworker : s.workers[i]? = some ⟨status, .looping⟩)
      (hstep : s.loop.step l = some loop) (hdel : s.loop.delivers l = none) :
      Step s lab { s with loop := loop }
  | job (lab : Label) (i : Nat) (l : RubicaBot.Label) (hown : lab.own = some (i, l))
      (status : WorkerStatus) (loop : Loop) (hworker : s.workers[i]? = some ⟨status, .looping⟩)
      (hstep : s.loop.step l = some loop) (job : Job) (p : JobPriority)
      (hdel : s.loop.delivers l = some (some job, p)) :
      Step s lab
        { s with
          loop := loop
          workers := s.workers.set i ⟨status, .handling job⟩
          passed := job :: s.passed }
  | sentinel (lab : Label) (i : Nat) (l : RubicaBot.Label) (hown : lab.own = some (i, l))
      (status : WorkerStatus) (loop : Loop) (hworker : s.workers[i]? = some ⟨status, .looping⟩)
      (hstep : s.loop.step l = some loop) (p : JobPriority)
      (hdel : s.loop.delivers l = some (none, p)) :
      Step s lab
        (({ s with loop := loop } : WorkerPool).taskDone i none
          ⟨{ status with alive := false }, .exited⟩)
  | handled (i : Nat) (error : Option (String × Instant)) (now : Instant) (status : WorkerStatus)
      (job : Job) (hworker : s.workers[i]? = some ⟨status, .handling job⟩) :
      Step s (.handled i error now)
        ((s.recordDispatch error.isSome).taskDone i (some job)
          ⟨finished status error now, .looping⟩)
  | stop (hbefore : s.acceptedBefore = none) :
      Step s .stop
        { s with
          loop := s.loop.putSentinels s.workers.length
          acceptedBefore := some s.loop.acceptedJobs }
  | stopReturns (hbefore : s.acceptedBefore.isSome = true)
      (hended : s.workers.all (·.phase.ended) = true) :
      Step s .stopReturns { s with stopped := true }

/-- A worker calls `get` itself. -/
theorem Label.caller_of_own {lab : Label} {i : Nat} {l : RubicaBot.Label}
    (h : lab.own = some (i, l)) : l.caller = some i := by
  cases lab <;> cases h <;> rfl

/-- A worker's step of `get` is one of three branches. -/
theorem Step.of_advance {s s' : WorkerPool} {lab : Label} {i : Nat} {l : RubicaBot.Label}
    (hown : lab.own = some (i, l)) (h : s.advance i l = some s') : Step s lab s' := by
  unfold advance at h
  split at h
  · next status loop hworker hstep =>
      split at h
      · next hdel => cases h; exact .waits lab i l hown status loop hworker hstep hdel
      · next job p hdel => cases h; exact .job lab i l hown status loop hworker hstep job p hdel
      · next p hdel => cases h; exact .sentinel lab i l hown status loop hworker hstep p hdel
  · contradiction

/-- **Inversion.** -/
theorem Step.of_step {s s' : WorkerPool} {lab : Label} (h : s.step lab = some s') :
    Step s lab s' := by
  cases lab with
  | queue l =>
      simp only [step] at h
      split at h
      · next hl =>
          split at h
          · next loop hstep => cases h; exact .queue l loop hl hstep
          · contradiction
      · contradiction
  | get i => exact .of_advance rfl h
  | resume i winner => exact .of_advance rfl h
  | handled i error now =>
      simp only [step] at h
      split at h
      · next status job hworker => cases h; exact .handled i error now status job hworker
      · contradiction
  | stop =>
      simp only [step] at h
      split at h
      · next hbefore => cases h; exact .stop hbefore
      · contradiction
  | stopReturns =>
      simp only [step] at h
      split at h
      · next hguard => cases h; exact .stopReturns hguard.1 hguard.2
      · contradiction

/-! ## what every run keeps -/

/-- The `task_done` calls the workers owe. -/
def owed (s : WorkerPool) : List JobPriority := s.workers.flatMap (·.phase.owes)

/-- The invariant of every run. -/
structure Sound (s : WorkerPool) : Prop where
  covers : s.loop.Covers s.owed
  idle : ∀ i w, s.workers[i]? = some w → w.phase ≠ .looping → s.loop.IdleAt i
  tasks : s.loop.getters.length = s.workers.length
  passed : s.loop.returned.reduceOption = s.passed
  alive : ∀ w ∈ s.workers, w.phase ≠ .crashed
  received : ∀ w ∈ s.workers, w.phase = .exited → none ∈ s.loop.returned

/-- Replacing one worker exchanges what it owes. -/
theorem count_owed_set {s : WorkerPool} {i : Nat} {w : Worker} (h : s.workers[i]? = some w)
    (w' : Worker) (p : JobPriority) :
    ((s.workers.set i w').flatMap (·.phase.owes)).count p + w.phase.owes.count p =
      s.owed.count p + w'.phase.owes.count p :=
  countP_flatMap_set (· == p) (fun w : Worker => w.phase.owes) h

/-- A call of `task_done` that is owed lets the worker go on as `next`. -/
theorem taskDone_eq {s : WorkerPool} {i : Nat} {job : Option Job} (next : Worker)
    (h : s.loop.queue.taskDoneRaises job (s.loop.lastQueue i) = false) :
    s.taskDone i job next =
      { s with
        loop := { s.loop with queue := s.loop.queue.taskDone job (s.loop.lastQueue i) }
        workers := s.workers.set i next } := by
  simp [taskDone, h]

/-- The other workers go on as they were. -/
theorem workers_taskDone_ne (s : WorkerPool) {i j : Nat} (hj : j ≠ i) (job : Option Job)
    (next : Worker) : (s.taskDone i job next).workers[j]? = s.workers[j]? :=
  List.getElem?_set_ne hj.symm

/-- The worker goes on as `next`, or has crashed. -/
theorem mem_workers_taskDone {s : WorkerPool} {i : Nat} {w : Worker} (h : s.workers[i]? = some w)
    (job : Option Job) (next : Worker) :
    ∃ w' ∈ (s.taskDone i job next).workers, w' = next ∨ w'.phase = .crashed := by
  obtain ⟨hi, -⟩ := List.getElem?_eq_some_iff.mp h
  refine ⟨_, List.mem_set hi _, ?_⟩
  split
  · exact .inr rfl
  · exact .inl rfl

/-- What holds of every worker still does, if it holds of the new one. -/
theorem mem_set_imp {s : WorkerPool} {i : Nat} {next : Worker} {P : Worker → Prop}
    (hnext : P next) (h : ∀ w ∈ s.workers, P w) : ∀ w ∈ s.workers.set i next, P w := by
  intro w hw
  rcases List.mem_or_eq_of_mem_set hw with hw | rfl
  · exact h w hw
  · exact hnext

/-- A worker that is not in `get` is idle there, whatever step the others take. -/
theorem Sound.idle_of_step {s : WorkerPool} (hs : s.Sound) {l : RubicaBot.Label} {loop : Loop}
    (hstep : s.loop.step l = some loop) {j : Nat} {w : Worker} (hw : s.workers[j]? = some w)
    (hphase : w.phase ≠ .looping) (hcall : l.caller ≠ some j) : loop.IdleAt j :=
  Loop.step_idleAt (hs.idle j w hw hphase) hcall hstep

/-- The same when worker `i`, which takes the step, is replaced. -/
theorem Sound.idle_of_set {s : WorkerPool} (hs : s.Sound) {l : RubicaBot.Label} {loop : Loop}
    {i : Nat} {next : Worker} {p : JobPriority} (hstep : s.loop.step l = some loop)
    (hcall : l.caller = some i) (hgetter : loop.getters[i]? = some ⟨.idle, some p⟩) :
    ∀ j w, (s.workers.set i next)[j]? = some w → w.phase ≠ .looping → loop.IdleAt j := by
  intro j w hw hphase
  by_cases hij : i = j
  · subst hij
    intro g hg
    rw [hgetter, Option.mem_def, Option.some.injEq] at hg
    rw [← hg]
  · rw [List.getElem?_set_ne hij] at hw
    exact hs.idle_of_step hstep hw hphase (by rw [hcall]; exact fun h => hij (Option.some.inj h))

/-- What comes from outside is called by no worker. -/
theorem isExternal_caller {l : RubicaBot.Label} (h : l.isExternal = true) : l.caller = none := by
  cases l <;> first | rfl | cases h

/-- Nobody outside calls `task_done`. -/
theorem ne_taskDone_of_isExternal {l : RubicaBot.Label} (h : l.isExternal = true) :
    ∀ i job, l ≠ .taskDone i job := by
  rintro i job rfl
  cases h

/-- A turn in `get` is no `task_done`. -/
theorem ne_taskDone_of_caller {l : RubicaBot.Label} {i : Nat} (h : l.caller = some i) :
    ∀ j job, l ≠ .taskDone j job := by
  rintro j job rfl
  cases h

/-- A step of the queue that no worker takes. -/
theorem Sound.queue_step {s : WorkerPool} (hs : s.Sound) {l : RubicaBot.Label} {loop : Loop}
    (hcall : l.caller = none) (hdel : s.loop.delivers l = none)
    (hl : ∀ i job, l ≠ .taskDone i job) (hstep : s.loop.step l = some loop) :
    ({ s with loop := loop } : WorkerPool).Sound := by
  obtain ⟨hcovers, -⟩ := Loop.step_covers hs.covers hl hstep
  obtain ⟨hret, -⟩ := Loop.step_delivers hstep
  rw [hdel] at hcovers hret
  refine ⟨hcovers, fun j w hw hphase => hs.idle_of_step hstep hw hphase (by simp [hcall]),
    (Loop.step_getters_length hstep).trans hs.tasks, ?_, hs.alive, ?_⟩
  · rw [hret]
    exact hs.passed
  · rw [hret]
    exact hs.received

/-- **Step lemma.** -/
theorem step_sound {s s' : WorkerPool} {lab : Label} (hs : s.Sound) (h : s.step lab = some s') :
    s'.Sound := by
  cases Step.of_step h with
  | queue l loop hl hstep =>
      have hdel : s.loop.delivers l = none := by cases l <;> first | rfl | cases hl
      exact hs.queue_step (isExternal_caller hl) hdel (ne_taskDone_of_isExternal hl) hstep
  | waits lab i l hown status loop hworker hstep hdel =>
      have hcall := Label.caller_of_own hown
      obtain ⟨hcovers, -⟩ := Loop.step_covers hs.covers (ne_taskDone_of_caller hcall) hstep
      obtain ⟨hret, -⟩ := Loop.step_delivers hstep
      rw [hdel] at hcovers hret
      refine ⟨hcovers, fun j w hw hphase => ?_, (Loop.step_getters_length hstep).trans hs.tasks,
        ?_, hs.alive, ?_⟩
      · refine hs.idle_of_step hstep hw hphase fun hj => ?_
        rw [hcall, Option.some.injEq] at hj
        subst hj
        rw [hworker, Option.some.injEq] at hw
        subst hw
        exact hphase rfl
      · rw [hret]
        exact hs.passed
      · rw [hret]
        exact hs.received
  | job lab i l hown status loop hworker hstep job p hdel =>
      have hcall := Label.caller_of_own hown
      obtain ⟨hcovers, hbelongs⟩ := Loop.step_covers hs.covers (ne_taskDone_of_caller hcall) hstep
      obtain ⟨hret, hgetter⟩ := Loop.step_delivers hstep
      have hp : job.priority = p := hbelongs _ _ hdel
      rw [hdel] at hcovers hret
      refine ⟨hcovers.of_count fun p' => ?_, hs.idle_of_set hstep hcall (hgetter i _ p hcall hdel),
        ?_, ?_, mem_set_imp nofun hs.alive, mem_set_imp nofun fun w hw hphase => ?_⟩
      · have hcount := count_owed_set hworker ⟨status, .handling job⟩ p'
        simp only [WorkerPhase.owes_looping, WorkerPhase.owes_handling, List.count_nil,
          Nat.add_zero] at hcount
        rw [owed, hcount, List.count_append, hp, Nat.add_comm]
        rfl
      · rw [List.length_set, Loop.step_getters_length hstep, hs.tasks]
      · rw [hret]
        exact congrArg (List.cons job) hs.passed
      · rw [hret]
        exact List.mem_append_right _ (hs.received w hw hphase)
  | sentinel lab i l hown status loop hworker hstep p hdel =>
      have hcall := Label.caller_of_own hown
      obtain ⟨hcovers, -⟩ := Loop.step_covers hs.covers (ne_taskDone_of_caller hcall) hstep
      obtain ⟨hret, hgetter⟩ := Loop.step_delivers hstep
      have hget := hgetter i _ p hcall hdel
      have hlast : loop.lastQueue i = some p := by simp [Loop.lastQueue, hget]
      rw [hdel] at hcovers hret
      -- the worker owes the `task_done` of the sentinel and of nothing else
      have howed (p' : JobPriority) : (List.map Prod.snd (some ((none : Option Job), p)).toList ++
          s.owed).count p' = s.owed.count p' + if p' = p then 1 else 0 := by
        simp [List.count_cons, eq_comm (a := p)]
      obtain ⟨hraises, hpaid⟩ :=
        hcovers.taskDone p none (loop.lastQueue i) howed (.inr ⟨rfl, hlast⟩)
      rw [taskDone_eq _ hraises]
      have hidle : ∀ j w, (s.workers.set i ⟨{ status with alive := false }, .exited⟩)[j]? = some w →
          w.phase ≠ .looping → loop.IdleAt j := hs.idle_of_set hstep hcall hget
      refine ⟨hpaid.of_count fun p' => ?_, hidle, ?_, ?_, mem_set_imp nofun hs.alive, ?_⟩
      · have hcount := count_owed_set hworker ⟨{ status with alive := false }, .exited⟩ p'
        simp only [WorkerPhase.owes_looping, WorkerPhase.owes_exited, List.count_nil,
          Nat.add_zero] at hcount
        exact hcount
      · rw [List.length_set]
        exact (Loop.step_getters_length hstep).trans hs.tasks
      · change loop.returned.reduceOption = s.passed
        rw [hret]
        exact hs.passed
      · change ∀ w ∈ _, _ → none ∈ loop.returned
        rw [hret]
        exact fun _ _ _ => List.mem_cons_self
  | handled i error now status job hworker =>
      have howed (p' : JobPriority) : s.owed.count p' =
          ((s.workers.set i ⟨finished status error now, .looping⟩).flatMap
            (·.phase.owes)).count p' + if p' = job.priority then 1 else 0 := by
        have hcount := count_owed_set hworker ⟨finished status error now, .looping⟩ p'
        simp only [WorkerPhase.owes_looping, WorkerPhase.owes_handling, List.count_nil,
          Nat.add_zero, List.count_singleton, beq_iff_eq] at hcount
        simp only [← hcount, eq_comm (a := p')]
      have hcovers : (s.recordDispatch error.isSome).loop.Covers s.owed :=
        ⟨hs.covers.queue.of_queue_eq fun p => by cases p <;> rfl, hs.covers.heldBelongs⟩
      obtain ⟨hraises, hpaid⟩ := hcovers.taskDone job.priority (some job)
        ((s.recordDispatch error.isSome).loop.lastQueue i) howed (.inl ⟨job, rfl, rfl⟩)
      rw [taskDone_eq _ hraises]
      refine ⟨hpaid, fun j w hw hphase => ?_, ?_, hs.passed, mem_set_imp nofun hs.alive,
        mem_set_imp nofun hs.received⟩
      · by_cases hij : i = j
        · subst hij
          exact hs.idle i _ hworker nofun
        · exact hs.idle j w (by rwa [List.getElem?_set_ne hij] at hw) hphase
      · rw [List.length_set]
        exact hs.tasks
  | stop hbefore =>
      obtain ⟨hgetters, hret⟩ := Loop.putSentinels_getters s.workers.length s.loop
      refine ⟨Loop.putSentinels_covers _ hs.covers, ?_, ?_, ?_, hs.alive, ?_⟩
      · simp only [Loop.IdleAt, hgetters]
        exact hs.idle
      · simp only [hgetters]
        exact hs.tasks
      · simp only [hret]
        exact hs.passed
      · simp only [hret]
        exact hs.received
  | stopReturns hbefore hended =>
      exact ⟨hs.covers, hs.idle, hs.tasks, hs.passed, hs.alive, hs.received⟩

/-- A new pool owes nothing. -/
theorem init_sound (concurrency maxSize : Int) (fullPolicy : String) (ttl : ℚ) :
    (init concurrency maxSize fullPolicy ttl).Sound := by
  have hlooping : ∀ w ∈ (init concurrency maxSize fullPolicy ttl).workers, w.phase = .looping := by
    intro w hw
    obtain ⟨i, -, rfl⟩ := List.mem_map.mp hw
    rfl
  have howed : (init concurrency maxSize fullPolicy ttl).owed = [] := by
    rw [owed, List.flatMap_eq_nil_iff]
    intro w hw
    rw [hlooping w hw, WorkerPhase.owes_looping]
  refine ⟨?_, fun i w hw hphase => ?_, ?_, rfl, fun w hw => ?_, fun w hw hphase => ?_⟩
  · rw [howed]
    exact Loop.init_covers _ _ _ _
  · exact absurd (hlooping w (List.mem_of_getElem? hw)) hphase
  · simp [init, Loop.init]
  · rw [hlooping w hw]
    intro hcrashed
    cases hcrashed
  · rw [hlooping w hw] at hphase
    cases hphase

/-- **No worker crashes.**  In every run of workers, enqueues, drains and `stop`,
no `task_done` raises. -/
theorem run_sound {concurrency maxSize : Int} {fullPolicy : String} {ttl : ℚ} {ls : List Label}
    {s : WorkerPool} (h : run step (init concurrency maxSize fullPolicy ttl) ls = some s) :
    s.Sound :=
  run_invariant_of_step (fun _ _ _ hs hstep => step_sound hs hstep)
    (init_sound concurrency maxSize fullPolicy ttl) h

end WorkerPool

end RubicaBot
