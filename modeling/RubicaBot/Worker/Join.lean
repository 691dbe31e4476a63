import RubicaBot.Queue.Settlement
import RubicaBot.Worker

/-!
# RubicaBot.Worker.Join

`JobQueue.join()` beside a running worker pool.

`join` gathers `high_queue.join()` and `normal_queue.join()`, each a task of its
own: when it first runs it returns at once if nothing is unfinished in its
queue, else it waits for the event that `task_done` sets when the count falls to
zero.  The event may be cleared again before the task resumes, which does not
send it back to waiting; so the two tasks can finish at different moments, and a
critical section of `enqueue` that evicts has such a moment in its middle.

`JoinedPool` is the pool with its calls of `join`.  Nothing is ever unfinished
in a queue without its jobs being settled (`Tally`), so each task that finishes
vouches for the jobs of its priority accepted before (`Vouched`), and `join` for
all of them.
-/

namespace RubicaBot

open Transition

/-! ## what the workers hold -/

/-- The job in the handler. -/
def WorkerPhase.jobs : WorkerPhase → List Job
  | .handling job => [job]
  | _ => []

/-- Replacing one entry exchanges its share of a `flatMap`, as lists. -/
theorem flatMap_set_perm {α β : Type} (f : α → List β) {xs : List α} {i : Nat} {x y : α}
    (h : xs[i]? = some x) :
    ((xs.set i y).flatMap f ++ f x).Perm (xs.flatMap f ++ f y) := by
  classical
  refine List.perm_iff_count.mpr fun b => ?_
  rw [List.count_append, List.count_append]
  exact countP_flatMap_set (· == b) f h

namespace Loop

/-- The log only grows. -/
theorem step_log {s s' : Loop} {l : Label} (h : s.step l = some s') : s.log <:+ s'.log := by
  cases Step.of_step h with
  | locked i call hcall =>
      exact (List.suffix_append _ _).trans (List.suffix_cons _ _)
  | dropOldest => exact List.suffix_append _ _
  | drain => exact List.suffix_append _ _
  | duplicate job now q hclock hseen => exact List.suffix_cons _ _
  | putRaw => exact List.suffix_cons _ _
  | getReady i lastQueue item p q hgetter hready => exact List.suffix_cons _ _
  | resume i winner phase lastQueue item hgetter htask => exact List.suffix_cons _ _
  | _ => exact List.suffix_refl _

/-- What has been accepted stays accepted. -/
theorem acceptedJobs_sublist {s s' : Loop} (h : s.log <:+ s'.log) :
    s.acceptedJobs.Sublist s'.acceptedJobs :=
  (h.sublist.filterMap _).map _

/-- What is settled stays settled. -/
theorem settled_sublist {s s' : Loop} {done done' : List (Option Job)} (h : s.log <:+ s'.log)
    (hdone : done <:+ done') : (s.settled done).Sublist (s'.settled done') := by
  have hlog := h.sublist
  exact ((hdone.sublist.filterMap _).append ((hlog.filterMap _).filterMap _)).append
    ((hlog.filterMap _).filterMap _)

/-- The counters and the statistics apart, the queue decides. -/
theorem Tally.of_queue_eq {s : Loop} {done busy : List (Option Job)} (h : s.Tally done busy)
    {q : JobQueue} (hq : ∀ p, q.queue p = s.queue.queue p) :
    ({ s with queue := q } : Loop).Tally done busy := by
  obtain ⟨lost, hlost⟩ := h.conserved
  have hhigh : q.highQueue = s.queue.highQueue := hq .high
  have hnormal : q.normalQueue = s.queue.normalQueue := hq .normal
  refine ⟨fun p => ?_, h.returned, ⟨lost, ?_⟩, h.accepted⟩
  · rw [hq p]
    exact h.unfinished p
  · rw [Conserved, places, JobQueue.waiting, hhigh, hnormal]
    exact hlost

/-- The sentinels of `stop` keep the tally. -/
theorem putSentinels_tally (n : Nat) {s : Loop} {owed : List JobPriority}
    {done busy : List (Option Job)} (hc : s.Covers owed) (ht : s.Tally done busy) :
    (s.putSentinels n).Tally done busy := by
  induction n generalizing s with
  | zero => exact ht
  | succ n ih =>
      have hstep : s.step .putRaw =
          some { s with queue := s.queue.putRaw none, log := .put none :: s.log } := rfl
      have hnot : ∀ i job, Label.putRaw ≠ .taskDone i job := fun _ _ h => by cases h
      exact ih (step_covers hc hnot hstep).1 (step_tally hc ht hnot hstep)

/-- And the log grows. -/
theorem putSentinels_log (n : Nat) (s : Loop) : s.log <:+ (s.putSentinels n).log := by
  induction n generalizing s with
  | zero => exact List.suffix_refl _
  | succ n ih =>
      exact (List.suffix_cons _ _).trans
        (ih { s with queue := s.queue.putRaw none, log := .put none :: s.log })

end Loop

namespace WorkerPool

/-- The jobs that are in a handler. -/
def handling (s : WorkerPool) : List Job := s.workers.flatMap (·.phase.jobs)

/-- The items received and not finished. -/
def busy (s : WorkerPool) : List (Option Job) := s.handling.map some

/-- The items whose `task_done` the step calls. -/
def completes (s : WorkerPool) : Label → List (Option Job)
  | .handled i _ _ =>
      match s.workers[i]? with
      | some ⟨_, .handling job⟩ => [some job]
      | _ => []
  | lab =>
      match lab.own with
      | some (_, l) =>
          match s.loop.delivers l with
          | some (none, _) => [none]
          | _ => []
      | none => []

/-- Each job in a handler is owed one `task_done`, on its own queue. -/
theorem owed_eq (s : WorkerPool) : s.owed = s.handling.map Job.priority := by
  rw [owed, handling, List.map_flatMap]
  congr 1
  funext w
  cases w.phase <;> rfl

/-- One worker changes, and with it what is busy. -/
theorem busy_set {s : WorkerPool} {i : Nat} {w : Worker} (h : s.workers[i]? = some w)
    (w' : Worker) :
    (((s.workers.set i w').flatMap (·.phase.jobs)).map some ++ w.phase.jobs.map some).Perm
      (s.busy ++ w'.phase.jobs.map some) := by
  have hperm := (flatMap_set_perm (fun w : Worker => w.phase.jobs) (y := w') h).map some
  rw [List.map_append, List.map_append] at hperm
  exact hperm

/-- A turn of `get` completes an item only if it is a sentinel. -/
theorem completes_own {s : WorkerPool} {lab : Label} {i : Nat} {l : RubicaBot.Label}
    (h : lab.own = some (i, l)) :
    s.completes lab =
      match s.loop.delivers l with
      | some (none, _) => [none]
      | _ => [] := by
  cases lab <;> cases h <;> rfl

/-- In a sound pool no `task_done` has raised. -/
theorem not_raises_of_sound {s : WorkerPool} {i : Nat} {w next : Worker} {job : Option Job}
    (hw : s.workers[i]? = some w) (hs : (s.taskDone i job next).Sound) :
    s.loop.queue.taskDoneRaises job (s.loop.lastQueue i) = false := by
  rw [← Bool.not_eq_true]
  intro hraises
  obtain ⟨hi, -⟩ := List.getElem?_eq_some_iff.mp hw
  have hmem : ({ next with phase := .crashed } : Worker) ∈ (s.taskDone i job next).workers := by
    simp only [taskDone, hraises, if_true]
    exact List.mem_set hi _
  exact hs.alive _ hmem rfl

/-- **Step lemma.**  Every step of the pool keeps the tally. -/
theorem step_tally {s s' : WorkerPool} {lab : Label} {done : List (Option Job)} (hs : s.Sound)
    (ht : s.loop.Tally done s.busy) (h : s.step lab = some s') :
    s'.loop.Tally (s.completes lab ++ done) s'.busy := by
  have hs' := step_sound hs h
  cases Step.of_step h with
  | queue l loop hl hstep =>
      have hdel : s.loop.delivers l = none := by cases l <;> first | rfl | cases hl
      have htally := Loop.step_tally hs.covers ht (ne_taskDone_of_isExternal hl) hstep
      rw [hdel] at htally
      exact htally
  | waits lab i l hown status loop hworker hstep hdel =>
      have hcall := Label.caller_of_own hown
      have htally := Loop.step_tally hs.covers ht (ne_taskDone_of_caller hcall) hstep
      rw [hdel] at htally
      rw [completes_own hown, hdel]
      exact htally
  | job lab i l hown status loop hworker hstep job p hdel =>
      have hcall := Label.caller_of_own hown
      have htally := Loop.step_tally hs.covers ht (ne_taskDone_of_caller hcall) hstep
      have hbusy := busy_set hworker ⟨status, .handling job⟩
      simp only [WorkerPhase.jobs, List.map_nil, List.append_nil, List.map_cons] at hbusy
      rw [hdel] at htally
      rw [completes_own hown, hdel]
      exact htally.of_perm (List.perm_append_comm.trans hbusy.symm)
  | sentinel lab i l hown status loop hworker hstep p hdel =>
      have hcall := Label.caller_of_own hown
      have htally := Loop.step_tally hs.covers ht (ne_taskDone_of_caller hcall) hstep
      obtain ⟨-, hbelongs⟩ := Loop.step_covers hs.covers (ne_taskDone_of_caller hcall) hstep
      obtain ⟨-, hgetter⟩ := Loop.step_delivers hstep
      have hhigh : p = .high := hbelongs _ _ hdel
      have hlast : loop.lastQueue i = some .high := by
        simp [Loop.lastQueue, hgetter i _ p hcall hdel, hhigh]
      have hraises := not_raises_of_sound (s := { s with loop := loop }) hworker hs'
      have hbusy := busy_set hworker ⟨{ status with alive := false }, .exited⟩
      simp only [WorkerPhase.jobs, List.map_nil, List.append_nil] at hbusy
      rw [hdel] at htally
      rw [completes_own hown, hdel, taskDone_eq _ hraises]
      exact (htally.taskDone hraises fun _ => hlast).of_perm hbusy.symm
  | handled i error now status job hworker =>
      have hcompletes : s.completes (.handled i error now) = [some job] := by
        simp [completes, hworker]
      have hraises := not_raises_of_sound (s := s.recordDispatch error.isSome) hworker hs'
      have hbusy := busy_set hworker ⟨finished status error now, .looping⟩
      simp only [WorkerPhase.jobs, List.map_nil, List.append_nil, List.map_cons] at hbusy
      have hrecord : (s.recordDispatch error.isSome).loop.Tally done s.busy :=
        ht.of_queue_eq fun p => by cases p <;> rfl
      rw [hcompletes, taskDone_eq _ hraises]
      have hnot : some job = none → (s.recordDispatch error.isSome).loop.lastQueue i =
          some .high := by
        intro hjob
        cases hjob
      exact (hrecord.of_perm (hbusy.symm.trans (List.perm_append_singleton _ _))).taskDone hraises
        hnot
  | stop hbefore => exact Loop.putSentinels_tally _ hs.covers ht
  | stopReturns hbefore hended => exact ht

/-- The log only grows. -/
theorem step_log {s s' : WorkerPool} {lab : Label} (h : s.step lab = some s') :
    s.loop.log <:+ s'.loop.log := by
  cases Step.of_step h with
  | queue l loop hl hstep => exact Loop.step_log hstep
  | waits lab i l hown status loop hworker hstep hdel => exact Loop.step_log hstep
  | job lab i l hown status loop hworker hstep job p hdel => exact Loop.step_log hstep
  | sentinel lab i l hown status loop hworker hstep p hdel =>
      have hlog := Loop.step_log hstep
      exact hlog
  | handled i error now status job hworker => exact List.suffix_refl _
  | stop hbefore => exact Loop.putSentinels_log _ _
  | stopReturns hbefore hended => exact List.suffix_refl _

end WorkerPool

/-! ## join -/

/-- A task of `gather`. -/
inductive JoinPhase where
  /-- Has not run yet. -/
  | created
  /-- Waits for the event. -/
  | waiting
  /-- Has returned, or will without waiting any more. -/
  | finished
  deriving DecidableEq, Repr

/-- Nothing is unfinished in queue `p`: the event is set. -/
def Loop.allDone (s : Loop) (p : JobPriority) : Bool := (s.queue.queue p).unfinished == 0

/-- A call of `join()`, with the jobs accepted before it. -/
structure JoinCall where
  acceptedBefore : List Job
  high : JoinPhase := .created
  normal : JoinPhase := .created
  returned : Bool := false

namespace JoinCall

/-- The phase of the task that joins one of the queues. -/
def phase (c : JoinCall) : JobPriority → JoinPhase
  | .high => c.high
  | .normal => c.normal

/-- With that phase replaced. -/
def setPhase (c : JoinCall) (p : JobPriority) (phase : JoinPhase) : JoinCall :=
  match p with
  | .high => { c with high := phase }
  | .normal => { c with normal := phase }

/-- A waiting task is woken if the event is set at one of the moments. -/
def wake (c : JoinCall) (moments : List Loop) (p : JobPriority) : JoinCall :=
  if c.phase p = .waiting ∧ moments.any (·.allDone p) then c.setPhase p .finished else c

end JoinCall

/-- The pool with the calls of `join`, and the items a worker has called
`task_done` for, newest first. -/
structure JoinedPool where
  pool : WorkerPool
  joins : List JoinCall := []
  done : List (Option Job) := []

/-- Steps of the queue that belong to no worker and no call of `enqueue`. -/
def Label.isDirect : Label → Bool
  | .putRaw => true
  | .dropOldest => true
  | _ => false

/-- The moments of a step at which a `task_done` has just been called, before the
last: an `enqueue` that evicts does so before it puts. -/
def WorkerPool.within (s : WorkerPool) : WorkerPool.Label → List Loop
  | .queue (.lockAcquired _) =>
      if s.loop.queue.isFull ∧ s.loop.queue.fullPolicy = "drop_oldest" then
        (s.loop.step .dropOldest).toList
      else []
  | _ => []

namespace JoinedPool

/-- One turn of the event loop, of the pool, of its queue, or of a call of `join`. -/
inductive Label where
  | pool (lab : WorkerPool.Label)
  /-- `put_raw(None)` or `_drop_oldest()`. -/
  | direct (l : RubicaBot.Label)
  | join
  /-- The task of call `j` for queue `p` runs for the first time. -/
  | runs (j : Nat) (p : JobPriority)
  | joinReturns (j : Nat)

/-- The pool, and no call of `join` yet. -/
def init (concurrency maxSize : Int) (fullPolicy : String) (ttl : ℚ) : JoinedPool where
  pool := .init concurrency maxSize fullPolicy ttl

/-- The pool moves on; the tasks that wait see its moments. -/
def advance (s : JoinedPool) (pool : WorkerPool) (moments : List Loop)
    (done : List (Option Job)) : JoinedPool where
  pool := pool
  joins := s.joins.map fun c => (c.wake moments .high).wake moments .normal
  done := done ++ s.done

/-- A turn of the event loop; the tasks that wait are woken by what it does to the queues. -/
def step (s : JoinedPool) : Label → Option JoinedPool
  | .pool lab =>
      match s.pool.step lab with
      | some pool =>
          some (s.advance pool (s.pool.within lab ++ [pool.loop]) (s.pool.completes lab))
      | none => none
  | .direct l =>
      if l.isDirect then
        match s.pool.loop.step l with
        | some loop => some (s.advance { s.pool with loop := loop } [loop] [])
        | none => none
      else none
  | .join => some { s with joins := s.joins ++ [{ acceptedBefore := s.pool.loop.acceptedJobs }] }
  | .runs j p =>
      match s.joins[j]? with
      | some c =>
          if c.phase p = .created then
            let phase := if s.pool.loop.allDone p then JoinPhase.finished else .waiting
            some { s with joins := s.joins.set j (c.setPhase p phase) }
          else none
      | none => none
  | .joinReturns j =>
      match s.joins[j]? with
      | some c =>
          if c.high = .finished ∧ c.normal = .finished then
            some { s with joins := s.joins.set j { c with returned := true } }
          else none
      | none => none

/-! ## what every run keeps -/

/-- A task that has finished vouches for the jobs of its priority, and `join` has
not returned before both have. -/
structure Vouched (s : JoinedPool) (c : JoinCall) : Prop where
  accepted : c.acceptedBefore.Subperm s.pool.loop.acceptedJobs
  finished : ∀ p, c.phase p = .finished →
    (c.acceptedBefore.filter (·.priority == p)).Subperm
      ((s.pool.loop.settled s.done).filter (·.priority == p))
  returned : c.returned = true → ∀ p, c.phase p = .finished

/-- The invariant: the queues owe what is being handled, and every call of `join` is vouched for.
-/
structure Sound (s : JoinedPool) : Prop where
  pool : s.pool.Sound
  tally : s.pool.loop.Tally s.done s.pool.busy
  vouched : ∀ c ∈ s.joins, s.Vouched c

/-- A moment on the way from `s` to `s'`: what is settled then is settled in the
end. -/
def Moment (s s' : JoinedPool) (m : Loop) : Prop :=
  s.pool.loop.log <:+ m.log ∧
    ∃ done busy, m.Tally done busy ∧ (m.settled done).Sublist (s'.pool.loop.settled s'.done)

/-- At a moment with nothing unfinished, the jobs of that priority accepted
before are settled. -/
theorem Moment.settled {s s' : JoinedPool} {m : Loop} (hm : Moment s s' m) {accepted : List Job}
    (ha : accepted.Subperm s.pool.loop.acceptedJobs) {p : JobPriority}
    (hdone : m.allDone p = true) :
    (accepted.filter (·.priority == p)).Subperm
      ((s'.pool.loop.settled s'.done).filter (·.priority == p)) := by
  obtain ⟨hlog, done, busy, htally, hsub⟩ := hm
  have hzero : (m.queue.queue p).unfinished = 0 := by simpa [Loop.allDone] using hdone
  have hall := htally.accepted_settled hzero
  have hgrow := (Loop.acceptedJobs_sublist hlog).subperm
  have hbefore := (ha.trans hgrow).filter (·.priority == p)
  have hafter := hsub.subperm.filter (·.priority == p)
  exact hbefore.trans (hall.subperm.trans hafter)

/-- What has been vouched for stays so: nothing settled is taken back. -/
theorem Vouched.mono {s s' : JoinedPool} {c : JoinCall} (hv : s.Vouched c)
    (hlog : s.pool.loop.log <:+ s'.pool.loop.log) (hdone : s.done <:+ s'.done) : s'.Vouched c := by
  have hsettled := (Loop.settled_sublist hlog hdone).subperm
  refine ⟨hv.accepted.trans (Loop.acceptedJobs_sublist hlog).subperm, fun p hp => ?_, hv.returned⟩
  exact (hv.finished p hp).trans (hsettled.filter _)

/-- Setting one task to a phase that vouches if it is `finished`. -/
theorem Vouched.setPhase {s : JoinedPool} {c : JoinCall} (hv : s.Vouched c) {p : JobPriority}
    (hopen : c.phase p ≠ .finished) (phase : JoinPhase)
    (h : phase = .finished → (c.acceptedBefore.filter (·.priority == p)).Subperm
      ((s.pool.loop.settled s.done).filter (·.priority == p))) :
    s.Vouched (c.setPhase p phase) := by
  have hnot : c.returned = false := by
    rw [← Bool.not_eq_true]
    exact fun hret => hopen (hv.returned hret p)
  have hfinished := hv.finished
  refine ⟨?_, fun p' hp' => ?_, fun hret => ?_⟩
  · cases p <;> exact hv.accepted
  · cases p <;> cases p' <;>
      first
      | exact h hp'
      | exact hfinished _ hp'
  · cases p <;> simp [JoinCall.setPhase, hnot] at hret

/-- Waking a task at one of the moments of a step. -/
theorem Vouched.wake {s s' : JoinedPool} {c : JoinCall} {moments : List Loop}
    (hv : s'.Vouched c) (ha : c.acceptedBefore.Subperm s.pool.loop.acceptedJobs)
    (hm : ∀ m ∈ moments, Moment s s' m) (p : JobPriority) :
    s'.Vouched (c.wake moments p) ∧
      (c.wake moments p).acceptedBefore = c.acceptedBefore := by
  unfold JoinCall.wake
  split
  · next hwake =>
      obtain ⟨hwaiting, hany⟩ := hwake
      obtain ⟨m, hmem, hdone⟩ := List.any_eq_true.mp hany
      refine ⟨hv.setPhase ?_ .finished fun _ => (hm m hmem).settled ha hdone, ?_⟩
      · rw [hwaiting]
        exact fun h => by cases h
      · cases p <;> rfl
  · exact ⟨hv, rfl⟩

/-- The pool moves on along moments. -/
theorem Sound.advance {s : JoinedPool} (hs : s.Sound) {pool : WorkerPool} {moments : List Loop}
    {done : List (Option Job)} (hpool : pool.Sound)
    (htally : pool.loop.Tally (done ++ s.done) pool.busy)
    (hlog : s.pool.loop.log <:+ pool.loop.log)
    (hm : ∀ m ∈ moments, Moment s (s.advance pool moments done) m) :
    (s.advance pool moments done).Sound := by
  refine ⟨hpool, htally, fun c' hc' => ?_⟩
  obtain ⟨c, hc, rfl⟩ := List.mem_map.mp hc'
  have hv := hs.vouched c hc
  have hdone : s.done <:+ (s.advance pool moments done).done := List.suffix_append _ _
  have hgrown : (s.advance pool moments done).Vouched c := hv.mono hlog hdone
  obtain ⟨hhigh, hsame⟩ := hgrown.wake hv.accepted hm .high
  have haccepted : (c.wake moments .high).acceptedBefore.Subperm s.pool.loop.acceptedJobs := by
    rw [hsame]
    exact hv.accepted
  exact (hhigh.wake haccepted hm .normal).1

/-- The end of a step is a moment of it. -/
theorem moment_end {s : JoinedPool} (pool : WorkerPool) {moments : List Loop}
    {done : List (Option Job)} (htally : pool.loop.Tally (done ++ s.done) pool.busy)
    (hlog : s.pool.loop.log <:+ pool.loop.log) :
    Moment s (s.advance pool moments done) pool.loop :=
  ⟨hlog, _, _, htally, List.Sublist.refl _⟩

/-- So is the eviction in the middle of an `enqueue`. -/
theorem moment_within {s : JoinedPool} (hs : s.Sound) {lab : WorkerPool.Label} {pool : WorkerPool}
    (hstep : s.pool.step lab = some pool) {moments : List Loop} :
    ∀ m ∈ s.pool.within lab,
      Moment s (s.advance pool moments (s.pool.completes lab)) m := by
  intro m hmem
  unfold WorkerPool.within at hmem
  split at hmem
  · next i =>
      split at hmem
      · next hevicts =>
          obtain ⟨hfull, hpolicy⟩ := hevicts
          have hdrop : s.pool.loop.step .dropOldest = some m := by simpa using hmem
          have hnot : ∀ i job, RubicaBot.Label.dropOldest ≠ .taskDone i job :=
            fun _ _ h => by cases h
          have htally := Loop.step_tally hs.pool.covers hs.tally hnot hdrop
          have hmiddle : m.log <:+ pool.loop.log := by
            cases WorkerPool.Step.of_step hstep with
            | queue l loop hl hloop =>
                cases Loop.Step.of_step hdrop
                cases Loop.Step.of_step hloop with
                | locked i call hcall =>
                    simp only [JobQueue.enqueueEvents, hfull, hpolicy, if_true]
                    exact (List.suffix_cons _ _).trans (List.suffix_cons _ _)
            | waits lab i l hown => cases hown
            | job lab i l hown => cases hown
            | sentinel lab i l hown => cases hown
          refine ⟨Loop.step_log hdrop, s.done, _, htally, ?_⟩
          exact Loop.settled_sublist hmiddle (List.suffix_refl _)
      · exact absurd hmem List.not_mem_nil
  · exact absurd hmem List.not_mem_nil

/-- A direct step is no worker's, and delivers nothing. -/
theorem direct_quiet (s : Loop) {l : RubicaBot.Label} (hl : l.isDirect = true) :
    l.caller = none ∧ s.delivers l = none ∧ ∀ i job, l ≠ .taskDone i job := by
  cases l with
  | putRaw => exact ⟨rfl, rfl, fun _ _ h => by cases h⟩
  | dropOldest => exact ⟨rfl, rfl, fun _ _ h => by cases h⟩
  | _ => cases hl

/-- A task of `join` that runs for the first time. -/
theorem Vouched.started {s : JoinedPool} {c : JoinCall} (hs : s.Sound) (hv : s.Vouched c)
    {p : JobPriority} (hcreated : c.phase p = .created) :
    s.Vouched (c.setPhase p (if s.pool.loop.allDone p then .finished else .waiting)) := by
  have hnow : Moment s s s.pool.loop :=
    ⟨List.suffix_refl _, _, _, hs.tally, List.Sublist.refl _⟩
  refine hv.setPhase (by rw [hcreated]; decide) _ fun hphase => hnow.settled hv.accepted ?_
  by_contra hopen
  rw [if_neg hopen] at hphase
  cases hphase

/-- A `join` whose two tasks have finished may return. -/
theorem Vouched.returns {s : JoinedPool} {c : JoinCall} (hv : s.Vouched c)
    (hboth : c.high = .finished ∧ c.normal = .finished) :
    s.Vouched { c with returned := true } := by
  refine ⟨hv.accepted, fun p hp => ?_, fun _ p => ?_⟩
  · cases p
    · exact hv.finished .high hp
    · exact hv.finished .normal hp
  · cases p
    · exact hboth.1
    · exact hboth.2

/-- The calls of `join` change, and nothing else. -/
theorem Sound.setJoins {s : JoinedPool} (hs : s.Sound) {joins : List JoinCall}
    (h : ∀ c ∈ joins, c ∈ s.joins ∨ s.Vouched c) : Sound { s with joins := joins } := by
  refine ⟨hs.pool, hs.tally, fun c hc => ?_⟩
  rcases h c hc with hold | hv
  · exact (hs.vouched c hold).mono (List.suffix_refl _) (List.suffix_refl _)
  · exact hv.mono (List.suffix_refl _) (List.suffix_refl _)

/-- One call of `join` moves on. -/
theorem Sound.setJoin {s : JoinedPool} (hs : s.Sound) (j : Nat) {c : JoinCall} (hv : s.Vouched c) :
    Sound { s with joins := s.joins.set j c } := by
  refine hs.setJoins fun c' hc' => ?_
  rcases List.mem_or_eq_of_mem_set hc' with hold | rfl
  · exact .inl hold
  · exact .inr hv

/-- **Step lemma.** -/
theorem step_sound {s s' : JoinedPool} {lab : Label} (hs : s.Sound) (h : s.step lab = some s') :
    s'.Sound := by
  cases lab with
  | pool lab =>
      simp only [step] at h
      cases hstep : s.pool.step lab with
      | none => simp [hstep] at h
      | some pool =>
          simp only [hstep, Option.some.injEq] at h
          subst h
          have htally := WorkerPool.step_tally hs.pool hs.tally hstep
          have hlog := WorkerPool.step_log hstep
          refine hs.advance (WorkerPool.step_sound hs.pool hstep) htally hlog fun m hm => ?_
          rcases List.mem_append.mp hm with hm | hm
          · exact moment_within hs hstep m hm
          · rw [List.mem_singleton.mp hm]
            exact moment_end pool htally hlog
  | direct l =>
      simp only [step] at h
      split at h
      · next hl =>
          cases hstep : s.pool.loop.step l with
          | none => simp [hstep] at h
          | some loop =>
              simp only [hstep, Option.some.injEq] at h
              subst h
              obtain ⟨hcall, hdel, hnot⟩ := direct_quiet s.pool.loop hl
              have htally := Loop.step_tally hs.pool.covers hs.tally hnot hstep
              rw [hdel] at htally
              have hlog := Loop.step_log hstep
              refine hs.advance (hs.pool.queue_step hcall hdel hnot hstep) htally hlog
                fun m hm => ?_
              rw [List.mem_singleton.mp hm]
              exact moment_end { s.pool with loop := loop } htally hlog
      · contradiction
  | join =>
      simp only [step, Option.some.injEq] at h
      subst h
      refine hs.setJoins fun c hc => ?_
      rcases List.mem_append.mp hc with hc | hc
      · exact .inl hc
      · rw [List.mem_singleton.mp hc]
        refine .inr ⟨List.Subperm.refl _, fun p hp => ?_, fun hret => ?_⟩
        · cases p <;> cases hp
        · cases hret
  | runs j p =>
      simp only [step] at h
      split at h
      · next c hc =>
          split at h
          · next hcreated =>
              simp only [Option.some.injEq] at h
              subst h
              exact hs.setJoin j ((hs.vouched c (List.mem_of_getElem? hc)).started hs hcreated)
          · contradiction
      · contradiction
  | joinReturns j =>
      simp only [step] at h
      split at h
      · next c hc =>
          split at h
          · next hboth =>
              simp only [Option.some.injEq] at h
              subst h
              exact hs.setJoin j ((hs.vouched c (List.mem_of_getElem? hc)).returns hboth)
          · contradiction
      · contradiction

/-- A new pool has nothing to vouch for. -/
theorem init_sound (concurrency maxSize : Int) (fullPolicy : String) (ttl : ℚ) :
    (init concurrency maxSize fullPolicy ttl).Sound := by
  have hbusy : (init concurrency maxSize fullPolicy ttl).pool.busy = [] := by
    have hnil : (init concurrency maxSize fullPolicy ttl).pool.handling = [] := by
      rw [WorkerPool.handling, List.flatMap_eq_nil_iff]
      intro w hw
      obtain ⟨i, -, rfl⟩ := List.mem_map.mp hw
      rfl
    rw [WorkerPool.busy, hnil, List.map_nil]
  refine ⟨WorkerPool.init_sound concurrency maxSize fullPolicy ttl, ?_, fun c hc => ?_⟩
  · rw [hbusy]
    exact Loop.init_tally _ _ _ _
  · cases hc

/-- **Run lemma.** -/
theorem run_sound {concurrency maxSize : Int} {fullPolicy : String} {ttl : ℚ} {ls : List Label}
    {s : JoinedPool} (h : run step (init concurrency maxSize fullPolicy ttl) ls = some s) :
    s.Sound :=
  run_invariant_of_step (fun _ _ _ hs hstep => step_sound hs hstep)
    (init_sound concurrency maxSize fullPolicy ttl) h

/-- When `join` has returned, every job accepted before it is settled. -/
theorem Vouched.all_settled {s : JoinedPool} {c : JoinCall} (hv : s.Vouched c)
    (hret : c.returned = true) : c.acceptedBefore.Subperm (s.pool.loop.settled s.done) := by
  classical
  refine List.subperm_ext_iff.mpr fun job _ => ?_
  have hcount := (hv.finished job.priority (hv.returned hret job.priority)).count_le job
  rwa [List.count_filter (by simp), List.count_filter (by simp)] at hcount

/-- **Completion accounting.**  In every state a run of workers, enqueues,
evictions, drains, sentinels and calls of `join` can reach: each unfinished count
covers the items waiting in its queue, those its child tasks hold and those in a
handler; no `task_done` has raised, and the next one of a worker goes to the
queue its item came from; and each `join` that has returned found every job
accepted before it handled, evicted or drained. -/
theorem completion_accounting {concurrency maxSize : Int} {fullPolicy : String} {ttl : ℚ}
    {ls : List Label} {s : JoinedPool}
    (h : run step (init concurrency maxSize fullPolicy ttl) ls = some s) :
    (∀ p, (s.pool.loop.queue.queue p).items.length + s.pool.loop.heldFrom p +
          s.pool.handling.countP (·.priority == p) ≤ (s.pool.loop.queue.queue p).unfinished ∧
        (s.pool.loop.queue.queue p).overrun = false) ∧
      (∀ w ∈ s.pool.workers, w.phase ≠ .crashed) ∧
      (∀ lab i l loop item p, WorkerPool.Label.own lab = some (i, l) →
        s.pool.loop.step l = some loop → s.pool.loop.delivers l = some (item, p) →
          ∀ q : JobQueue, q.taskDone item (loop.lastQueue i) = q.setQueue p (q.queue p).taskDone) ∧
      ∀ c ∈ s.joins, c.returned = true → c.acceptedBefore.Subperm
        (s.done.reduceOption ++ s.pool.loop.evicted.reduceOption ++
          s.pool.loop.drained.reduceOption) := by
  have hs := run_sound h
  refine ⟨fun p => ?_, hs.pool.alive, ?_, fun c hc hret => (hs.vouched c hc).all_settled hret⟩
  · obtain ⟨hle, hover⟩ := hs.pool.covers.queue.sound p
    rw [WorkerPool.owed_eq, List.count, List.countP_map] at hle
    refine ⟨?_, hover⟩
    simp only [Function.comp_def] at hle
    omega
  · intro lab i l loop item p hown hstep hdel q
    have hcall := WorkerPool.Label.caller_of_own hown
    obtain ⟨-, hbelongs⟩ :=
      Loop.step_covers hs.pool.covers (WorkerPool.ne_taskDone_of_caller hcall) hstep
    obtain ⟨-, hgetter⟩ := Loop.step_delivers hstep
    cases item with
    | some job =>
        have hpriority : job.priority = p := hbelongs _ _ hdel
        rw [← hpriority]
        rfl
    | none =>
        have hlast : loop.lastQueue i = some p := by
          simp [Loop.lastQueue, hgetter i _ p hcall hdel]
        rw [hlast]
        rfl

/-! ### `join` beside one worker -/

/-- `join` is called with one normal job accepted, which fails in the handler. -/
def joinRun : List Label :=
  [.pool (.queue (.enqueue { jobId := "only", receivedAt := 0 } 0)),
    .pool (.queue (.lockAcquired 0)), .join, .runs 0 .high, .runs 0 .normal, .pool (.get 0),
    .pool (.handled 0 (some ("timeout", 1)) 1), .joinReturns 0]

theorem joinRun_isSome : (run step (init 1 10 "reject" 60) joinRun).isSome := by decide +kernel

theorem joinRun_settles :
    ∃ s, run step (init 1 10 "reject" 60) joinRun = some s ∧
      s.joins.map (·.returned) = [true] ∧
      ∀ c ∈ s.joins, c.returned = true → c.acceptedBefore.Subperm
        (s.done.reduceOption ++ s.pool.loop.evicted.reduceOption ++
          s.pool.loop.drained.reduceOption) := by
  have hrun := (Option.some_get joinRun_isSome).symm
  exact ⟨_, hrun, by decide +kernel, (completion_accounting hrun).2.2.2⟩

end JoinedPool

end RubicaBot
