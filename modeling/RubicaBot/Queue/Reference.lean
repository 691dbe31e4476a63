import RubicaBot.Queue
import RubicaBot.Simulation
import RubicaBot.TwoClass

/-!
# RubicaBot.Queue.Reference

What `JobQueue` is for: a bounded queue with two priorities.  `Reference` is
that machine, one list per priority and no counter, over `TwoClass`; it asks
the same `Deduplicator` whether a key is fresh.

`Refines` relates a `JobQueue` to its reference: the two FIFOs hold the jobs of
the two lists, the counter kept by hand is the backlog, and the backlog is
within the bound.  Each operation answers alike on both sides and keeps the
relation (`simulates`), so a client cannot tell the two apart.

Calls are completed one after another here; `Interleaving` lets them overlap.
-/

namespace RubicaBot

open Transition

/-- A call that runs to its end. -/
inductive Operation where
  | enqueue (job : Job) (now : Instant)
  | get
  | drain

/-- What a call returns. -/
inductive Reply where
  | decided (decision : QueueDecision)
  | returned (item : Option Job)
  | drained (high normal : Nat)

namespace JobQueue

/-- `JobQueue(max_size=…, deduplicator=Deduplicator(ttl), full_policy=…, stats=…)`. -/
def init (maxSize : Int) (fullPolicy : String) (ttl : ℚ) (stats : Option StatsCollector) :
    JobQueue where
  maxSize := maxSize
  deduplicator := { ttlSeconds := ttl }
  fullPolicy := fullPolicy
  stats := stats

/-- One call with what it returns and the `size()` after it.  A `get` that would
have to wait is not made. -/
def call (q : JobQueue) : Operation → Option ((Reply × Nat) × JobQueue)
  | .enqueue job now =>
      let (decision, q') := q.enqueue job now
      some ((.decided decision, q'.size), q')
  | .get =>
      match q.getReady with
      | some (item, _, q') => some ((.returned item, q'.size), q')
      | none => none
  | .drain =>
      let ((high, normal), q') := q.drain
      some ((.drained high normal, q'.size), q')

end JobQueue

/-! ## the reference machine -/

/-- The machine that `JobQueue` is meant to be: a bounded backlog of two classes behind a
deduplicator. -/
structure Reference where
  jobs : TwoClass Job := {}
  maxSize : Int
  fullPolicy : String
  deduplicator : Deduplicator

namespace Reference

def init (maxSize : Int) (fullPolicy : String) (ttl : ℚ) : Reference where
  maxSize := maxSize
  fullPolicy := fullPolicy
  deduplicator := { ttlSeconds := ttl }

/-- Keep the job, at the end of its priority. -/
def keep (r : Reference) (job : Job) : Reference :=
  { r with jobs := r.jobs.push (decide (job.priority = .high)) job }

/-- Give up the oldest normal job, or the oldest high job if no normal one waits. -/
def lose (r : Reference) : Reference :=
  match r.jobs.shed with
  | some (_, jobs) => { r with jobs := jobs }
  | none => r

/-- A fresh job meets a backlog of exactly `maxSize`, or there is room. -/
def accept (r : Reference) (job : Job) : QueueDecision × Reference :=
  if (r.jobs.backlog : Int) = r.maxSize then
    if r.fullPolicy = "drop_oldest" then (.enqueued, r.lose.keep job) else (.dropped, r)
  else (.enqueued, r.keep job)

/-- A duplicate is told first, and never meets the bound. -/
def enqueue (r : Reference) (job : Job) (now : Instant) : QueueDecision × Reference :=
  let (duplicate, deduplicator) := r.deduplicator.seen (some job.effectiveKey) now
  let r := { r with deduplicator := deduplicator }
  if duplicate then (.duplicate, r) else r.accept job

def call (r : Reference) : Operation → Option ((Reply × Nat) × Reference)
  | .enqueue job now =>
      let (decision, r') := r.enqueue job now
      some ((.decided decision, r'.jobs.backlog), r')
  | .get =>
      match r.jobs.pop with
      | some (job, jobs) => some ((.returned (some job), jobs.backlog), { r with jobs := jobs })
      | none => none
  | .drain =>
      some ((.drained r.jobs.high.length r.jobs.normal.length, 0), { r with jobs := {} })

end Reference

/-! ## the refinement -/

/-- `q` is the reference machine `r`, stored as the code stores it. -/
structure Refines (q : JobQueue) (r : Reference) : Prop where
  high : q.highQueue.items = r.jobs.high.map some
  normal : q.normalQueue.items = r.jobs.normal.map some
  size : q.size = r.jobs.backlog
  maxSize : q.maxSize = r.maxSize
  fullPolicy : q.fullPolicy = r.fullPolicy
  deduplicator : q.deduplicator = r.deduplicator
  bounded : (r.jobs.backlog : Int) ≤ r.maxSize
  positive : 1 ≤ r.maxSize

namespace Refines

theorem init {maxSize : Int} (h : 1 ≤ maxSize) (fullPolicy : String) (ttl : ℚ)
    (stats : Option StatsCollector) :
    Refines (JobQueue.init maxSize fullPolicy ttl stats)
      (Reference.init maxSize fullPolicy ttl) where
  high := rfl
  normal := rfl
  size := rfl
  maxSize := rfl
  fullPolicy := rfl
  deduplicator := rfl
  bounded := by
    have hzero : (Reference.init maxSize fullPolicy ttl).jobs.backlog = 0 := rfl
    have hmax : (Reference.init maxSize fullPolicy ttl).maxSize = maxSize := rfl
    rw [hzero, hmax]
    omega
  positive := h

variable {q : JobQueue} {r : Reference}

/-- The code's test `size >= max_size` finds a backlog of exactly `max_size`. -/
theorem isFull_iff (h : Refines q r) : q.isFull = true ↔ (r.jobs.backlog : Int) = r.maxSize := by
  have hbound := h.bounded
  rw [JobQueue.isFull, decide_eq_true_iff, h.maxSize, h.size]
  omega

/-- `q.waiting` is the reference's contents. -/
theorem waiting (h : Refines q r) : q.waiting = r.jobs.contents.map some := by
  rw [JobQueue.waiting, h.high, h.normal, TwoClass.contents, List.map_append]

/-- Asking the deduplicator. -/
theorem seenCheck (h : Refines q r) (job : Job) (now : Instant) :
    Refines (q.seenCheck job now).2
      { r with deduplicator := (r.deduplicator.seen (some job.effectiveKey) now).2 } := by
  have hdedup : (q.deduplicator.seen (some job.effectiveKey) now).2 =
      (r.deduplicator.seen (some job.effectiveKey) now).2 := by rw [h.deduplicator]
  simp only [JobQueue.seenCheck]
  split <;>
    exact ⟨h.high, h.normal, h.size, h.maxSize, h.fullPolicy, hdedup, h.bounded, h.positive⟩

/-- Counting a put on the hand-kept counter is what the longer list says. -/
theorem keep (h : Refines q r) (job : Job) (hroom : (r.jobs.backlog : Int) < r.maxSize) :
    Refines (q.put job).counted (r.keep job) := by
  have hbacklog : (r.keep job).jobs.backlog = r.jobs.backlog + 1 := by
    rw [Reference.keep, TwoClass.backlog_push]
  have hsize : (q.put job).counted.size = q.size + 1 := by
    rw [JobQueue.put]
    cases job.priority <;> rfl
  have hframe : (q.put job).counted.frame = q.frame := by simp
  obtain ⟨hhigh, hnormal⟩ :
      (q.put job).counted.highQueue.items = (r.keep job).jobs.high.map some ∧
        (q.put job).counted.normalQueue.items = (r.keep job).jobs.normal.map some := by
    simp only [JobQueue.counted, JobQueue.record, JobQueue.put, Reference.keep, TwoClass.push]
    cases job.priority with
    | high => exact ⟨by simp [JobQueue.setQueue, JobQueue.queue, h.high], h.normal⟩
    | normal => exact ⟨h.high, by simp [JobQueue.setQueue, JobQueue.queue, h.normal]⟩
  have hbound : ((r.keep job).jobs.backlog : Int) ≤ r.maxSize := by
    rw [hbacklog]
    omega
  exact ⟨hhigh, hnormal, by rw [hsize, hbacklog, h.size],
    (JobQueue.maxSize_eq_of_frame hframe).trans h.maxSize,
    (congrArg (fun f => f.2.1) hframe).trans h.fullPolicy,
    (JobQueue.deduplicator_eq_of_frame hframe).trans h.deduplicator, hbound, h.positive⟩

/-- One job fewer on both sides, and the counter decremented. -/
theorem less (h : Refines q r) {q' : JobQueue} {jobs : TwoClass Job}
    (hbacklog : r.jobs.backlog = jobs.backlog + 1) (hframe : q'.frame = q.frame)
    (hsize : q'.size = q.size - 1) (hhigh : q'.highQueue.items = jobs.high.map some)
    (hnormal : q'.normalQueue.items = jobs.normal.map some) :
    Refines q' { r with jobs := jobs } := by
  have hcount : q'.size = jobs.backlog := by
    rw [hsize, h.size, hbacklog]
    omega
  have hbound : (jobs.backlog : Int) ≤ r.maxSize := by
    have hbound := h.bounded
    rw [hbacklog] at hbound
    omega
  exact ⟨hhigh, hnormal, hcount, (JobQueue.maxSize_eq_of_frame hframe).trans h.maxSize,
    (congrArg (fun f => f.2.1) hframe).trans h.fullPolicy,
    (JobQueue.deduplicator_eq_of_frame hframe).trans h.deduplicator, hbound, h.positive⟩

/-- `_drop_oldest` loses the job the reference machine loses. -/
theorem lose (h : Refines q r) : Refines q.dropOldest r.lose := by
  have hframe := q.frame_dropOldest
  have hhigh := h.high
  have hnormal := h.normal
  cases hn : r.jobs.normal with
  | cons job normal =>
      have hshed : r.jobs.shed = some (job, { r.jobs with normal := normal }) := by
        simp [TwoClass.shed, hn]
      rw [hn, List.map_cons] at hnormal
      have hdrop : q.normalQueue.discardOldest = some (some job,
          AsyncQueue.taskDone { q.normalQueue with items := normal.map some }) := by
        simp [AsyncQueue.discardOldest, AsyncQueue.getNowait, hnormal]
      simp only [JobQueue.dropOldest, hdrop] at hframe ⊢
      simp only [Reference.lose, hshed]
      exact h.less (TwoClass.backlog_shed hshed) hframe rfl hhigh rfl
  | nil =>
      rw [hn, List.map_nil] at hnormal
      have hstay : q.normalQueue.discardOldest = none :=
        (AsyncQueue.discardOldest_eq_none_iff _).mpr hnormal
      cases hh : r.jobs.high with
      | cons job high =>
          have hshed : r.jobs.shed = some (job, { r.jobs with high := high }) := by
            simp [TwoClass.shed, hn, hh]
          rw [hh, List.map_cons] at hhigh
          have hdrop : q.highQueue.discardOldest = some (some job,
              AsyncQueue.taskDone { q.highQueue with items := high.map some }) := by
            simp [AsyncQueue.discardOldest, AsyncQueue.getNowait, hhigh]
          have hrest : q.normalQueue.items = r.jobs.normal.map some := h.normal
          simp only [JobQueue.dropOldest, hstay, hdrop] at hframe ⊢
          simp only [Reference.lose, hshed]
          exact h.less (TwoClass.backlog_shed hshed) hframe rfl rfl hrest
      | nil =>
          have hshed : r.jobs.shed = none := by simp [TwoClass.shed, hn, hh]
          rw [hh, List.map_nil] at hhigh
          have hstay' : q.highQueue.discardOldest = none :=
            (AsyncQueue.discardOldest_eq_none_iff _).mpr hhigh
          simpa only [JobQueue.dropOldest, hstay, hstay', Reference.lose, hshed] using h

/-- The critical section of `enqueue` accepts, loses or drops as the reference does. -/
theorem accept (h : Refines q r) (job : Job) :
    (q.enqueueLocked job).1 = (r.accept job).1 ∧
      Refines (q.enqueueLocked job).2 (r.accept job).2 := by
  by_cases hfull : (r.jobs.backlog : Int) = r.maxSize
  · by_cases hpolicy : r.fullPolicy = "drop_oldest"
    · have hpos := h.positive
      have hroom : (r.lose.jobs.backlog : Int) < r.lose.maxSize := by
        cases hshed : r.jobs.shed with
        | none =>
            -- a full queue of positive size is not empty
            have hzero := (TwoClass.shed_eq_none_iff _).mp hshed
            omega
        | some p =>
            obtain ⟨job', jobs⟩ := p
            have hlen := TwoClass.backlog_shed hshed
            simp only [Reference.lose, hshed]
            omega
      simp only [JobQueue.enqueueLocked, h.isFull_iff.mpr hfull, h.fullPolicy, hpolicy,
        Reference.accept, hfull, if_true]
      exact ⟨trivial, h.lose.keep job hroom⟩
    · simp only [JobQueue.enqueueLocked, h.isFull_iff.mpr hfull, h.fullPolicy, hpolicy,
        Reference.accept, hfull, if_true, if_false]
      exact ⟨trivial, h.high, h.normal, h.size, h.maxSize, h.fullPolicy, h.deduplicator,
        h.bounded, h.positive⟩
  · have hroom : (r.jobs.backlog : Int) < r.maxSize := lt_of_le_of_ne h.bounded hfull
    have hnot : q.isFull = false := by
      rw [Bool.eq_false_iff]
      exact fun hq => hfull (h.isFull_iff.mp hq)
    simp only [JobQueue.enqueueLocked, hnot, Reference.accept, hfull, if_false,
      Bool.false_eq_true]
    exact ⟨trivial, h.keep job hroom⟩

/-- `enqueue` decides as the machine does. -/
theorem enqueue (h : Refines q r) (job : Job) (now : Instant) :
    (q.enqueue job now).1 = (r.enqueue job now).1 ∧
      Refines (q.enqueue job now).2 (r.enqueue job now).2 := by
  have hcheck := h.seenCheck job now
  cases hseen : q.seenCheck job now with
  | mk duplicate m =>
      rw [hseen] at hcheck
      have hans : (r.deduplicator.seen (some job.effectiveKey) now).1 = duplicate := by
        rw [← h.deduplicator]
        exact (JobQueue.seenCheck_spec hseen).1
      simp only [JobQueue.enqueue, hseen, Reference.enqueue, hans]
      cases duplicate with
      | true => exact ⟨rfl, hcheck⟩
      | false => exact hcheck.accept job

/-- `get` with a job waiting returns the reference's. -/
theorem get (h : Refines q r) :
    match q.getReady, r.jobs.pop with
    | some (item, _, q'), some (job, jobs) => item = some job ∧ Refines q' { r with jobs := jobs }
    | none, none => True
    | _, _ => False := by
  have hhigh := h.high
  have hnormal := h.normal
  cases hh : r.jobs.high with
  | cons job high =>
      have hpop : r.jobs.pop = some (job, { r.jobs with high := high }) := by
        simp [TwoClass.pop, hh]
      rw [hh, List.map_cons] at hhigh
      have htake : q.takeFrom .high =
          some (some job, q.setQueue .high { q.highQueue with items := high.map some }) := by
        simp [JobQueue.takeFrom, JobQueue.queue, AsyncQueue.getNowait, hhigh]
      simp only [JobQueue.getReady, htake, hpop]
      exact ⟨trivial, h.less (TwoClass.backlog_pop hpop) (by simp) (by simp) rfl hnormal⟩
  | nil =>
      rw [hh, List.map_nil] at hhigh
      have hnone : q.takeFrom .high = none := (q.takeFrom_eq_none_iff .high).mpr hhigh
      cases hn : r.jobs.normal with
      | cons job normal =>
          have hpop : r.jobs.pop = some (job, { r.jobs with normal := normal }) := by
            simp [TwoClass.pop, hh, hn]
          have hrest : q.highQueue.items = r.jobs.high.map some := h.high
          rw [hn, List.map_cons] at hnormal
          have htake : q.takeFrom .normal = some (some job,
              q.setQueue .normal { q.normalQueue with items := normal.map some }) := by
            simp [JobQueue.takeFrom, JobQueue.queue, AsyncQueue.getNowait, hnormal]
          simp only [JobQueue.getReady, hnone, htake, hpop]
          exact ⟨trivial, h.less (TwoClass.backlog_pop hpop) (by simp) (by simp) hrest rfl⟩
      | nil =>
          have hpop : r.jobs.pop = none := by simp [TwoClass.pop, hh, hn]
          rw [hn, List.map_nil] at hnormal
          have hnone' : q.takeFrom .normal = none := (q.takeFrom_eq_none_iff .normal).mpr hnormal
          simp only [JobQueue.getReady, hnone, hnone', hpop]

/-- `drain` reports both classes, and leaves none of them. -/
theorem drain (h : Refines q r) :
    q.drain.1 = (r.jobs.high.length, r.jobs.normal.length) ∧
      Refines q.drain.2 { r with jobs := {} } := by
  have hempty := q.waiting_drain
  rw [JobQueue.waiting, List.append_eq_nil_iff] at hempty
  obtain ⟨hhigh, hnormal⟩ := hempty
  have hpos := h.positive
  refine ⟨?_, hhigh, hnormal, rfl, h.maxSize, h.fullPolicy, h.deduplicator, ?_, hpos⟩
  · rw [q.drain_reports, h.high, h.normal, List.length_map, List.length_map]
  · have hzero : (0 : Int) ≤ r.maxSize := by omega
    exact hzero

end Refines

/-- **Every call answers alike on both sides and keeps the relation.** -/
theorem JobQueue.simulates : Simulates JobQueue.call Reference.call Refines := by
  intro q r op h
  cases op with
  | enqueue job now =>
      obtain ⟨hans, hrel⟩ := h.enqueue job now
      have hreply : (Reply.decided (q.enqueue job now).1, (q.enqueue job now).2.size) =
          (Reply.decided (r.enqueue job now).1, (r.enqueue job now).2.jobs.backlog) := by
        rw [hans, hrel.size]
      exact .some ⟨hreply, hrel⟩
  | get =>
      have hget := h.get
      unfold JobQueue.call Reference.call
      cases hq : q.getReady with
      | none =>
          cases hr : r.jobs.pop with
          | none => exact .none
          | some p => simp [hq, hr] at hget
      | some p =>
          obtain ⟨item, _, q'⟩ := p
          cases hr : r.jobs.pop with
          | none => simp [hq, hr] at hget
          | some p =>
              obtain ⟨job, jobs⟩ := p
              simp only [hq, hr] at hget
              obtain ⟨rfl, hrel⟩ := hget
              exact .some ⟨by simp [hrel.size], hrel⟩
  | drain =>
      obtain ⟨hans, hrel⟩ := h.drain
      have hreply : (Reply.drained q.drain.1.1 q.drain.1.2, q.drain.2.size) =
          (Reply.drained r.jobs.high.length r.jobs.normal.length, 0) := by
        rw [hans, q.size_drain]
      exact .some ⟨hreply, hrel⟩

/-! ## what becomes of the jobs -/

namespace Reply

/-- The job of a call of `enqueue` that was answered `enqueued`. -/
def accepted? : Operation × Reply × Nat → Option Job
  | (.enqueue job _, .decided .enqueued, _) => some job
  | _ => none

/-- The job a call of `get` returned. -/
def returned? : Operation × Reply × Nat → Option Job
  | (_, .returned item, _) => item
  | _ => none

/-- A job is accepted if it is enqueued. -/
theorem accepted?_decided (job : Job) (now : Instant) (decision : QueueDecision) (size : Nat) :
    accepted? (.enqueue job now, .decided decision, size) =
      if decision = .enqueued then some job else none := by
  cases decision <;> rfl

end Reply

namespace Reference

/-- What has been returned and what still waits was accepted, each acceptance
being used once. -/
def Accounted (r : Reference) (calls : List (Operation × Reply × Nat)) : Prop :=
  (calls.filterMap Reply.returned? ++ r.jobs.contents).Subperm (calls.filterMap Reply.accepted?)

/-- What gives way is lost, and nothing else. -/
theorem contents_lose (r : Reference) : r.lose.jobs.contents.Subperm r.jobs.contents := by
  unfold lose
  cases h : r.jobs.shed with
  | none => exact List.Subperm.refl _
  | some p =>
      have hperm := TwoClass.contents_shed h
      exact (List.sublist_cons_self _ _).subperm.trans hperm.symm.subperm

/-- A fresh job is kept, or dropped without a trace. -/
theorem contents_accept (r : Reference) (job : Job) :
    ((r.accept job).1 = .enqueued ∧
        (r.accept job).2.jobs.contents.Subperm (job :: r.jobs.contents)) ∨
      ((r.accept job).1 = .dropped ∧ (r.accept job).2 = r) := by
  have hkeep (m : Reference) : (m.keep job).jobs.contents.Subperm (job :: m.jobs.contents) :=
    (TwoClass.contents_push _ _ _).subperm
  unfold accept
  by_cases hfull : (r.jobs.backlog : Int) = r.maxSize
  · by_cases hpolicy : r.fullPolicy = "drop_oldest"
    · have hlose := (List.subperm_cons job).mpr r.contents_lose
      simp only [hfull, hpolicy, if_true]
      exact .inl ⟨trivial, (hkeep r.lose).trans hlose⟩
    · simp [hfull, hpolicy]
  · simp only [hfull, if_false]
    exact .inl ⟨trivial, hkeep r⟩

/-- `enqueue` adds the job it accepts, and nothing else. -/
theorem contents_enqueue (r : Reference) (job : Job) (now : Instant) :
    ((r.enqueue job now).1 = .enqueued ∧
        (r.enqueue job now).2.jobs.contents.Subperm (job :: r.jobs.contents)) ∨
      ((r.enqueue job now).1 ≠ .enqueued ∧ (r.enqueue job now).2.jobs = r.jobs) := by
  unfold enqueue
  cases hseen : r.deduplicator.seen (some job.effectiveKey) now with
  | mk duplicate deduplicator =>
      cases duplicate with
      | true => simp
      | false =>
          rcases contents_accept { r with deduplicator := deduplicator } job with
            ⟨hans, hsub⟩ | ⟨hans, hsame⟩
          · exact .inl ⟨hans, hsub⟩
          · refine .inr ⟨?_, ?_⟩
            · simp [hans]
            · simp [hsame]

/-- A reply that is neither an acceptance nor a job leaves the account as it is,
as long as nothing is added to what waits. -/
theorem Accounted.quiet {r r' : Reference} {calls : List (Operation × Reply × Nat)}
    (hr : r.Accounted calls) {c : Operation × Reply × Nat} (haccepted : Reply.accepted? c = none)
    (hreturned : Reply.returned? c = none)
    (hsub : r'.jobs.contents.Subperm r.jobs.contents) : r'.Accounted (calls ++ [c]) := by
  have hgrow := (List.Subperm.refl (calls.filterMap Reply.returned?)).append hsub
  have hsame := hgrow.trans hr
  simpa [Accounted, haccepted, hreturned] using hsame

/-- An acceptance pays for one job more that waits. -/
theorem Accounted.gain {r r' : Reference} {calls : List (Operation × Reply × Nat)}
    (hr : r.Accounted calls) {c : Operation × Reply × Nat} {job : Job}
    (haccepted : Reply.accepted? c = some job) (hreturned : Reply.returned? c = none)
    (hsub : r'.jobs.contents.Subperm (job :: r.jobs.contents)) : r'.Accounted (calls ++ [c]) := by
  have hgrow := (List.Subperm.refl (calls.filterMap Reply.returned?)).append hsub
  have hperm : (calls.filterMap Reply.returned? ++ (job :: r.jobs.contents)).Perm
      ((calls.filterMap Reply.returned? ++ r.jobs.contents) ++ [job]) :=
    List.perm_middle.trans (List.perm_append_singleton _ _).symm
  have hall := hgrow.trans (hperm.subperm.trans (hr.append (List.Subperm.refl [job])))
  simpa [Accounted, hreturned, haccepted] using hall

/-- **Step lemma.** -/
theorem next_accounted (r : Reference) (op : Operation) (r' : Reference)
    (calls : List (Operation × Reply × Nat)) (hr : r.Accounted calls)
    (h : next call r op = some r') :
    r'.Accounted (calls ++ (answer call r op).map fun a => (op, a)) := by
  obtain ⟨a, hcall⟩ := next_eq_some.mp h
  rw [answer_of_call hcall, List.map_cons, List.map_nil]
  cases op with
  | enqueue job now =>
      simp only [call, Option.some.injEq, Prod.mk.injEq] at hcall
      obtain ⟨rfl, rfl⟩ := hcall
      have hreturned : Reply.returned? (.enqueue job now, .decided (r.enqueue job now).1,
          (r.enqueue job now).2.jobs.backlog) = none := rfl
      rcases r.contents_enqueue job now with ⟨hans, hsub⟩ | ⟨hans, hjobs⟩
      · exact hr.gain (by rw [Reply.accepted?_decided, if_pos hans]) hreturned hsub
      · exact hr.quiet (by rw [Reply.accepted?_decided, if_neg hans]) hreturned (by rw [hjobs])
  | get =>
      simp only [call] at hcall
      cases hpop : r.jobs.pop with
      | none => simp [hpop] at hcall
      | some p =>
          obtain ⟨job, jobs⟩ := p
          simp only [hpop, Option.some.injEq, Prod.mk.injEq] at hcall
          obtain ⟨rfl, rfl⟩ := hcall
          have hcontents := TwoClass.contents_pop hpop
          rw [Accounted, hcontents] at hr
          have haccepted : Reply.accepted?
              (.get, .returned (some job), jobs.backlog) = none := rfl
          have hreturned : Reply.returned?
              (.get, .returned (some job), jobs.backlog) = some job := rfl
          simpa [Accounted, haccepted, hreturned] using hr
  | drain =>
      simp only [call, Option.some.injEq, Prod.mk.injEq] at hcall
      obtain ⟨rfl, rfl⟩ := hcall
      exact hr.quiet rfl rfl (List.nil_subperm)

/-- No call changes the bound or the policy. -/
theorem next_parameters {r r' : Reference} {op : Operation} (h : next call r op = some r') :
    r'.maxSize = r.maxSize ∧ r'.fullPolicy = r.fullPolicy := by
  obtain ⟨a, hcall⟩ := next_eq_some.mp h
  cases op with
  | enqueue job now =>
      simp only [call, Option.some.injEq, Prod.mk.injEq] at hcall
      obtain ⟨-, rfl⟩ := hcall
      simp only [enqueue, accept, lose, keep]
      repeat' split
      all_goals exact ⟨rfl, rfl⟩
  | get =>
      simp only [call] at hcall
      split at hcall
      · simp only [Option.some.injEq, Prod.mk.injEq] at hcall
        obtain ⟨-, rfl⟩ := hcall
        exact ⟨rfl, rfl⟩
      · contradiction
  | drain =>
      simp only [call, Option.some.injEq, Prod.mk.injEq] at hcall
      obtain ⟨-, rfl⟩ := hcall
      exact ⟨rfl, rfl⟩

/-- The bound and the policy are fixed. -/
theorem run_parameters {r r' : Reference} {ops : List Operation}
    (h : run (next call) r ops = some r') :
    r'.maxSize = r.maxSize ∧ r'.fullPolicy = r.fullPolicy := by
  have hstep (m : Reference) (op : Operation) (m' : Reference)
      (hm : m.maxSize = r.maxSize ∧ m.fullPolicy = r.fullPolicy)
      (hnext : next call m op = some m') :
      m'.maxSize = r.maxSize ∧ m'.fullPolicy = r.fullPolicy := by
    obtain ⟨hmax, hpolicy⟩ := next_parameters hnext
    rw [hmax, hpolicy]
    exact hm
  exact run_invariant_of_step hstep ⟨rfl, rfl⟩ h

end Reference

namespace Refines

/-- A fresh key is dropped exactly by a full queue that does not evict. -/
theorem dropped_iff {q : JobQueue} {r : Reference} (h : Refines q r) {job : Job} {now : Instant}
    (hfresh : (q.deduplicator.seen (some job.effectiveKey) now).1 = false) :
    (q.enqueue job now).1 = .dropped ↔
      r.fullPolicy ≠ "drop_oldest" ∧ (q.waiting.length : Int) = r.maxSize := by
  have hlen : q.waiting.length = r.jobs.backlog := by
    rw [h.waiting, List.length_map, TwoClass.length_contents]
  rw [h.deduplicator] at hfresh
  rw [(h.enqueue job now).1, hlen]
  simp only [Reference.enqueue, hfresh, Reference.accept, Bool.false_eq_true, if_false]
  by_cases hfull : (r.jobs.backlog : Int) = r.maxSize
  · by_cases hpolicy : r.fullPolicy = "drop_oldest" <;> simp [hfull, hpolicy]
  · simp [hfull]

end Refines

/-- What `get` has returned since the queue was made was accepted, each
acceptance being used once. -/
theorem Refines.returned_subperm {q₀ q : JobQueue} {r₀ : Reference} (h : Refines q₀ r₀)
    (hnew : r₀.jobs = {}) {ops : List Operation}
    (hrun : run (next JobQueue.call) q₀ ops = some q) :
    ((transcript JobQueue.call q₀ ops).filterMap Reply.returned?).Subperm
      ((transcript JobQueue.call q₀ ops).filterMap Reply.accepted?) := by
  obtain ⟨r, hrun', -⟩ := run_related JobQueue.simulates h hrun
  have hinit : r₀.Accounted [] := by simp [Reference.Accounted, hnew, TwoClass.contents]
  have hall := run_gather (I := Reference.Accounted)
    (fun r op r' calls hr => r.next_accounted op r' calls hr) hinit hrun'
  rw [transcript_eq JobQueue.simulates h]
  exact (List.sublist_append_left _ _).subperm.trans hall

/-- **A bounded two-class priority queue.**  Whatever calls are made one after
another, their replies and the `size()` after each are the reference machine's;
the backlog stays within `max_size`, a fresh key is dropped exactly by a full
queue that does not evict, and no acceptance is returned twice. -/
theorem jobQueue_refines_reference {maxSize : Int} (hmax : 1 ≤ maxSize) (fullPolicy : String)
    (ttl : ℚ) (stats : Option StatsCollector) (ops : List Operation) :
    outputs JobQueue.call (JobQueue.init maxSize fullPolicy ttl stats) ops =
        outputs Reference.call (Reference.init maxSize fullPolicy ttl) ops ∧
      ∀ q, run (next JobQueue.call) (JobQueue.init maxSize fullPolicy ttl stats) ops = some q →
        (∃ r, run (next Reference.call) (Reference.init maxSize fullPolicy ttl) ops = some r ∧
          Refines q r) ∧
        (q.waiting.length : Int) ≤ maxSize ∧
        (∀ job now, (q.deduplicator.seen (some job.effectiveKey) now).1 = false →
          ((q.enqueue job now).1 = .dropped ↔
            fullPolicy ≠ "drop_oldest" ∧ (q.waiting.length : Int) = maxSize)) ∧
        ((transcript JobQueue.call (JobQueue.init maxSize fullPolicy ttl stats) ops).filterMap
            Reply.returned?).Subperm
          ((transcript JobQueue.call (JobQueue.init maxSize fullPolicy ttl stats) ops).filterMap
            Reply.accepted?) := by
  have hinit := Refines.init hmax fullPolicy ttl stats
  refine ⟨outputs_eq JobQueue.simulates hinit ops, ?_⟩
  intro q hrun
  obtain ⟨r, hrun', hrel⟩ := run_related JobQueue.simulates hinit hrun
  obtain ⟨hmaxSize, hpolicy⟩ := Reference.run_parameters hrun'
  have hmaxSize : r.maxSize = maxSize := hmaxSize
  have hpolicy : r.fullPolicy = fullPolicy := hpolicy
  have hbound : (q.waiting.length : Int) ≤ maxSize := by
    rw [hrel.waiting, List.length_map, TwoClass.length_contents, ← hmaxSize]
    exact hrel.bounded
  refine ⟨⟨r, hrun', hrel⟩, hbound, ?_, hinit.returned_subperm rfl hrun⟩
  intro job now hfresh
  rw [hrel.dropped_iff hfresh, hmaxSize, hpolicy]

/-- A queue of one that rejects: the second job is not counted, the first one is
returned and leaves nothing. -/
theorem jobQueue_refines_reference_of_one :
    (outputs JobQueue.call (JobQueue.init 1 "reject" 30 none)
        [.enqueue { jobId := "a", receivedAt := 0 } 0, .enqueue { jobId := "b", receivedAt := 1 } 1,
          .get]).map Prod.snd = [1, 1, 0] := by
  rw [(jobQueue_refines_reference (by decide) "reject" 30 none _).1]
  decide +kernel

end RubicaBot
