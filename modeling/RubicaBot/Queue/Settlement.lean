import Mathlib.Data.List.ReduceOption
import RubicaBot.Queue.Unfinished

/-!
# RubicaBot.Queue.Settlement

The unfinished counts, exactly.

`Covers` bounds the count of a queue from below; `join` also needs to know what
a count of zero says.  In every run the unfinished count of a queue is the
number of items ever put into it less those evicted, drained and `done` with
(`Tally`).  So when it is zero, every job of that priority accepted so far is
among the settled ones (`accepted_settled`).

The step lemma of `Tally` is proved for the steps of the queue here; the module
on `join` adds the steps of the workers.
-/

namespace RubicaBot

open Transition

/-- The queue an item is put into. -/
def home : Option Job → JobPriority
  | some job => job.priority
  | none => .high

@[simp] theorem home_some (job : Job) : home (some job) = job.priority := rfl

/-- An item belongs where its home is. -/
theorem home_eq_of_belongs {p : JobPriority} {item : Option Job} (h : Belongs p item) :
    home item = p := by
  cases item with
  | none => exact Eq.symm h
  | some job => exact h

/-- How many of the items are of queue `p`. -/
def countAt (p : JobPriority) (items : List (Option Job)) : Nat :=
  items.countP fun item => home item == p

@[simp] theorem countAt_nil (p : JobPriority) : countAt p [] = 0 := rfl

@[simp] theorem countAt_append (p : JobPriority) (xs ys : List (Option Job)) :
    countAt p (xs ++ ys) = countAt p xs + countAt p ys := List.countP_append

/-- One more item, at home in one of the queues. -/
theorem countAt_cons (p : JobPriority) (item : Option Job) (items : List (Option Job)) :
    countAt p (item :: items) = countAt p items + if home item = p then 1 else 0 := by
  simp [countAt, List.countP_cons]

/-- Items that all belong to one queue are counted there and nowhere else. -/
theorem countAt_of_belongs {p : JobPriority} {items : List (Option Job)}
    (h : ∀ item ∈ items, Belongs p item) (p' : JobPriority) :
    countAt p' items = if p' = p then items.length else 0 := by
  by_cases hp : p' = p
  · subst hp
    rw [if_pos rfl, countAt, List.countP_eq_length]
    intro item hitem
    simp [home_eq_of_belongs (h item hitem)]
  · rw [if_neg hp, countAt, List.countP_eq_zero]
    intro item hitem
    simp [home_eq_of_belongs (h item hitem), Ne.symm hp]

namespace AsyncQueue

variable {α : Type}

/-- `get_nowait(); task_done()` on a queue whose items are all unfinished. -/
theorem unfinished_discardOldest {q q' : AsyncQueue α} {item : α}
    (hle : q.items.length ≤ q.unfinished) (h : q.discardOldest = some (item, q')) :
    q'.unfinished + 1 = q.unfinished ∧ q'.items.length ≤ q'.unfinished := by
  have hitems := items_of_discardOldest h
  have hlen : q.items.length = q'.items.length + 1 := by rw [hitems, List.length_cons]
  have hunfinished : q'.unfinished = q.unfinished - 1 := by
    unfold discardOldest getNowait at h
    split at h
    · simp at h
    · simp only [Option.map_some, Option.some.injEq, Prod.mk.injEq] at h
      rw [← h.2]
      rfl
  omega

/-- The loop of `drain` finishes what it removes. -/
theorem unfinished_drainLoop (fuel : Nat) {q : AsyncQueue α} (drained : Nat)
    (hle : q.items.length ≤ q.unfinished) (hfuel : q.items.length ≤ fuel) :
    (drainLoop fuel q drained).1.unfinished + q.items.length = q.unfinished := by
  induction fuel generalizing q drained with
  | zero =>
      simp only [drainLoop]
      omega
  | succ fuel ih =>
      unfold drainLoop
      cases hd : q.discardOldest with
      | none =>
          have hnil := (discardOldest_eq_none_iff q).mp hd
          simp [hnil]
      | some r =>
          obtain ⟨item, q'⟩ := r
          obtain ⟨hone, hle'⟩ := unfinished_discardOldest hle hd
          have hlen : q.items.length = q'.items.length + 1 := by
            rw [items_of_discardOldest hd, List.length_cons]
          have hrec := ih (drained + 1) hle' (by omega)
          simp only
          omega

end AsyncQueue

namespace JobQueue

/-- What waits is unfinished. -/
theorem Covered.length_le {q : JobQueue} {owed : JobPriority → Nat} (h : q.Covered owed)
    (p : JobPriority) : (q.queue p).items.length ≤ (q.queue p).unfinished := by
  have hle := (h.sound p).1
  omega

/-- A job that is put is one more unfinished in its queue. -/
theorem unfinished_put (q : JobQueue) (job : Job) (p : JobPriority) :
    ((q.put job).queue p).unfinished =
      (q.queue p).unfinished + if home (some job) = p then 1 else 0 := by
  rw [put, home]
  by_cases hp : job.priority = p
  · subst hp
    rw [queue_setQueue_same, if_pos rfl]
    rfl
  · rw [queue_setQueue_ne _ (Ne.symm hp), if_neg hp]
    rfl

/-- A sentinel is one more unfinished in the high queue. -/
theorem unfinished_putRaw (q : JobQueue) (p : JobPriority) :
    ((q.putRaw none).queue p).unfinished =
      (q.queue p).unfinished + if home none = p then 1 else 0 := by
  cases p <;> rfl

@[simp] theorem unfinished_decremented (q : JobQueue) (p : JobPriority) :
    (q.decremented.queue p).unfinished = (q.queue p).unfinished := by cases p <;> rfl

/-- An item that is taken is still unfinished. -/
theorem unfinished_takeFrom {q q' : JobQueue} {p : JobPriority} {item : Option Job}
    (h : q.takeFrom p = some (item, q')) (p' : JobPriority) :
    (q'.queue p').unfinished = (q.queue p').unfinished := by
  obtain ⟨⟨item', a⟩, ha, heq⟩ := Option.map_eq_some_iff.mp h
  simp only [Prod.mk.injEq] at heq
  obtain ⟨rfl, rfl⟩ := heq
  by_cases hp : p' = p
  · subst hp
    rw [queue_setQueue_same]
    unfold AsyncQueue.getNowait at ha
    split at ha
    · contradiction
    · simp only [Option.some.injEq, Prod.mk.injEq] at ha
      rw [← ha.2]
  · rw [queue_setQueue_ne _ hp]

/-- The evicted item is finished, in its own queue. -/
theorem unfinished_dropOldest {q : JobQueue} {owed : JobPriority → Nat} (h : q.Covered owed)
    (p : JobPriority) :
    (q.dropOldest.queue p).unfinished + countAt p q.victim.toList = (q.queue p).unfinished := by
  have hbelongs := h.belongs
  unfold dropOldest victim
  cases hn : q.normalQueue.discardOldest with
  | some r =>
      obtain ⟨item, normal⟩ := r
      have hitems := AsyncQueue.items_of_discardOldest hn
      have hone := (AsyncQueue.unfinished_discardOldest (h.length_le .normal) hn).1
      have hhome : home item = .normal :=
        home_eq_of_belongs (hbelongs .normal item (by simp [queue, hitems]))
      simp only [hitems, List.head?_cons, Option.orElse_eq_orElse, Option.orElse_some,
        Option.toList_some, countAt_cons, countAt_nil, hhome]
      cases p with
      | high => rfl
      | normal => simpa only [record, decremented, queue, if_true, Nat.zero_add] using hone
  | none =>
      have hnil := (AsyncQueue.discardOldest_eq_none_iff _).mp hn
      simp only [hnil, List.head?_nil, Option.orElse_eq_orElse, Option.orElse_none]
      cases hh : q.highQueue.discardOldest with
      | some r =>
          obtain ⟨item, high⟩ := r
          have hitems := AsyncQueue.items_of_discardOldest hh
          have hone := (AsyncQueue.unfinished_discardOldest (h.length_le .high) hh).1
          have hhome : home item = .high :=
            home_eq_of_belongs (hbelongs .high item (by simp [queue, hitems]))
          simp only [hitems, List.head?_cons, Option.toList_some, countAt_cons, countAt_nil, hhome]
          cases p with
          | high => simpa only [record, decremented, queue, if_true, Nat.zero_add] using hone
          | normal => rfl
      | none =>
          have hnil' := (AsyncQueue.discardOldest_eq_none_iff _).mp hh
          simp [hnil']

/-- What the critical section puts and evicts is the change of the counts. -/
theorem unfinished_enqueueLocked {q : JobQueue} {owed : JobPriority → Nat} (h : q.Covered owed)
    (job : Job) (p : JobPriority) :
    ((q.enqueueLocked job).2.queue p).unfinished +
        countAt p ((q.enqueueEvents job).filterMap Event.evicted?) =
      (q.queue p).unfinished + countAt p ((q.enqueueEvents job).filterMap Event.put?) := by
  have hput (q : JobQueue) : (((q.put job).counted).queue p).unfinished =
      (q.queue p).unfinished + if home (some job) = p then 1 else 0 := by
    rw [← unfinished_put q job p]
    cases p <;> rfl
  unfold enqueueLocked enqueueEvents
  by_cases hfull : q.isFull
  · by_cases hpolicy : q.fullPolicy = "drop_oldest"
    · have hdrop := unfinished_dropOldest h p
      simp only [hfull, hpolicy, if_true, hput, List.filterMap_cons, Event.evicted?, Event.put?,
        Event.evicted_evicted, Event.put_evicted, countAt_cons, countAt_nil]
      omega
    · simp only [hfull, hpolicy, if_true, if_false]
      cases p <;> rfl
  · simp only [hfull, Bool.false_eq_true, if_false, hput, List.filterMap_cons, Event.evicted?,
      Event.put?, List.filterMap_nil, countAt_cons, countAt_nil]
    omega

/-- `drain` finishes whatever waits. -/
theorem unfinished_drain {q : JobQueue} {owed : JobPriority → Nat} (h : q.Covered owed)
    (p : JobPriority) :
    (q.drain.2.queue p).unfinished + countAt p q.waiting = (q.queue p).unfinished := by
  have hhigh := countAt_of_belongs (h.belongs .high) p
  have hnormal := countAt_of_belongs (h.belongs .normal) p
  have hlen := h.length_le p
  rw [waiting, countAt_append]
  cases p with
  | high =>
      have hloop := AsyncQueue.unfinished_drainLoop q.highQueue.qsize 0 hlen (Nat.le_refl _)
      simp only [queue] at hhigh hnormal hloop
      rw [hhigh, hnormal]
      exact hloop
  | normal =>
      have hloop := AsyncQueue.unfinished_drainLoop q.normalQueue.qsize 0 hlen (Nat.le_refl _)
      simp only [queue] at hhigh hnormal hloop
      rw [hhigh, hnormal, if_neg (by decide), Nat.zero_add]
      exact hloop

/-- `task_done` on a queue with something unfinished. -/
theorem unfinished_taskDone {q : JobQueue} {job : Option Job} {last : Option JobPriority}
    (h : q.taskDoneRaises job last = false)
    (htarget : job = none → last = some .high) (p : JobPriority) :
    ((q.taskDone job last).queue p).unfinished + countAt p [job] = (q.queue p).unfinished := by
  have hone (p' : JobPriority) (hpos : (q.queue p').unfinished ≠ 0) :
      ((q.setQueue p' (q.queue p').taskDone).queue p).unfinished +
        (if p' = p then 1 else 0) = (q.queue p).unfinished := by
    by_cases hp : p' = p
    · subst hp
      rw [queue_setQueue_same, if_pos rfl, AsyncQueue.taskDone]
      simp only
      omega
    · rw [queue_setQueue_ne _ (Ne.symm hp), if_neg hp]
      rfl
  cases job with
  | some job =>
      have hpos : (q.queue job.priority).unfinished ≠ 0 := by simpa [taskDoneRaises] using h
      have hcount : countAt p [some job] = if job.priority = p then 1 else 0 := by
        rw [countAt_cons, countAt_nil, Nat.zero_add]
        rfl
      rw [hcount]
      exact hone job.priority hpos
  | none =>
      rw [htarget rfl] at h ⊢
      have hpos : (q.queue .high).unfinished ≠ 0 := by simpa [taskDoneRaises] using h
      have hcount : countAt p [none] = if JobPriority.high = p then 1 else 0 := by
        rw [countAt_cons, countAt_nil, Nat.zero_add]
        rfl
      rw [hcount]
      exact hone .high hpos

end JobQueue

namespace Loop

/-! ## the tally -/

/-- Where the items put so far stand: `done` are those a worker has called
`task_done` for, `busy` those it has received and not finished. -/
structure Tally (s : Loop) (done busy : List (Option Job)) : Prop where
  unfinished : ∀ p, (s.queue.queue p).unfinished + countAt p (done ++ s.evicted ++ s.drained) =
    countAt p s.puts
  returned : s.returned.Perm (done ++ busy)
  conserved : ∃ lost, s.Conserved lost
  accepted : s.puts.reduceOption = s.acceptedJobs

/-- Nothing is unfinished in a new queue. -/
theorem init_tally (n : Nat) (maxSize : Int) (fullPolicy : String) (ttl : ℚ) :
    (init n maxSize fullPolicy ttl).Tally [] [] where
  unfinished p := by cases p <;> rfl
  returned := List.Perm.refl _
  conserved := ⟨[], init_conserved n maxSize fullPolicy ttl⟩
  accepted := rfl

/-- Only the order of `done` and `busy` changes. -/
theorem Tally.of_perm {s : Loop} {done busy busy' : List (Option Job)} (h : s.Tally done busy)
    (hp : busy.Perm busy') : s.Tally done busy' :=
  ⟨h.unfinished, h.returned.trans (hp.append_left done), h.conserved, h.accepted⟩

/-- What `enqueue` puts is what it answers `enqueued`. -/
theorem step_accepted {s s' : Loop} {l : Label} (ha : s.puts.reduceOption = s.acceptedJobs)
    (h : s.step l = some s') : s'.puts.reduceOption = s'.acceptedJobs := by
  simp only [puts, acceptedJobs, enqueuedCalls] at ha
  cases Step.of_step h with
  | locked i call hcall =>
      have hput := JobQueue.enqueueEvents_put s.queue call.job
      simp only [puts, acceptedJobs, enqueuedCalls, List.filterMap_cons, List.filterMap_append,
        Event.put?, JobQueue.enqueueEvents_enqueued, List.nil_append, hput]
      cases hdecision : (s.queue.enqueueLocked call.job).1 with
      | enqueued => simpa [Event.enqueued?] using ha
      | duplicate => simpa [Event.enqueued?] using ha
      | dropped => simpa [Event.enqueued?] using ha
  | dropOldest =>
      simp only [puts, acceptedJobs, enqueuedCalls, List.filterMap_append, Event.put_evicted,
        Event.enqueued_evicted, List.nil_append]
      exact ha
  | drain =>
      simp only [puts, acceptedJobs, enqueuedCalls, List.filterMap_append, Event.put_drained,
        Event.enqueued_drained, List.nil_append]
      exact ha
  | _ => exact ha

/-- The unfinished counts after a step that is not a `task_done`. -/
theorem step_unfinished {s s' : Loop} {l : Label} {owed : List JobPriority}
    {done : List (Option Job)} (hc : s.Covers owed) (hl : ∀ i job, l ≠ .taskDone i job)
    (hu : ∀ p, (s.queue.queue p).unfinished + countAt p (done ++ s.evicted ++ s.drained) =
      countAt p s.puts)
    (h : s.step l = some s') (p : JobPriority) :
    (s'.queue.queue p).unfinished + countAt p (done ++ s'.evicted ++ s'.drained) =
      countAt p s'.puts := by
  have hp := hu p
  simp only [countAt_append] at hp ⊢
  cases Step.of_step h with
  | duplicate job now q hclock hseen =>
      rw [JobQueue.queue_seenCheck hseen p]
      exact hp
  | fresh job now q hclock hseen =>
      rw [JobQueue.queue_seenCheck hseen p]
      exact hp
  | locked i call hcall =>
      have hcount := JobQueue.unfinished_enqueueLocked hc.queue call.job p
      simp only [puts, evicted, drained, List.filterMap_cons, List.filterMap_append, Event.put?,
        Event.evicted?, Event.drained?, JobQueue.enqueueEvents_drained, List.nil_append,
        countAt_append] at hp ⊢
      omega
  | putRaw =>
      have hcount := JobQueue.unfinished_putRaw s.queue p
      simp only [puts, evicted, drained, List.filterMap_cons, Event.put?, Event.evicted?,
        Event.drained?, countAt_cons] at hp ⊢
      omega
  | dropOldest =>
      have hcount := JobQueue.unfinished_dropOldest hc.queue p
      simp only [puts, evicted, drained, List.filterMap_append, Event.put_evicted,
        Event.evicted_evicted, Event.drained_evicted, List.nil_append, countAt_append] at hp ⊢
      omega
  | drain =>
      have hcount := JobQueue.unfinished_drain hc.queue p
      simp only [puts, evicted, drained, List.filterMap_append, Event.put_drained,
        Event.evicted_drained, Event.drained_drained, List.nil_append, countAt_append] at hp ⊢
      omega
  | getReady i lastQueue item p' q hgetter hready =>
      obtain ⟨m, htake, rfl, -⟩ := JobQueue.getReady_eq_some hready
      have hsame := JobQueue.unfinished_takeFrom htake p
      simp only [puts, evicted, drained, List.filterMap_cons, Event.put?, Event.evicted?,
        Event.drained?, JobQueue.unfinished_decremented] at hp ⊢
      omega
  | getWait i lastQueue hgetter hready => exact hp
  | childTakes i p' phase lastQueue item q hgetter htask htake =>
      rw [JobQueue.unfinished_takeFrom htake p]
      exact hp
  | resume i winner phase lastQueue item hgetter htask =>
      simp only [puts, evicted, drained, List.filterMap_cons, Event.put?, Event.evicted?,
        Event.drained?, JobQueue.unfinished_decremented] at hp ⊢
      exact hp
  | taskDone i job getter hgetter => exact absurd rfl (hl i job)

/-- **Step lemma.**  A step that is not a `task_done` keeps the tally, with the
item it delivers among the busy ones. -/
theorem step_tally {s s' : Loop} {l : Label} {owed : List JobPriority}
    {done busy : List (Option Job)} (hc : s.Covers owed) (ht : s.Tally done busy)
    (hl : ∀ i job, l ≠ .taskDone i job) (h : s.step l = some s') :
    s'.Tally done (((s.delivers l).map Prod.fst).toList ++ busy) := by
  obtain ⟨lost, hlost⟩ := ht.conserved
  obtain ⟨hreturned, -⟩ := step_delivers h
  refine ⟨step_unfinished hc hl ht.unfinished h, ?_, ⟨_, step_conserves hlost h⟩,
    step_accepted ht.accepted h⟩
  rw [hreturned]
  have hgrow := ht.returned.append_left ((s.delivers l).map Prod.fst).toList
  refine hgrow.trans ?_
  rw [← List.append_assoc, ← List.append_assoc]
  exact (List.perm_append_comm).append_right busy

/-- A `task_done` that does not raise moves its item from the busy ones to the
done ones. -/
theorem Tally.taskDone {s : Loop} {done busy : List (Option Job)} {job : Option Job}
    {last : Option JobPriority} (ht : s.Tally done (job :: busy))
    (hraises : s.queue.taskDoneRaises job last = false) (hlast : job = none → last = some .high) :
    ({ s with queue := s.queue.taskDone job last } : Loop).Tally (job :: done) busy := by
  refine ⟨fun p => ?_, ht.returned.trans List.perm_middle, ?_, ht.accepted⟩
  · have hp := ht.unfinished p
    have hcount := JobQueue.unfinished_taskDone hraises hlast p
    simp only [evicted, drained, puts, countAt_append, countAt_cons, countAt_nil] at hp hcount ⊢
    omega
  · obtain ⟨lost, hlost⟩ := ht.conserved
    refine ⟨lost, ?_⟩
    have hwaiting := JobQueue.waiting_taskDone s.queue job last
    rw [Conserved, places] at hlost ⊢
    rw [hwaiting]
    exact hlost

/-! ## what a count of zero says -/

/-- What has been done with, evicted or drained was put. -/
theorem Tally.settled_subperm {s : Loop} {done busy : List (Option Job)} (ht : s.Tally done busy) :
    (done ++ s.evicted ++ s.drained).Subperm s.puts := by
  classical
  obtain ⟨lost, hlost⟩ := ht.conserved
  refine List.subperm_ext_iff.mpr fun item _ => ?_
  have hcount := (conserved_iff s lost).mp hlost (· == item)
  have hreturned := ht.returned.countP_eq (· == item)
  simp only [List.count, List.countP_append] at hcount hreturned ⊢
  omega

/-- The jobs settled so far: handled, evicted or drained. -/
def settled (s : Loop) (done : List (Option Job)) : List Job :=
  done.reduceOption ++ s.evicted.reduceOption ++ s.drained.reduceOption

/-- What is settled has been done, has given way, or was drained. -/
theorem settled_eq (s : Loop) (done : List (Option Job)) :
    s.settled done = (done ++ s.evicted ++ s.drained).reduceOption := by
  simp [settled, List.reduceOption_append]

/-- Picking out the items of one queue and then the jobs, or the other way round. -/
theorem reduceOption_filter_home (items : List (Option Job)) (p : JobPriority) :
    (items.filter fun item => home item == p).reduceOption.filter (·.priority == p) =
      items.reduceOption.filter (·.priority == p) := by
  induction items with
  | nil => rfl
  | cons item items ih =>
      cases item with
      | none =>
          rw [List.reduceOption_cons_of_none, List.filter_cons]
          split
          · rw [List.reduceOption_cons_of_none, ih]
          · exact ih
      | some job =>
          rw [List.reduceOption_cons_of_some, List.filter_cons, List.filter_cons]
          by_cases hp : job.priority = p
          · simp [hp, ih]
          · simp [hp, ih]

/-- **When nothing is unfinished in a queue, every job of its priority accepted
so far is settled.** -/
theorem Tally.accepted_settled {s : Loop} {done busy : List (Option Job)} (ht : s.Tally done busy)
    {p : JobPriority} (hzero : (s.queue.queue p).unfinished = 0) :
    (s.acceptedJobs.filter (·.priority == p)).Perm ((s.settled done).filter (·.priority == p)) := by
  have hu := ht.unfinished p
  have hsub := ht.settled_subperm.filter fun item => home item == p
  have hlen : (s.puts.filter fun item => home item == p).length ≤
      ((done ++ s.evicted ++ s.drained).filter fun item => home item == p).length := by
    rw [← List.countP_eq_length_filter, ← List.countP_eq_length_filter]
    rw [hzero, Nat.zero_add] at hu
    exact Nat.le_of_eq hu.symm
  have hperm := hsub.perm_of_length_le hlen
  have hjobs := (hperm.filterMap id).filter (·.priority == p)
  rw [← ht.accepted, settled_eq, ← reduceOption_filter_home s.puts,
    ← reduceOption_filter_home (done ++ s.evicted ++ s.drained)]
  exact hjobs.symm

end Loop

end RubicaBot
