import RubicaBot.Queue.Backlog

/-!
# RubicaBot.Queue.Placement

Which queue a job waits in.

Every job waits in the queue of its priority and came in through `enqueue`
(`step_placed`).  `_drop_oldest` looks at the normal queue first, so a victim of
high priority means that no job of normal priority waits (`Placed.victim`).
-/

namespace RubicaBot

open Transition

namespace JobQueue

/-- The items of each queue belong there, and the jobs among them meet `P`. -/
def Holds (P : Job → Prop) (q : JobQueue) : Prop :=
  ∀ p, ∀ item ∈ (q.queue p).items, Belongs p item ∧ ∀ job, item = some job → P job

variable {P : Job → Prop} {q q' : JobQueue}

/-- A queue that gained no item. -/
theorem Holds.of_subset (h : q.Holds P) (hsub : ∀ p, (q'.queue p).items ⊆ (q.queue p).items) :
    q'.Holds P := fun p item hitem => h p item (hsub p hitem)

/-- What is left is what was there. -/
theorem Holds.dropOldest (h : q.Holds P) : q.dropOldest.Holds P := by
  obtain ⟨taken, htaken, -⟩ := Loop.dropOldest_moves q
  refine h.of_subset fun p => ?_
  rw [htaken p]
  exact List.subset_append_right _ _

/-- A job of which it holds may come in. -/
theorem Holds.put (h : q.Holds P) {job : Job} (hjob : P job) : ((q.put job).counted).Holds P := by
  intro p item hitem
  have hitems : (((q.put job).counted).queue p).items =
      (q.queue p).items ++ if job.priority = p then [some job] else [] := q.queue_put job p
  rw [hitems, List.mem_append] at hitem
  rcases hitem with hitem | hitem
  · exact h p item hitem
  · split at hitem
    · next hp =>
        rw [List.mem_singleton.mp hitem]
        refine ⟨hp, fun job' hjob' => ?_⟩
        cases hjob'
        exact hjob
    · cases hitem

/-- So `enqueue` keeps it under its lock. -/
theorem Holds.enqueueLocked (h : q.Holds P) {job : Job} (hjob : P job) :
    (q.enqueueLocked job).2.Holds P := by
  by_cases hfull : q.isFull
  · by_cases hpolicy : q.fullPolicy = "drop_oldest"
    · simpa only [JobQueue.enqueueLocked, hfull, hpolicy, if_true] using h.dropOldest.put hjob
    · simp only [JobQueue.enqueueLocked, hfull, hpolicy, if_true, if_false]
      exact h.of_subset fun p => by cases p <;> exact List.Subset.refl _
  · simpa only [JobQueue.enqueueLocked, hfull, Bool.false_eq_true, if_false] using h.put hjob

/-- And so does taking an item. -/
theorem Holds.takeFrom (h : q.Holds P) {p : JobPriority} {item : Option Job}
    (htake : q.takeFrom p = some (item, q')) : q'.Holds P := by
  obtain ⟨a, hitems, rfl⟩ := JobQueue.takeFrom_eq_some htake
  refine h.of_subset fun p' => ?_
  by_cases hp : p' = p
  · subst hp
    rw [JobQueue.queue_setQueue_same, hitems]
    exact List.subset_cons_self _ _
  · rw [JobQueue.queue_setQueue_ne _ hp]
    exact List.Subset.refl _

/-- **Victims.**  A job of high priority is dropped only when the normal queue is
empty. -/
theorem Holds.victim (h : q.Holds P) {job : Job} (hv : q.victim = some (some job)) :
    P job ∧ (job.priority = .high → q.normalQueue.items = []) := by
  unfold JobQueue.victim at hv
  cases hnormal : q.normalQueue.items with
  | nil =>
      rw [hnormal] at hv
      have hmem : some job ∈ q.highQueue.items := List.mem_of_mem_head? (by simpa using hv)
      exact ⟨(h .high _ hmem).2 job rfl, fun _ => rfl⟩
  | cons item items =>
      rw [hnormal] at hv
      have hitem : item = some job := by simpa using hv
      have hmem : some job ∈ (q.queue .normal).items := by
        rw [← hitem]
        exact hnormal ▸ List.mem_cons_self
      obtain ⟨hbelongs, hP⟩ := h .normal _ hmem
      refine ⟨hP job rfl, fun hhigh => ?_⟩
      rw [Belongs, hhigh] at hbelongs
      cases hbelongs

end JobQueue

namespace Loop

/-- The jobs at the lock and in the queues meet `P`, the latter each in the queue
of its priority. -/
structure Placed (P : Job → Prop) (s : Loop) : Prop where
  waiters : ∀ call ∈ s.lockWaiters, P call.job
  queue : s.queue.Holds P

/-- There is nothing in a new queue. -/
theorem init_placed (P : Job → Prop) (n : Nat) (maxSize : Int) (fullPolicy : String) (ttl : ℚ) :
    (init n maxSize fullPolicy ttl).Placed P := by
  refine ⟨fun call h => ?_, fun p item h => ?_⟩
  · cases h
  · cases p <;> cases h

/-- **Step lemma.**  If `enqueue` is called with such jobs only. -/
theorem step_placed {P : Job → Prop} {s s' : Loop} {l : Label} (hs : s.Placed P)
    (hl : ∀ job now, l = .enqueue job now → P job) (h : s.step l = some s') : s'.Placed P := by
  obtain ⟨hwaiters, hq⟩ := hs
  cases Step.of_step h with
  | duplicate job now q hclock hseen =>
      have hsame := JobQueue.queue_seenCheck hseen
      exact ⟨hwaiters, hq.of_subset fun p => by rw [hsame p]; exact List.Subset.refl _⟩
  | fresh job now q hclock hseen =>
      have hsame := JobQueue.queue_seenCheck hseen
      refine ⟨fun call hcall => ?_, hq.of_subset fun p => by rw [hsame p]; exact List.Subset.refl _⟩
      rcases List.mem_append.mp hcall with hcall | hcall
      · exact hwaiters call hcall
      · rw [List.mem_singleton.mp hcall]
        exact hl job now rfl
  | locked i call hcall =>
      exact ⟨fun call' hcall' => hwaiters call' (List.mem_of_mem_eraseIdx hcall'),
        hq.enqueueLocked (hwaiters call (List.mem_of_getElem? hcall))⟩
  | putRaw =>
      refine ⟨hwaiters, fun p item hitem => ?_⟩
      cases p with
      | normal => exact hq .normal item hitem
      | high =>
          rcases List.mem_append.mp hitem with hitem | hitem
          · exact hq .high item hitem
          · rw [List.mem_singleton.mp hitem]
            exact ⟨rfl, fun job hjob => by cases hjob⟩
  | dropOldest => exact ⟨hwaiters, hq.dropOldest⟩
  | drain =>
      refine ⟨hwaiters, fun p item hitem => ?_⟩
      have hnil : (s.queue.drain.2.queue p).items = [] := by
        cases p <;> simp [JobQueue.drain, JobQueue.queue]
      rw [hnil] at hitem
      cases hitem
  | getReady i lastQueue item p q hgetter hready =>
      obtain ⟨m, htake, rfl, -⟩ := JobQueue.getReady_eq_some hready
      refine ⟨hwaiters, (hq.takeFrom htake).of_subset fun p => ?_⟩
      cases p <;> exact List.Subset.refl _
  | getWait i lastQueue hgetter hready => exact ⟨hwaiters, hq⟩
  | childTakes i p phase lastQueue item q hgetter htask htake => exact ⟨hwaiters, hq.takeFrom htake⟩
  | resume i winner phase lastQueue item hgetter htask =>
      exact ⟨hwaiters, hq.of_subset fun p => by cases p <;> exact List.Subset.refl _⟩
  | taskDone i job getter hgetter =>
      refine ⟨hwaiters, hq.of_subset fun p => ?_⟩
      rw [JobQueue.items_queue_taskDone]
      exact List.Subset.refl _

/-- **Run lemma.** -/
theorem run_placed {P : Job → Prop} {s s' : Loop} {ls : List Label} (hs : s.Placed P)
    (hls : ∀ job now, Label.enqueue job now ∈ ls → P job) (h : run step s ls = some s') :
    s'.Placed P := by
  refine run_invariant (P := fun _ l => ∀ job now, l = .enqueue job now → P job)
    (fun s l s' hs hl h => step_placed hs hl h) hs (along_of_mem fun l hl s job now heq => ?_) h
  exact hls job now (heq ▸ hl)

end Loop

end RubicaBot
