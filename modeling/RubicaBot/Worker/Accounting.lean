import RubicaBot.Queue.Admission
import RubicaBot.Worker

/-!
# RubicaBot.Worker.Accounting

Where the jobs come from that a pool passes to its handler.

A step of the pool is a step of its queue, some sentinels and a change of the counters
(`step_lift`), so what the coroutines of the queue keep among themselves the pool keeps.
`Supplied` is such an invariant: every job that `get` has returned was accepted by
`enqueue`, and no more often than it was accepted.
-/

namespace RubicaBot

open Transition

namespace Loop

/-! ## what is put is accepted -/

/-- Every item put is somewhere or has been discarded, and the jobs among them are those
accepted. -/
structure Supplied (s : Loop) : Prop where
  conserved : ∃ lost, s.Conserved lost
  accepted : s.puts.reduceOption = s.acceptedJobs

/-- Only the items of the queue matter, and the log. -/
theorem Supplied.of_items {s : Loop} (hs : s.Supplied) {q : JobQueue}
    (hq : ∀ p, (q.queue p).items = (s.queue.queue p).items) :
    ({ s with queue := q } : Loop).Supplied := by
  obtain ⟨lost, hc⟩ := hs.conserved
  have hwaiting : q.waiting = s.queue.waiting := congrArg₂ (· ++ ·) (hq .high) (hq .normal)
  refine ⟨⟨lost, ?_⟩, hs.accepted⟩
  rw [Conserved, places, ← hwaiting] at hc
  exact hc

/-- **Step lemma.** -/
theorem step_supplied {s s' : Loop} {l : Label} (hs : s.Supplied) (h : s.step l = some s') :
    s'.Supplied := by
  obtain ⟨lost, hc⟩ := hs.conserved
  refine ⟨⟨_, step_conserves hc h⟩, ?_⟩
  have haccepted := hs.accepted
  simp only [puts, acceptedJobs, enqueuedCalls] at haccepted ⊢
  cases Step.of_step h with
  | locked i call hcall =>
      simp only [List.filterMap_cons, List.filterMap_append, Event.put?, JobQueue.enqueueEvents_put,
        JobQueue.enqueueEvents_enqueued, List.nil_append, List.reduceOption_append, haccepted]
      cases (s.queue.enqueueLocked call.job).1 <;>
        simp [Event.enqueued?, List.reduceOption_cons_of_some]
  | putRaw =>
      simp only [List.filterMap_cons, Event.put?, Event.enqueued?, List.reduceOption_cons_of_none]
      exact haccepted
  | dropOldest =>
      rw [List.filterMap_append, List.filterMap_append, Event.put_evicted, Event.enqueued_evicted]
      exact haccepted
  | drain =>
      rw [List.filterMap_append, List.filterMap_append, Event.put_drained, Event.enqueued_drained]
      exact haccepted
  | _ => exact haccepted

/-- A new queue has nothing in it. -/
theorem init_supplied (n : Nat) (maxSize : Int) (fullPolicy : String) (ttl : ℚ) :
    (init n maxSize fullPolicy ttl).Supplied :=
  ⟨⟨[], init_conserved n maxSize fullPolicy ttl⟩, rfl⟩

/-- What `get` has returned was accepted. -/
theorem Supplied.returned_subperm {s : Loop} (hs : s.Supplied) :
    s.returned.reduceOption.Subperm s.acceptedJobs := by
  obtain ⟨lost, hc⟩ := hs.conserved
  have hplaces : s.puts.Perm
      (s.returned ++ (s.queue.waiting ++ s.held ++ s.evicted ++ s.drained ++ lost)) := by
    refine hc.trans ?_
    rw [places]
    classical
    refine List.perm_iff_count.mpr fun item => ?_
    simp only [List.count_append]
    omega
  have hjobs := hplaces.filterMap id
  rw [List.filterMap_append] at hjobs
  rw [← hs.accepted]
  exact (List.sublist_append_left _ _).subperm.trans hjobs.symm.subperm

end Loop

/-- The call of `enqueue` that the step starts. -/
def Label.call : Label → Option EnqueueCall
  | .enqueue job now => some ⟨job, now⟩
  | _ => none

namespace Loop

/-- A call that has passed its duplicate check was made, and each only once. -/
theorem step_passed {s s' : Loop} {l : Label} (h : s.step l = some s') :
    s'.passed.Subperm (l.call.toList ++ s.passed) := by
  cases Step.of_step h with
  | duplicate job now q hclock hseen => exact (List.sublist_cons_self _ _).subperm
  | fresh job now q hclock hseen =>
      refine List.Perm.subperm ?_
      rw [passed, List.append_assoc]
      exact List.perm_middle
  | locked i call hcall => exact passed_locked hcall _
  | dropOldest =>
      refine List.Perm.subperm (List.Perm.of_eq ?_)
      simp only [passed, enqueuedCalls, List.filterMap_append, Event.enqueued_evicted,
        List.nil_append, Label.call, Option.toList_none]
  | drain =>
      refine List.Perm.subperm (List.Perm.of_eq ?_)
      simp only [passed, enqueuedCalls, List.filterMap_append, Event.enqueued_drained,
        List.nil_append, Label.call, Option.toList_none]
  | _ => exact List.Subperm.refl _

end Loop

namespace WorkerPool

/-! ## from the queue to the pool -/

/-- **Lifting.**  What every step of a coroutine of the queue keeps, and every change of the
counters, the pool keeps. -/
theorem step_lift {A : RubicaBot.Label → Prop} {I : Loop → Prop}
    (hstep : ∀ s l s', A l → I s → s.step l = some s' → I s')
    (hcounters : ∀ s q, q.frame = s.queue.frame →
      (∀ p, (q.queue p).items = (s.queue.queue p).items) → I s → I { s with queue := q })
    (hA : ∀ l, (∀ job now, l ≠ .enqueue job now) → A l) {s s' : WorkerPool} {lab : Label}
    (hlab : ∀ l, lab = .queue l → A l) (hs : I s.loop) (h : s.step lab = some s') :
    I s'.loop := by
  have hown {i : Nat} {l : RubicaBot.Label} (hown : lab.own = some (i, l)) : A l := by
    refine hA l ?_
    rintro job now rfl
    cases Label.caller_of_own hown
  have hdone (s : Loop) (job : Option Job) (last : Option JobPriority) (hs : I s) :
      I { s with queue := s.queue.taskDone job last } :=
    hcounters s _ (JobQueue.frame_taskDone _ _ _) (JobQueue.items_queue_taskDone _ _ _) hs
  cases Step.of_step h with
  | queue l loop hl hloop => exact hstep _ l _ (hlab l rfl) hs hloop
  | waits lab i l hlown status loop hworker hloop hdel => exact hstep _ l _ (hown hlown) hs hloop
  | job lab i l hlown status loop hworker hloop job p hdel =>
      exact hstep _ l _ (hown hlown) hs hloop
  | sentinel lab i l hlown status loop hworker hloop p hdel =>
      exact hdone loop _ _ (hstep _ l _ (hown hlown) hs hloop)
  | handled i error now status job hworker =>
      refine hdone (s.recordDispatch error.isSome).loop _ _ ?_
      exact hcounters s.loop _ rfl (fun p => by cases p <;> rfl) hs
  | stop hbefore =>
      have hput (n : Nat) (s : Loop) (hs : I s) : I (s.putSentinels n) := by
        induction n generalizing s with
        | zero => exact hs
        | succ n ih => exact ih _ (hstep s .putRaw _ (hA _ nofun) hs rfl)
      exact hput _ _ hs
  | stopReturns hbefore hended => exact hs

theorem step_supplied {s s' : WorkerPool} {lab : Label} (hs : s.loop.Supplied)
    (h : s.step lab = some s') : s'.loop.Supplied :=
  step_lift (A := fun _ => True) (fun _ _ _ _ hs h => Loop.step_supplied hs h)
    (fun _ _ _ hq hs => hs.of_items hq) (fun _ _ => trivial) (fun _ _ => trivial) hs h

/-- The calls that have passed their duplicate check are apart. -/
theorem step_spaced {ttl : ℚ} (httl : 0 ≤ ttl) {s s' : WorkerPool} {lab : Label}
    (hs : ∃ log, s.loop.Spaced ttl log) (h : s.step lab = some s') :
    ∃ log, s'.loop.Spaced ttl log := by
  refine step_lift (A := fun _ => True) (I := fun s => ∃ log, s.Spaced ttl log) ?_ ?_
    (fun _ _ => trivial) (fun _ _ => trivial) hs h
  · intro s l s' _ hs h
    obtain ⟨log, hs⟩ := hs
    exact Loop.step_spaced httl hs h
  · intro s q hframe _ hs
    obtain ⟨log, hs⟩ := hs
    exact ⟨log, hs.of_frame rfl rfl hframe⟩

/-- The call of `enqueue` that the step starts. -/
def Label.call : Label → Option EnqueueCall
  | .queue l => l.call
  | _ => none

theorem step_passed {s s' : WorkerPool} {lab : Label} (h : s.step lab = some s') :
    s'.loop.passed.Subperm (lab.call.toList ++ s.loop.passed) := by
  by_cases hcall : ∃ job now, lab = .queue (.enqueue job now)
  · obtain ⟨job, now, rfl⟩ := hcall
    cases Step.of_step h with
    | queue l loop hl hstep => exact Loop.step_passed hstep
    | waits lab i l hown => cases hown
    | job lab i l hown => cases hown
    | sentinel lab i l hown => cases hown
  · have hnone : ∀ l : RubicaBot.Label, (∀ job now, l ≠ .enqueue job now) → l.call = none := by
      intro l hl
      cases l with
      | enqueue job now => exact absurd rfl (hl job now)
      | _ => rfl
    refine List.Subperm.trans ?_ (List.sublist_append_right _ _).subperm
    refine step_lift (A := fun l => ∀ job now, l ≠ .enqueue job now)
      (I := fun loop => loop.passed.Subperm s.loop.passed) ?_ (fun _ _ _ _ hs => hs)
      (fun _ hl => hl) (fun l hl job now heq => hcall ⟨job, now, by rw [hl, heq]⟩)
      (List.Subperm.refl _) h
    intro m l m' hl hm hstep
    have hsub := Loop.step_passed hstep
    rw [hnone l hl] at hsub
    exact hsub.trans hm

/-! ## what is passed to the handler -/

/-- **Nothing is made up.**  The jobs passed to the handler are among those accepted, each
no more often than it was. -/
theorem Sound.passed_subperm {s : WorkerPool} (hs : s.Sound) (hsup : s.loop.Supplied) :
    s.passed.Subperm s.loop.acceptedJobs := by
  rw [← hs.passed]
  exact hsup.returned_subperm

/-- A worker's step of `get` passes on the job that it delivers. -/
theorem passed_of_own {s s' : WorkerPool} {lab : Label} {i : Nat} {l : RubicaBot.Label}
    (hown : lab.own = some (i, l)) (h : s.step lab = some s') :
    s'.passed = ((s.loop.delivers l).bind Prod.fst).toList ++ s.passed := by
  cases Step.of_step h with
  | waits lab i' l' hown' status loop hworker hstep hdel =>
      rw [hown, Option.some.injEq, Prod.mk.injEq] at hown'
      rw [hown'.2, hdel]
      rfl
  | job lab i' l' hown' status loop hworker hstep job p hdel =>
      rw [hown, Option.some.injEq, Prod.mk.injEq] at hown'
      rw [hown'.2, hdel]
      rfl
  | sentinel lab i' l' hown' status loop hworker hstep p hdel =>
      rw [hown, Option.some.injEq, Prod.mk.injEq] at hown'
      rw [hown'.2, hdel]
      rfl
  | queue | handled | stop | stopReturns => cases hown

/-- Any other step passes on nothing. -/
theorem passed_of_not_own {s s' : WorkerPool} {lab : Label} (hown : lab.own = none)
    (h : s.step lab = some s') : s'.passed = s.passed := by
  cases Step.of_step h with
  | waits lab i l hown' => cases hown.symm.trans hown'
  | job lab i l hown' => cases hown.symm.trans hown'
  | sentinel lab i l hown' => cases hown.symm.trans hown'
  | queue | handled | stop | stopReturns => rfl

end WorkerPool

end RubicaBot
