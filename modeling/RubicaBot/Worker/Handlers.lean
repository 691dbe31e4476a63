import Mathlib.Logic.Function.Basic
import RubicaBot.Worker.Join

/-!
# RubicaBot.Worker.Handlers

Which worker handles which job, and how often each has called the handler.

Both change at one worker at a time: `get` gives a job to a worker that handles none, and
`handled` takes it away.
-/

namespace RubicaBot

open Transition

/-- Replacing one entry of a list changes what is read off the list there. -/
theorem elim_set {α β : Type} (z : β) (f : α → β) {xs : List α} {i : Nat} {x : α}
    (h : xs[i]? = some x) (y : α) :
    (fun j => (xs.set i y)[j]?.elim z f) =
      Function.update (fun j => xs[j]?.elim z f) i (f y) := by
  obtain ⟨hi, -⟩ := List.getElem?_eq_some_iff.mp h
  funext j
  by_cases hij : j = i
  · subst hij
    rw [Function.update_self, List.getElem?_set_self hi]
    rfl
  · rw [Function.update_of_ne hij, List.getElem?_set_ne (Ne.symm hij)]

namespace WorkerPool

/-- The job that worker `i` handles. -/
def jobOf (s : WorkerPool) (i : Nat) : Option Job :=
  s.workers[i]?.elim none (·.phase.jobs.head?)

/-- How often worker `i` has called the handler. -/
def handlerCalls (s : WorkerPool) (i : Nat) : Nat :=
  s.workers[i]?.elim 0 fun w => w.status.processed + w.phase.jobs.length

variable {s s' : WorkerPool} {lab : Label} {i : Nat} {l : RubicaBot.Label}

/-- A worker that has a job is in the handler. -/
theorem jobOf_eq_some {job : Job} (h : s.jobOf i = some job) :
    ∃ status, s.workers[i]? = some ⟨status, .handling job⟩ := by
  unfold jobOf at h
  cases hworker : s.workers[i]? with
  | none =>
      rw [hworker] at h
      cases h
  | some w =>
      obtain ⟨status, phase⟩ := w
      rw [hworker] at h
      cases phase with
      | handling job' =>
          cases h
          exact ⟨status, rfl⟩
      | looping | exited | crashed => cases h

/-- Only the workers there are have jobs. -/
theorem lt_length_of_jobOf (h : (s.jobOf i).isSome = true) : i < s.workers.length := by
  obtain ⟨job, hjob⟩ := Option.isSome_iff_exists.mp h
  obtain ⟨status, hworker⟩ := jobOf_eq_some hjob
  exact (List.getElem?_eq_some_iff.mp hworker).1

/-- The job of a worker that is in the handler. -/
theorem jobOf_of_handling {status : WorkerStatus} {job : Job}
    (h : s.workers[i]? = some ⟨status, .handling job⟩) : s.jobOf i = some job := by
  rw [jobOf, h]
  rfl

/-- One worker changes, and with it its job. -/
theorem jobOf_set {w : Worker} (h : s.workers[i]? = some w) (w' : Worker)
    (hs' : s'.workers = s.workers.set i w') :
    s'.jobOf = Function.update s.jobOf i w'.phase.jobs.head? := by
  have hset := elim_set none (fun w : Worker => w.phase.jobs.head?) h w'
  rw [← hs'] at hset
  exact hset

/-- And with it the number of its calls. -/
theorem handlerCalls_set {w : Worker} (h : s.workers[i]? = some w) (w' : Worker)
    (hs' : s'.workers = s.workers.set i w') : s'.handlerCalls =
      Function.update s.handlerCalls i (w'.status.processed + w'.phase.jobs.length) := by
  have hset := elim_set 0 (fun w : Worker => w.status.processed + w.phase.jobs.length) h w'
  rw [← hs'] at hset
  exact hset

/-- The handlers and their workers are as before. -/
structure SameHandlers (s s' : WorkerPool) : Prop where
  jobs : s'.jobOf = s.jobOf
  calls : s'.handlerCalls = s.handlerCalls
  length : s'.workers.length = s.workers.length

/-- The workers are all that matters. -/
theorem SameHandlers.of_workers (h : s'.workers = s.workers) : SameHandlers s s' := by
  refine ⟨?_, ?_, congrArg List.length h⟩
  · funext i
    rw [jobOf, jobOf, h]
  · funext i
    rw [handlerCalls, handlerCalls, h]

/-- Replacing a worker outside of its handler by another one. -/
theorem SameHandlers.of_set {w w' : Worker} (h : s.workers[i]? = some w)
    (hs' : s'.workers = s.workers.set i w') (hjobs : w.phase.jobs = [])
    (hjobs' : w'.phase.jobs = []) (hprocessed : w'.status.processed = w.status.processed) :
    SameHandlers s s' := by
  refine ⟨?_, ?_, ?_⟩
  · rw [jobOf_set h w' hs', Function.update_eq_self_iff, jobOf, h, Option.elim_some, hjobs, hjobs']
  · rw [handlerCalls_set h w' hs', Function.update_eq_self_iff, handlerCalls, h, Option.elim_some,
      hjobs, hjobs', hprocessed]
  · rw [hs', List.length_set]

/-- A step of `get` that returns no job. -/
theorem sameHandlers_of_own (hs : s.Sound) (hown : lab.own = some (i, l))
    (hdel : (s.loop.delivers l).bind Prod.fst = none) (h : s.step lab = some s') :
    SameHandlers s s' := by
  have hs' := step_sound hs h
  cases Step.of_step h with
  | waits => exact .of_workers rfl
  | job lab i' l' hown' status loop hworker hstep job p hdel' =>
      rw [hown, Option.some.injEq, Prod.mk.injEq] at hown'
      rw [hown'.2, hdel'] at hdel
      cases hdel
  | sentinel lab i' l' hown' status loop hworker hstep p hdel' =>
      have hraises := not_raises_of_sound (s := { s with loop := loop }) hworker hs'
      exact .of_set hworker (congrArg workers (taskDone_eq _ hraises)) rfl rfl rfl
  | queue | handled | stop | stopReturns => cases hown

/-- A step that is not of `get`, and ends no handler. -/
theorem sameHandlers_of_not_own (hown : lab.own = none)
    (hhandled : ∀ i error now, lab ≠ .handled i error now) (h : s.step lab = some s') :
    SameHandlers s s' := by
  cases Step.of_step h with
  | queue | stop | stopReturns => exact .of_workers rfl
  | handled i error now => exact absurd rfl (hhandled i error now)
  | waits lab i l hown' => cases hown.symm.trans hown'
  | job lab i l hown' => cases hown.symm.trans hown'
  | sentinel lab i l hown' => cases hown.symm.trans hown'

/-- `get` gives a job to a worker that handles none. -/
theorem jobOf_of_own (hown : lab.own = some (i, l)) {job : Job}
    (hdel : (s.loop.delivers l).bind Prod.fst = some job) (h : s.step lab = some s') :
    s.jobOf i = none ∧ i < s.workers.length ∧
      s'.jobOf = Function.update s.jobOf i (some job) ∧
      s'.handlerCalls = Function.update s.handlerCalls i (s.handlerCalls i + 1) ∧
      s'.workers.length = s.workers.length := by
  cases Step.of_step h with
  | waits lab i' l' hown' status loop hworker hstep hdel' =>
      rw [hown, Option.some.injEq, Prod.mk.injEq] at hown'
      rw [hown'.2, hdel'] at hdel
      cases hdel
  | sentinel lab i' l' hown' status loop hworker hstep p hdel' =>
      rw [hown, Option.some.injEq, Prod.mk.injEq] at hown'
      rw [hown'.2, hdel'] at hdel
      cases hdel
  | job lab i' l' hown' status loop hworker hstep job' p hdel' =>
      rw [hown, Option.some.injEq, Prod.mk.injEq] at hown'
      obtain ⟨rfl, rfl⟩ := hown'
      rw [hdel'] at hdel
      cases hdel
      refine ⟨?_, (List.getElem?_eq_some_iff.mp hworker).1,
        jobOf_set hworker ⟨status, .handling job⟩ rfl, ?_, List.length_set⟩
      · rw [jobOf, hworker]
        rfl
      · rw [handlerCalls_set hworker ⟨status, .handling job⟩ rfl, handlerCalls, hworker]
        rfl
  | queue | handled | stop | stopReturns => cases hown

/-- The end of a handler. -/
theorem jobOf_of_handled (hs : s.Sound) {error : Option (String × Instant)} {now : Instant}
    (h : s.step (.handled i error now) = some s') :
    (s.jobOf i).isSome = true ∧ s'.jobOf = Function.update s.jobOf i none ∧
      s'.handlerCalls = s.handlerCalls ∧ s'.workers.length = s.workers.length := by
  have hs' := step_sound hs h
  cases Step.of_step h with
  | handled i error now status job hworker =>
      have hraises := not_raises_of_sound (s := s.recordDispatch error.isSome) hworker hs'
      have hset := congrArg workers (taskDone_eq ⟨finished status error now, .looping⟩ hraises)
      refine ⟨?_, jobOf_set hworker _ hset, ?_, ?_⟩
      · rw [jobOf_of_handling hworker]
        rfl
      · rw [handlerCalls_set hworker _ hset, Function.update_eq_self_iff, handlerCalls, hworker]
        cases error <;> rfl
      · rw [hset]
        exact List.length_set
  | waits lab i l hown => cases hown
  | job lab i l hown => cases hown
  | sentinel lab i l hown => cases hown

end WorkerPool

end RubicaBot
