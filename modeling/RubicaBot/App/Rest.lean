import RubicaBot.App.Concurrency
import RubicaBot.Plugins.Suspending.Length
import RubicaBot.Worker.Rest

/-!
# RubicaBot.App.Rest

The process comes to rest between two requests.

A turn is a step that only the client and the event loop have a part in.  From every state
that is reachable there are no more turns than its `effort`, so the process comes to a state
in which none is left; and then every dispatch is over.  What `drain` and `drop_oldest` take
from the queue may be a sentinel of `stop`, and then `stop` waits for ever.
-/

namespace RubicaBot

open Py Transition

namespace App

/-- The step depends on nothing but the event loop and the client. -/
def Label.isTurn : Label → Bool
  | .queue l => l.isTurn
  | .worker _ _ _ => true
  | .replied _ _ => true
  | .woke _ => true
  | .handled _ _ _ => true
  | _ => false

/-- The pool's effort, each unit of which may start a dispatch, and what is left of the
dispatches. -/
def effort (s : App) : Nat :=
  (Suspending.longest + 1) * s.pool.effort + Suspending.longest * s.unfinished

variable {d : AppSettings} {t₀ : Tables} {s s' : App}

/-! ## the invariant -/

/-- No thread suspends more often than the longest dispatch. -/
structure Paced (s : App) : Prop where
  dismissed : s.pool.Dismissed
  bounded : ∀ t ∈ s.dispatches.threads, t.outcome.Awaits Suspending.longest

/-- What is started suspends at most so often. -/
theorem program_awaits (st : Start) : st.program.Awaits Suspending.longest := by
  cases st with
  | job worker env ctx job => exact Suspending.processJob_awaits env ctx job
  | janitor settings now => exact Coroutine.awaits_atomic _

/-- A new thread is bounded as well. -/
theorem Paced.bounded_start (hp : s.Paced) (st : Start) :
    ∀ t ∈ (s.start st).dispatches.threads, t.outcome.Awaits Suspending.longest := by
  intro t ht
  obtain rfl | ht := List.mem_cons.mp ht
  · exact (program_awaits st).advance _
  · exact hp.bounded t ht

/-- **Step lemma.** -/
theorem step_paced (hs : s.Sound d t₀) (hp : s.Paced) {lab : Label}
    (h : s.step d lab = some s') : s'.Paced := by
  cases Step.of_step h with
  | turnedAway r limiter => exact ⟨hp.dismissed, hp.bounded⟩
  | enqueue r limiter call hcall pool hpool =>
      exact ⟨WorkerPool.step_dismissed hs.pool hp.dismissed hpool, hp.bounded⟩
  | pool lab hlab l hown hcall pool hpool =>
      exact ⟨WorkerPool.step_dismissed hs.pool hp.dismissed hpool, hp.bounded⟩
  | waits l env stats i ql hown pool hpool hdel =>
      exact ⟨WorkerPool.step_dismissed hs.pool hp.dismissed hpool, hp.bounded⟩
  | dispatch l env stats i ql hown pool hpool job hdel =>
      exact ⟨WorkerPool.step_dismissed hs.pool hp.dismissed hpool, hp.bounded_start _⟩
  | resumed lab hlab n reply t hthread hreply dispatches hstep =>
      refine ⟨hp.dismissed, ?_⟩
      cases Threads.Step.of_step hstep with
      | reply n reply t' c k hthread' hawaiting =>
          intro t'' ht''
          rcases List.mem_or_eq_of_mem_set ht'' with ht'' | rfl
          · exact hp.bounded t'' ht''
          · have hawaits := hp.bounded t' (List.mem_of_getElem? hthread')
            rw [hawaiting] at hawaits
            exact ((hawaits.2 reply).mono (Nat.sub_le _ _)).advance _
  | janitor now => exact ⟨hp.dismissed, hp.bounded_start _⟩

/-- A new process has no dispatches. -/
theorem init_paced (d : AppSettings) (t₀ : Tables) : (init d t₀).Paced := by
  obtain ⟨hstaffed, hput, hreceived⟩ := WorkerPool.init_dismissed d.concurrency d.queueMaxSize
    d.queueFullPolicy d.dedupTtl
  exact ⟨⟨hstaffed, hput, hreceived⟩, fun _ ht => absurd ht List.not_mem_nil⟩

/-- **Run lemma.** -/
theorem run_paced {ls : List Label} (h : run (step d) (init d t₀) ls = some s) : s.Paced :=
  run_of_sound (fun _ _ _ hs hp hstep => step_paced hs hp hstep) (init_paced d t₀) h

/-! ## the turns come to an end -/

/-- What is left of a state whose threads have these budgets. -/
def left (s : App) (budgets : List Nat) : Nat :=
  (Suspending.longest + 1) * s.pool.effort + budgets.sum

/-- A turn of the pool that starts at most one dispatch. -/
theorem left_of_pool {budgets budgets' : List Nat} (hpool : s'.pool.effort < s.pool.effort)
    (hsum : budgets'.sum ≤ budgets.sum + Suspending.longest) :
    s'.left budgets' < s.left budgets := by
  have hmul : (Suspending.longest + 1) * (s'.pool.effort + 1) ≤
      (Suspending.longest + 1) * s.pool.effort := Nat.mul_le_mul_left _ hpool
  rw [Nat.mul_add_one] at hmul
  unfold left
  omega

/-- The turns of the pool that no thread has a part in. -/
theorem isTurn_of_ofPool {lab : Label} {l : WorkerPool.Label} (hlab : lab.isTurn = true)
    (hl : lab.ofPool = some l) : l.isTurn = true ∨ ∃ i error now, l = .handled i error now := by
  cases lab with
  | queue l' =>
      cases hl
      exact .inl hlab
  | handled i error now =>
      cases hl
      exact .inr ⟨i, error, now, rfl⟩
  | stop | stopReturns => cases hlab
  | request | worker | replied | woke | janitor => cases hl

/-- **Step lemma.**  A turn takes some of it. -/
theorem step_left (hs : s.Sound d t₀) {budgets : List Nat} (hb : s.dispatches.Budget budgets)
    {lab : Label} (hlab : lab.isTurn = true) (h : s.step d lab = some s') :
    ∃ budgets', s'.dispatches.Budget budgets' ∧ s'.left budgets' < s.left budgets := by
  have hworker {l : WorkerPool.Label} {i : Nat} {ql : RubicaBot.Label}
      (hown : l.own = some (i, ql)) : l.isTurn = true := by
    cases l <;> first | rfl | cases hown
  cases Step.of_step h with
  | turnedAway | enqueue | janitor => cases hlab
  | pool lab hnone l hown hcall pool hpool hl =>
      exact ⟨budgets, hb, left_of_pool
        (WorkerPool.step_effort hs.pool (isTurn_of_ofPool hlab hl) hpool) (Nat.le_add_right _ _)⟩
  | waits l env stats i ql hown pool hpool hdel =>
      exact ⟨budgets, hb, left_of_pool
        (WorkerPool.step_effort hs.pool (.inl (hworker hown)) hpool) (Nat.le_add_right _ _)⟩
  | dispatch l env stats i ql hown pool hpool job hdel =>
      refine ⟨_, hb.start (program_awaits (.job i env _ job)), left_of_pool
        (WorkerPool.step_effort hs.pool (.inl (hworker hown)) hpool) ?_⟩
      rw [List.sum_cons, Nat.add_comm]
  | resumed lab hnone n reply t hthread hreply dispatches hstep =>
      obtain ⟨budgets', hb', hlt⟩ := hb.reply hstep
      exact ⟨budgets', hb', Nat.add_lt_add_left hlt _⟩

/-- No turn is left. -/
def AtRest {σ : Type} [Programs σ] (d : AppSettings) (s : App σ) : Prop :=
  ∀ lab, lab.isTurn = true → s.step d lab = none

/-- **The process comes to rest.**  From every state that a run leads to, no sequence of
turns is longer than the effort, and some lead to a state in which no turn is left. -/
theorem comes_to_rest {ls : List Label} (h : run (step d) (init d t₀) ls = some s) :
    (∀ turns s', (∀ lab ∈ turns, lab.isTurn = true) → run (step d) s turns = some s' →
      turns.length ≤ s.effort) ∧
    ∃ turns s', (∀ lab ∈ turns, lab.isTurn = true) ∧ run (step d) s turns = some s' ∧
      AtRest d s' := by
  obtain ⟨budgets, hb, hsum⟩ := Threads.exists_budget (run_paced h).bounded
  have hleft : s.left budgets = s.effort := by
    rw [left, hsum]
    rfl
  have hstep : ∀ (s : App) (lab : Label) (s' : App) (n : Nat),
      (s.Sound d t₀ ∧ ∃ budgets, s.dispatches.Budget budgets ∧ s.left budgets = n) →
      lab.isTurn = true → s.step d lab = some s' →
      ∃ m < n, s'.Sound d t₀ ∧ ∃ budgets, s'.dispatches.Budget budgets ∧ s'.left budgets = m := by
    rintro s lab s' n ⟨hs, budgets, hb, rfl⟩ hlab hstep
    obtain ⟨budgets', hb', hlt⟩ := step_left hs hb hlab hstep
    exact ⟨_, hlt, step_sound hs hstep, budgets', hb', rfl⟩
  have h₀ : s.Sound d t₀ ∧ ∃ budgets, s.dispatches.Budget budgets ∧ s.left budgets = s.effort :=
    ⟨run_sound h, budgets, hb, hleft⟩
  exact ⟨fun turns s' hturns hrun => run_potential hstep h₀ hturns hrun,
    exists_maximal_run hstep h₀⟩

/-! ## when no turn is left -/

/-- A thread that waits for something can be given it. -/
theorem resume_isSome {n : Nat} (reply : Except PyError PyVal)
    {t : Thread Tables Suspension PyVal PyError Unit} (hthread : s.dispatches.threads[n]? = some t)
    {c : Suspension} (hwaits : t.waitsFor = some c) : s.resume n reply ≠ none := by
  unfold Thread.waitsFor at hwaits
  split at hwaits
  · next c' k hawaiting =>
      simp only [resume, Threads.step, hthread, hawaiting]
      exact Option.some_ne_none _
  · cases hwaits

/-- At rest every coroutine that was started is over. -/
theorem AtRest.finished (h : AtRest d s) {t : Thread Tables Suspension PyVal PyError Unit}
    (ht : t ∈ s.dispatches.threads) : t.result.isSome = true := by
  obtain ⟨n, hn, hget⟩ := List.getElem_of_mem ht
  have hthread : s.dispatches.threads[n]? = some t := by rw [List.getElem?_eq_getElem hn, hget]
  cases hwaits : t.waitsFor with
  | none =>
      unfold Thread.waitsFor at hwaits
      unfold Thread.result
      split at hwaits
      · cases hwaits
      · rfl
  | some c =>
      have hbind : s.dispatches.threads[n]?.bind Thread.waitsFor = some c := by
        rw [hthread]
        exact hwaits
      cases c with
      | api call =>
          have hnone := h (.replied n (.ok .none)) rfl
          simp only [step, hbind] at hnone
          exact absurd hnone (resume_isSome _ hthread hwaits)
      | sleep =>
          have hnone := h (.woke n) rfl
          simp only [step, hbind] at hnone
          exact absurd hnone (resume_isSome _ hthread hwaits)

/-- What the process cannot do for the pool the pool cannot do. -/
theorem step_none_of_poolStep {l : WorkerPool.Label} (h : s.poolStep l = none) :
    s.pool.step l = none := by
  cases hpool : s.pool.step l with
  | none => rfl
  | some pool =>
      rw [poolStep, hpool] at h
      cases h

/-- Nor can it take the step of a worker. -/
theorem step_none_of_work {l : WorkerPool.Label} {i : Nat} {ql : RubicaBot.Label}
    (hown : l.own = some (i, ql)) {env : Env} {stats : Option StatsView}
    (h : s.work d l env stats = none) : s.pool.step l = none := by
  cases hpool : s.pool.step l with
  | none => rfl
  | some pool =>
      simp only [work, hown, hpool] at h
      split at h <;> cases h

/-- What a worker in its handler has called is over, and so it can go on. -/
theorem AtRest.jobOf_eq_none (hs : s.Sound d t₀) (hserving : Serving d s) (h : AtRest d s)
    (i : Nat) : s.pool.jobOf i = none := by
  refine Option.eq_none_iff_forall_ne_some.mpr fun job hjob => ?_
  obtain ⟨n, env, ctx, hnewest, hst⟩ := hserving.awaited i job hjob
  obtain ⟨status, hw⟩ := WorkerPool.jobOf_eq_some hjob
  obtain ⟨hn, -⟩ := List.getElem?_eq_some_iff.mp hst
  have hthread := List.getElem?_eq_getElem (l := s.dispatches.threads)
    (hs.threaded.length_eq.symm ▸ hn)
  obtain ⟨result, hresult⟩ := Option.isSome_iff_exists.mp (h.finished (List.getElem_mem _))
  have hof : s.resultOf i = some result := by
    rw [resultOf_eq, hnewest, Option.bind_some, hthread]
    exact hresult
  have hhandled (error : Option (String × Instant)) :
      s.pool.step (.handled i error 0) ≠ none := by
    simp only [WorkerPool.step, hw]
    exact Option.some_ne_none _
  cases result with
  | ok value =>
      have hnone := h (.handled i none 0) rfl
      simp only [step, hof] at hnone
      exact hhandled _ (step_none_of_poolStep hnone)
  | error e =>
      have hnone := h (.handled i (some ("", 0)) 0) rfl
      simp only [step, hof] at hnone
      exact hhandled _ (step_none_of_poolStep hnone)

/-- A process at rest has its pool at rest: every dispatch is over, and every handler that could
return has. -/
theorem AtRest.rests (hs : s.Sound d t₀) (hserving : Serving d s) (h : AtRest d s) :
    s.pool.Rests := by
  constructor
  · intro lab hlab
    cases lab with
    | queue l =>
        have hnone := h (.queue l) hlab
        cases l with
        | lockAcquired i => exact step_none_of_poolStep hnone
        | childTakes i p => exact step_none_of_poolStep hnone
        | get | resume => rfl
        | enqueue | putRaw | dropOldest | drain | taskDone => cases hlab
    | get i => exact step_none_of_work rfl (h (.worker (.get i) .plain none) rfl)
    | resume i winner =>
        exact step_none_of_work rfl (h (.worker (.resume i winner) .plain none) rfl)
    | handled | stop | stopReturns => cases hlab
  · intro w hw job hphase
    obtain ⟨i, hi, hget⟩ := List.getElem_of_mem hw
    have hworker : s.pool.workers[i]? = some ⟨w.status, .handling job⟩ := by
      rw [List.getElem?_eq_getElem hi, hget, ← hphase]
    cases (h.jobOf_eq_none hs hserving i).symm.trans (WorkerPool.jobOf_of_handling hworker)

/-! ### a check that can be run -/

/-- The worker waits for both of its child tasks. -/
def isParked : WorkerPhase → GetPhase → Bool
  | .looping, .waiting .pending .pending => true
  | _, _ => false

/-- Every thread is over, nobody waits for the lock, and each worker has ended or waits on
empty queues. -/
def isQuiet (s : App) : Bool :=
  s.dispatches.threads.all (·.result.isSome) && s.pool.loop.lockWaiters.isEmpty &&
    (s.pool.workers.zip s.pool.loop.getters).all fun (w, g) =>
      w.phase.ended || isParked w.phase g.phase && s.pool.loop.queue.waiting.isEmpty

/-- A parked worker waits in `get`, for both queues. -/
theorem isParked_eq_true {w : WorkerPhase} {g : GetPhase} (h : isParked w g = true) :
    w = .looping ∧ g = .waiting .pending .pending := by
  unfold isParked at h
  split at h
  · exact ⟨rfl, rfl⟩
  · cases h

/-- The two ways to be quiet. -/
theorem quiet_worker (hs : s.Sound d t₀) (h : s.isQuiet = true) {i : Nat} {w : Worker}
    {g : Getter} (hw : s.pool.workers[i]? = some w) (hg : s.pool.loop.getters[i]? = some g) :
    (w.phase.ended = true ∧ g.phase = .idle) ∨
      (w.phase = .looping ∧ g.phase = .waiting .pending .pending ∧
        s.pool.loop.queue.waiting = []) := by
  simp only [isQuiet, Bool.and_eq_true, List.all_eq_true] at h
  have hmem : (w, g) ∈ s.pool.workers.zip s.pool.loop.getters :=
    List.mem_of_getElem? (List.getElem?_zip_eq_some.mpr ⟨hw, hg⟩)
  have hquiet := h.2 (w, g) hmem
  rw [Bool.or_eq_true, Bool.and_eq_true, List.isEmpty_iff] at hquiet
  obtain hended | ⟨hparked, hempty⟩ := hquiet
  · refine .inl ⟨hended, hs.pool.idle i w hw ?_ g hg⟩
    intro hlooping
    rw [hlooping] at hended
    cases hended
  · obtain ⟨hlooping, hwaiting⟩ := isParked_eq_true hparked
    exact .inr ⟨hlooping, hwaiting, hempty⟩

/-- A `get` that is parked at a worker of a quiet pool does not go on. -/
theorem quiet_advance (hs : s.Sound d t₀) (h : s.isQuiet = true) {i : Nat} {l : RubicaBot.Label}
    (hparked : ∀ last, s.pool.loop.getters[i]? = some ⟨.waiting .pending .pending, last⟩ →
      s.pool.loop.step l = none) : s.pool.advance i l = none := by
  unfold WorkerPool.advance
  split
  · next status loop hworker hstep =>
      obtain ⟨hi, -⟩ := List.getElem?_eq_some_iff.mp hworker
      have hg := List.getElem?_eq_getElem (l := s.pool.loop.getters) (hs.pool.tasks.symm ▸ hi)
      obtain ⟨hended, -⟩ | ⟨-, hwaiting, -⟩ := quiet_worker hs h hworker hg
      · cases hended
      · rw [hparked _ (hg.trans (by rw [← hwaiting]))] at hstep
        cases hstep
  · rfl

/-- In a quiet process there is nothing to take off a queue. -/
theorem quiet_childTakes (hs : s.Sound d t₀) (h : s.isQuiet = true) (i : Nat) (p : JobPriority) :
    s.pool.step (.queue (.childTakes i p)) = none := by
  cases hg : s.pool.loop.getters[i]? with
  | none => simp [WorkerPool.step, Loop.step, hg]
  | some g =>
      obtain ⟨hi, -⟩ := List.getElem?_eq_some_iff.mp hg
      have hw := List.getElem?_eq_getElem (l := s.pool.workers) (hs.pool.tasks ▸ hi)
      obtain ⟨phase, lastQueue⟩ := g
      obtain ⟨-, hidle⟩ | ⟨-, -, hempty⟩ := quiet_worker hs h hw hg
      · obtain rfl : phase = .idle := hidle
        simp [WorkerPool.step, Loop.step, hg, GetPhase.task]
      · obtain ⟨hhigh, hnormal⟩ := List.append_eq_nil_iff.mp hempty
        have htake : s.pool.loop.queue.takeFrom p = none := by
          rw [JobQueue.takeFrom_eq_none_iff]
          cases p with
          | high => exact hhigh
          | normal => exact hnormal
        simp [WorkerPool.step, Loop.step, hg, htake]

/-- Nor a handler to return. -/
theorem quiet_handled (hs : s.Sound d t₀) (h : s.isQuiet = true) (i : Nat)
    (error : Option (String × Instant)) (now : Instant) :
    s.pool.step (.handled i error now) = none := by
  simp only [WorkerPool.step]
  split
  · next status job hw =>
      obtain ⟨hi, -⟩ := List.getElem?_eq_some_iff.mp hw
      have hg := List.getElem?_eq_getElem (l := s.pool.loop.getters) (hs.pool.tasks.symm ▸ hi)
      obtain ⟨hended, -⟩ | ⟨hlooping, -⟩ := quiet_worker hs h hw hg
      · cases hended
      · cases hlooping
  · rfl

/-- So a quiet process is at rest; this can be evaluated. -/
theorem atRest_of_isQuiet (hs : s.Sound d t₀) (h : s.isQuiet = true) : AtRest d s := by
  have hquiet := h
  simp only [isQuiet, Bool.and_eq_true, List.all_eq_true, List.isEmpty_iff] at hquiet
  obtain ⟨⟨hthreads, hlock⟩, -⟩ := hquiet
  have hpool {l : WorkerPool.Label} (hl : s.pool.step l = none) : s.poolStep l = none := by
    rw [poolStep, hl]
  have hwaits (n : Nat) : s.dispatches.threads[n]?.bind Thread.waitsFor = none := by
    cases hthread : s.dispatches.threads[n]? with
    | none => rfl
    | some t =>
        have hresult := hthreads t (List.mem_of_getElem? hthread)
        unfold Thread.result at hresult
        show Thread.waitsFor t = none
        unfold Thread.waitsFor
        split at hresult
        · cases hresult
        · rfl
  intro lab hlab
  cases lab with
  | queue l =>
      cases l with
      | lockAcquired i =>
          exact hpool (by simp [WorkerPool.step, Label.isExternal, Loop.step, hlock])
      | childTakes i p => exact hpool (quiet_childTakes hs h i p)
      | get | resume => rfl
      | enqueue | putRaw | dropOldest | drain | taskDone => cases hlab
  | worker l env stats =>
      have hown : ∀ i ql, l.own = some (i, ql) → s.pool.step l = none := by
        intro i ql hown
        cases l with
        | get i =>
            exact quiet_advance hs h fun last hg => by simp [Loop.step, hg]
        | resume i winner =>
            refine quiet_advance hs h fun last hg => ?_
            cases winner <;> simp [Loop.step, hg, GetPhase.task]
        | queue | handled | stop | stopReturns => cases hown
      simp only [step, work]
      split
      · next i ql pool hl hstep =>
          rw [hown i ql hl] at hstep
          cases hstep
      · rfl
  | replied n reply => simp only [step, hwaits]
  | woke n => simp only [step, hwaits]
  | handled i error now =>
      simp only [step, hpool (quiet_handled hs h i _ now)]
      split <;> rfl
  | request | janitor | stop | stopReturns => cases hlab

/-- **No deadlock, nothing forgotten.**  At rest, before `stop` is called, every dispatch is
over, no request waits for the lock, the queue is empty, and the jobs accepted are those
dispatched and those evicted, drained or thrown away by a `get` that took two items. -/
theorem at_rest {ls : List Label} (h : run (step d) (init d t₀) ls = some s)
    (hrest : AtRest d s) (hstop : s.pool.acceptedBefore = none) :
    (∀ t ∈ s.dispatches.threads, t.result.isSome = true) ∧
      s.pool.loop.lockWaiters = [] ∧ s.pool.loop.queue.waiting = [] ∧ s.pool.loop.held = [] ∧
      s.pool.loop.acceptedJobs.Perm (s.starts.filterMap Start.job? ++
        (s.pool.loop.evicted ++ s.pool.loop.drained ++
          gather (step d) discarded (init d t₀) ls).reduceOption) := by
  have hs := run_sound h
  have hp := run_paced h
  have hconserved := (run_accounted h).conserved
  have hrests := hrest.rests hs (run_serving h)
  obtain ⟨hlock, hheld⟩ := hrests.idle hs.pool
  obtain ⟨w, hw⟩ := List.exists_mem_of_ne_nil _ hp.dismissed.staffed
  have hended := hp.dismissed.not_ended ⟨_, hconserved⟩ hstop hw
  refine ⟨fun t ht => hrest.finished ht, hlock, hrests.waiting hs.pool hw hended, hheld, ?_⟩
  rw [hs.passed]
  exact hrests.accounted hs.pool hconserved hs.supplied.accepted hw hended

/-- `stop` returns once every worker has ended. -/
theorem stopReturns_isSome_iff (hstop : s.pool.acceptedBefore.isSome = true) :
    (s.step d .stopReturns).isSome = true ↔ s.pool.AllEnded := by
  simp only [step, poolStep, WorkerPool.step, hstop, true_and, WorkerPool.AllEnded,
    List.all_eq_true]
  split
  · next hpool =>
      split at hpool
      · next hall => simpa using hall
      · cases hpool
  · next hpool =>
      split at hpool
      · cases hpool
      · next hall => simpa using hall

/-- **Shutdown.**  After `stop` has been called, it does not return if one of its sentinels
has been evicted, drained or thrown away by a `get` that took two items; and at rest it
returns if none has. -/
theorem stop_returns_iff {ls : List Label} (h : run (step d) (init d t₀) ls = some s)
    (hstop : s.pool.acceptedBefore.isSome = true) :
    (none ∈ s.pool.loop.evicted ++ s.pool.loop.drained ++
        gather (step d) discarded (init d t₀) ls → s.step d .stopReturns = none) ∧
      (AtRest d s → ((s.step d .stopReturns).isSome = true ↔
        none ∉ s.pool.loop.evicted ++ s.pool.loop.drained ++
          gather (step d) discarded (init d t₀) ls)) := by
  have hs := run_sound h
  have hp := run_paced h
  have hconserved := (run_accounted h).conserved
  have hthrown : (s.step d .stopReturns).isSome = true →
      none ∉ s.pool.loop.evicted ++ s.pool.loop.drained ++
        gather (step d) discarded (init d t₀) ls := by
    rw [stopReturns_isSome_iff hstop]
    exact hp.dismissed.none_not_mem hconserved hstop
  refine ⟨fun hmem => ?_, fun hrest => ⟨hthrown, fun hnone => ?_⟩⟩
  · rw [← Option.not_isSome_iff_eq_none]
    exact fun hsome => hthrown hsome hmem
  · rw [stopReturns_isSome_iff hstop]
    exact (hrest.rests hs (run_serving h)).all_ended hs.pool hp.dismissed hconserved hstop hnone

/-! ### after one `/ping` -/

theorem comes_to_rest_ping :
    ∃ s, run (step pingSettings) (init pingSettings { rules := {} }) pingRun = some s ∧
      ∃ turns s', (∀ lab ∈ turns, lab.isTurn = true) ∧
        run (step pingSettings) s turns = some s' ∧ AtRest pingSettings s' := by
  have hrun := (Option.some_get pingRun_isSome).symm
  exact ⟨_, hrun, (comes_to_rest hrun).2⟩

/-- The worker calls `get` again. -/
def quietRun : List Label := pingRun ++ [.worker (.get 0) .plain none]

theorem quietRun_isSome :
    (run (step pingSettings) (init pingSettings { rules := {} }) quietRun).isSome := by
  decide +kernel

theorem quietRun_isQuiet : (Option.get _ quietRun_isSome).isQuiet = true := by decide +kernel

theorem at_rest_ping :
    ∃ s, run (step pingSettings) (init pingSettings { rules := {} }) quietRun = some s ∧
      AtRest pingSettings s ∧ s.pool.loop.queue.waiting = [] := by
  have hrun := (Option.some_get quietRun_isSome).symm
  have hrest := atRest_of_isQuiet (run_sound hrun) quietRun_isQuiet
  refine ⟨_, hrun, hrest, (at_rest hrun hrest ?_).2.2.1⟩
  decide +kernel

/-- The operator drains the queue after `stop` has put its sentinel. -/
def drainedRun : List Label := [.worker (.get 0) .plain none, .stop, .queue .drain]

theorem drainedRun_isSome :
    (run (step pingSettings) (init pingSettings { rules := {} }) drainedRun).isSome := by
  decide +kernel

theorem drainedRun_isQuiet : (Option.get _ drainedRun_isSome).isQuiet = true := by decide +kernel

/-- So `stop` does not return. -/
theorem stop_returns_iff_drained :
    ∃ s, run (step pingSettings) (init pingSettings { rules := {} }) drainedRun = some s ∧
      AtRest pingSettings s ∧ s.step pingSettings .stopReturns = none := by
  have hrun := (Option.some_get drainedRun_isSome).symm
  have hrest := atRest_of_isQuiet (run_sound hrun) drainedRun_isQuiet
  refine ⟨_, hrun, hrest, (stop_returns_iff hrun (by decide +kernel)).1 ?_⟩
  refine List.mem_append_left _ (List.mem_append_right _ ?_)
  have hmem : ((Option.get _ drainedRun_isSome).pool.loop.drained.any Option.isNone) = true := by
    decide +kernel
  obtain ⟨item, hitem, hnone⟩ := List.any_eq_true.mp hmem
  rwa [Option.isNone_iff_eq_none.mp hnone] at hitem

end App

end RubicaBot
