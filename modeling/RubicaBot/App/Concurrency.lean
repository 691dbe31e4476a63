import RubicaBot.App.Health
import RubicaBot.Worker.Handlers

/-!
# RubicaBot.App.Concurrency

What the workers do at a time.

A worker that has called the handler takes the next job only when that dispatch is over.
So a dispatch that is not over is the newest of its worker, which handles its job, and
there are no more of them than there are workers.
-/

namespace RubicaBot

open Py Transition

/-- Changing a property at one number changes the count by its share. -/
theorem countP_range_of_ne {p q : Nat → Bool} {i k : Nat} (hi : i < k)
    (h : ∀ j, j ≠ i → q j = p j) :
    (List.range k).countP q + (p i).toNat = (List.range k).countP p + (q i).toNat := by
  have hone (p : Nat → Bool) (n : Nat) : [n].countP p = (p n).toNat := by
    rw [List.countP_singleton]
    cases p n <;> rfl
  induction k with
  | zero => exact absurd hi (Nat.not_lt_zero i)
  | succ k ih =>
      rw [List.range_succ, List.countP_append, List.countP_append, hone, hone]
      obtain hi | rfl := Nat.lt_succ_iff_lt_or_eq.mp hi
      · rw [h k (Nat.ne_of_gt hi)]
        have hih := ih hi
        omega
      · have hbelow : (List.range i).countP q = (List.range i).countP p :=
          List.countP_congr fun j hj => by
            rw [h j (Nat.ne_of_lt (List.mem_range.mp hj))]
        omega

namespace App

/-- Which of the starts is the last one of worker `i`. -/
def newest (s : App) (i : Nat) : Option Nat :=
  s.starts.findIdx? fun st => st.worker? = some i

/-- The threads that have not finished. -/
def unfinished (s : App) : Nat := s.dispatches.threads.countP (·.result.isNone)

/-- The dispatches whose results, or the lack of them, are such. -/
def counted (f : Option (Except PyError Unit) → Bool) (s : App) : Nat :=
  s.dispatches.threads.countP fun t => f t.result

/-- Worker `i` awaits one of them. -/
def awaits (f : Option (Except PyError Unit) → Bool) (s : App) (i : Nat) : Bool :=
  (s.pool.jobOf i).isSome && f (s.resultOf i)

/-- The workers that await one of them. -/
def awaited (f : Option (Except PyError Unit) → Bool) (s : App) : Nat :=
  (List.range s.pool.workers.length).countP (awaits f s)

/-- The step takes one of them from its worker. -/
def takes (f : Option (Except PyError Unit) → Bool) (s : App) : Label → Bool
  | .handled i _ _ => f (s.resultOf i)
  | _ => false

variable {d : AppSettings} {t₀ : Tables} {s s' : App}

/-- The result of a worker is that of the newest dispatch it has started. -/
theorem resultOf_eq (s : App) (i : Nat) :
    s.resultOf i = (s.newest i).bind fun n => s.dispatches.threads[n]?.bind Thread.result := by
  unfold resultOf newest
  cases s.starts.findIdx? fun st => st.worker? = some i <;> rfl

/-- The newest start is one of the worker. -/
theorem newest_eq_some {i n : Nat} (h : s.newest i = some n) :
    (∃ st, s.starts[n]? = some st ∧ st.worker? = some i) ∧
      ∀ m < n, ∀ st, s.starts[m]? = some st → st.worker? ≠ some i := by
  obtain ⟨hn, hworker, hbefore⟩ := List.findIdx?_eq_some_iff_getElem.mp h
  refine ⟨⟨_, List.getElem?_eq_getElem hn, of_decide_eq_true hworker⟩, ?_⟩
  intro m hm st hst
  obtain ⟨hm', rfl⟩ := List.getElem?_eq_some_iff.mp hst
  exact of_decide_eq_false (Bool.eq_false_iff.mpr (hbefore m hm))

/-- A new start of the worker is its newest. -/
theorem newest_start_self (s : App) {st : Start} {i : Nat} (h : st.worker? = some i) :
    (s.start st).newest i = some 0 := by
  rw [newest, start, List.findIdx?_cons, if_pos (decide_eq_true h)]

/-- A start for somebody else moves the dispatches of the worker back by one. -/
theorem newest_start_of_ne (s : App) {st : Start} {i : Nat} (h : st.worker? ≠ some i) :
    (s.start st).newest i = (s.newest i).map (· + 1) := by
  rw [newest, start, List.findIdx?_cons, if_neg (by simpa using h)]
  rfl

/-- And leaves its result alone. -/
theorem resultOf_start_of_ne (s : App) {st : Start} {i : Nat} (h : st.worker? ≠ some i) :
    (s.start st).resultOf i = s.resultOf i := by
  rw [resultOf_eq, resultOf_eq, newest_start_of_ne s h, Option.bind_map]
  rfl

/-- The thread of a new start. -/
theorem resultOf_start_self (s : App) {st : Start} {i : Nat} (h : st.worker? = some i) :
    (s.start st).resultOf i = (s.start st).dispatches.threads[0]?.bind Thread.result := by
  rw [resultOf_eq, newest_start_self s h]
  rfl

/-! ## the invariant -/

/-- A worker in its handler awaits its newest dispatch, and every dispatch that is not over
is awaited so. -/
structure Serving (d : AppSettings) (s : App) : Prop where
  unfinished : ∀ n st t, s.starts[n]? = some st → s.dispatches.threads[n]? = some t →
    t.result = none →
      ∃ i, st.worker? = some i ∧ s.newest i = some n ∧ (s.pool.jobOf i).isSome = true
  awaited : ∀ i job, s.pool.jobOf i = some job →
    ∃ n env ctx, s.newest i = some n ∧ s.starts[n]? = some (.job i env ctx job)
  calls : ∀ i, s.starts.countP (·.worker? = some i) = s.pool.handlerCalls i
  staffed : s.pool.workers.length = (max 1 d.concurrency).toNat

/-- What does not concern the workers and the dispatches keeps it. -/
theorem Serving.of_same (h : Serving d s) (hpool : WorkerPool.SameHandlers s.pool s'.pool)
    (hstarts : s'.starts = s.starts) (hdispatches : s'.dispatches = s.dispatches) :
    Serving d s' := by
  have hnewest (i : Nat) : s'.newest i = s.newest i := by rw [newest, newest, hstarts]
  refine ⟨?_, ?_, ?_, hpool.length.trans h.staffed⟩
  · intro n st t hst ht hresult
    rw [hstarts] at hst
    rw [hdispatches] at ht
    obtain ⟨i, hworker, hn, hjob⟩ := h.unfinished n st t hst ht hresult
    exact ⟨i, hworker, (hnewest i).trans hn, by rwa [hpool.jobs]⟩
  · intro i job hjob
    rw [hpool.jobs] at hjob
    rw [hnewest, hstarts]
    exact h.awaited i job hjob
  · intro i
    rw [hstarts, hpool.calls]
    exact h.calls i

/-- A worker that awaits no dispatch gets a job. -/
theorem Serving.dispatch (h : Serving d s) {pool : WorkerPool} {i : Nat} {job : Job}
    (hfree : s.pool.jobOf i = none)
    (hjobs : pool.jobOf = Function.update s.pool.jobOf i (some job))
    (hcalls : pool.handlerCalls =
      Function.update s.pool.handlerCalls i (s.pool.handlerCalls i + 1))
    (hlength : pool.workers.length = s.pool.workers.length) (env : Env) (ctx : Context) :
    Serving d (({ s with pool := pool } : App).start (.job i env ctx job)) := by
  have hself : (Start.job i env ctx job).worker? = some i := rfl
  have hother {j : Nat} (hne : j ≠ i) : (Start.job i env ctx job).worker? ≠ some j :=
    fun heq => hne (Option.some.inj heq).symm
  refine ⟨?_, ?_, ?_, hlength.trans h.staffed⟩
  · intro n st t hst ht hresult
    cases n with
    | zero =>
        cases hst
        refine ⟨i, rfl, newest_start_self _ hself, ?_⟩
        show (pool.jobOf i).isSome = true
        rw [hjobs, Function.update_self]
        rfl
    | succ n =>
        obtain ⟨j, hworker, hn, hjob⟩ := h.unfinished n st t hst ht hresult
        have hne : j ≠ i := by
          rintro rfl
          rw [hfree] at hjob
          cases hjob
        refine ⟨j, hworker, ?_, ?_⟩
        · rw [newest_start_of_ne _ (hother hne)]
          exact congrArg (Option.map (· + 1)) hn
        · show (pool.jobOf j).isSome = true
          rwa [hjobs, Function.update_of_ne hne]
  · intro j job' hjob
    change pool.jobOf j = some job' at hjob
    rw [hjobs] at hjob
    by_cases hne : j = i
    · subst hne
      rw [Function.update_self] at hjob
      cases hjob
      exact ⟨0, env, ctx, newest_start_self _ hself, rfl⟩
    · rw [Function.update_of_ne hne] at hjob
      obtain ⟨n, env', ctx', hn, hst⟩ := h.awaited j job' hjob
      refine ⟨n + 1, env', ctx', ?_, hst⟩
      rw [newest_start_of_ne _ (hother hne)]
      exact congrArg (Option.map (· + 1)) hn
  · intro j
    show (Start.job i env ctx job :: s.starts).countP (·.worker? = some j) = pool.handlerCalls j
    rw [List.countP_cons, h.calls, hcalls]
    by_cases hne : j = i
    · subst hne
      rw [Function.update_self, if_pos (decide_eq_true hself)]
    · rw [Function.update_of_ne hne, if_neg (by simpa using hother hne)]
      rfl

/-- The janitor is over at once. -/
theorem Serving.janitor (h : Serving d s) (settings : JanitorSettings) (now : Instant) :
    Serving d (s.start (.janitor settings now)) := by
  have hother (i : Nat) : (Start.janitor settings now).worker? ≠ some i := nofun
  refine ⟨?_, ?_, ?_, h.staffed⟩
  · intro n st t hst ht hresult
    cases n with
    | zero =>
        cases ht
        cases hresult
    | succ n =>
        obtain ⟨i, hworker, hn, hjob⟩ := h.unfinished n st t hst ht hresult
        refine ⟨i, hworker, ?_, hjob⟩
        rw [newest_start_of_ne s (hother i), hn]
        rfl
  · intro i job hjob
    obtain ⟨n, env, ctx, hn, hst⟩ := h.awaited i job hjob
    refine ⟨n + 1, env, ctx, ?_, hst⟩
    rw [newest_start_of_ne s (hother i), hn]
    rfl
  · intro i
    rw [start, List.countP_cons, if_neg (by simpa using hother i)]
    exact h.calls i

/-- A worker goes on when its dispatch is over. -/
theorem Serving.handled (h : Serving d s) {pool : WorkerPool} {i : Nat}
    (hover : (s.resultOf i).isSome = true)
    (hjobs : pool.jobOf = Function.update s.pool.jobOf i none)
    (hcalls : pool.handlerCalls = s.pool.handlerCalls)
    (hlength : pool.workers.length = s.pool.workers.length) :
    Serving d { s with pool := pool } := by
  refine ⟨?_, ?_, ?_, hlength.trans h.staffed⟩
  · intro n st t hst ht hresult
    obtain ⟨j, hworker, hn, hjob⟩ := h.unfinished n st t hst ht hresult
    refine ⟨j, hworker, hn, ?_⟩
    have hne : j ≠ i := by
      rintro rfl
      rw [resultOf_eq, hn, Option.bind_some, ht, Option.bind_some, hresult] at hover
      cases hover
    rwa [hjobs, Function.update_of_ne hne]
  · intro j job hjob
    rw [hjobs] at hjob
    by_cases hne : j = i
    · subst hne
      rw [Function.update_self] at hjob
      cases hjob
    · rw [Function.update_of_ne hne] at hjob
      exact h.awaited j job hjob
  · intro j
    rw [hcalls]
    exact h.calls j

/-- What was unfinished stays so, or is over. -/
theorem Serving.resumed (h : Serving d s) {n : Nat} {reply : Except PyError PyVal}
    {dispatches : Dispatches} (hstep : s.dispatches.step (.reply n reply) = some dispatches) :
    Serving d { s with dispatches := dispatches } := by
  refine ⟨?_, h.awaited, h.calls, h.staffed⟩
  cases Threads.Step.of_step hstep with
  | reply n reply t c k hthread hawaiting =>
      intro m st t' hst ht' hresult
      by_cases hmn : n = m
      · subst hmn
        refine h.unfinished n st t hst hthread ?_
        rw [Thread.result, hawaiting]
      · refine h.unfinished m st t' hst ?_ hresult
        rwa [List.getElem?_set_ne hmn] at ht'

/-- **Step lemma.** -/
theorem step_serving (hs : s.Sound d t₀) (h : Serving d s) {lab : Label}
    (hstep : s.step d lab = some s') : Serving d s' := by
  cases Step.of_step hstep with
  | turnedAway r limiter => exact h.of_same (.of_workers rfl) rfl rfl
  | enqueue r limiter call hcall pool hpool =>
      exact h.of_same (WorkerPool.sameHandlers_of_not_own rfl (fun _ _ _ heq => by cases heq) hpool)
        rfl rfl
  | pool lab hlab l hown hcall pool hpool hl hover =>
      by_cases hhandled : ∃ i error now, l = .handled i error now
      · obtain ⟨i, error, now, rfl⟩ := hhandled
        obtain ⟨result, hresult, -⟩ := hover i error now rfl
        obtain ⟨-, hjobs, hcalls, hlength⟩ := WorkerPool.jobOf_of_handled hs.pool hpool
        exact h.handled (Option.isSome_of_eq_some hresult) hjobs hcalls hlength
      · refine h.of_same (WorkerPool.sameHandlers_of_not_own hown ?_ hpool) rfl rfl
        exact fun i error now heq => hhandled ⟨i, error, now, heq⟩
  | waits l env stats i ql hown pool hpool hdel =>
      exact h.of_same (WorkerPool.sameHandlers_of_own hs.pool hown hdel hpool) rfl rfl
  | dispatch l env stats i ql hown pool hpool job hdel =>
      obtain ⟨hfree, -, hjobs, hcalls, hlength⟩ := WorkerPool.jobOf_of_own hown hdel hpool
      exact h.dispatch hfree hjobs hcalls hlength env _
  | resumed lab hlab n reply t hthread hreply dispatches hreplied hn => exact h.resumed hreplied
  | janitor now => exact h.janitor d.janitor now

/-- The workers of a new process have done nothing. -/
theorem init_idle {d : AppSettings} {t₀ : Tables} {w : Worker}
    (h : w ∈ (init d t₀).pool.workers) : w.phase.jobs = [] ∧ w.status.processed = 0 := by
  obtain ⟨i, -, rfl⟩ := List.mem_map.mp h
  exact ⟨rfl, rfl⟩

/-- And have no jobs. -/
theorem init_jobOf (d : AppSettings) (t₀ : Tables) (i : Nat) :
    (init d t₀).pool.jobOf i = none := by
  refine Option.eq_none_iff_forall_ne_some.mpr fun job hjob => ?_
  obtain ⟨status, hworker⟩ := WorkerPool.jobOf_eq_some hjob
  cases (init_idle (List.mem_of_getElem? hworker)).1

/-- And no dispatches. -/
theorem init_serving (d : AppSettings) (t₀ : Tables) : Serving d (init d t₀) := by
  refine ⟨?_, ?_, ?_, (List.length_map _).trans List.length_range⟩
  · intro n st t hst
    cases hst
  · intro i job hjob
    cases (init_jobOf d t₀ i).symm.trans hjob
  · intro i
    show 0 = (init d t₀).pool.handlerCalls i
    rw [WorkerPool.handlerCalls]
    cases hworker : (init d t₀).pool.workers[i]? with
    | none => rfl
    | some w =>
        obtain ⟨hjobs, hprocessed⟩ := init_idle (List.mem_of_getElem? hworker)
        rw [Option.elim_some, hjobs, hprocessed]
        rfl

/-- **Run lemma.** -/
theorem run_serving {ls : List Label} (h : run (step d) (init d t₀) ls = some s) :
    Serving d s :=
  run_of_sound (fun _ _ _ hs hserving hstep => step_serving hs hserving hstep)
    (init_serving d t₀) h

/-! ## what is awaited -/

variable {f : Option (Except PyError Unit) → Bool}

/-- Whether a worker is awaited depends on its job and its result. -/
theorem awaits_of_resultOf {i : Nat} (hjob : s'.pool.jobOf i = s.pool.jobOf i)
    (hresult : s'.resultOf i = s.resultOf i) : awaits f s' i = awaits f s i := by
  rw [awaits, awaits, hjob, hresult]

/-- A worker without a job is not. -/
theorem awaits_of_free {i : Nat} (h : s.pool.jobOf i = none) : awaits f s i = false := by
  rw [awaits, h]
  rfl

/-- What does not concern the workers and the dispatches changes no count. -/
theorem counted_of_same (hpool : WorkerPool.SameHandlers s.pool s'.pool)
    (hstarts : s'.starts = s.starts) (hdispatches : s'.dispatches = s.dispatches) :
    counted f s' + awaited f s = counted f s + awaited f s' := by
  have hresults (i : Nat) : s'.resultOf i = s.resultOf i := by
    rw [resultOf, resultOf, hstarts, hdispatches]
  have hawaited : awaited f s' = awaited f s := by
    rw [awaited, awaited, hpool.length]
    refine List.countP_congr fun i _ => ?_
    rw [awaits_of_resultOf (congrFun hpool.jobs i) (hresults i)]
  rw [counted, hdispatches, hawaited]
  rfl

/-- Only what worker `i` awaits has changed. -/
theorem awaited_of_ne {i : Nat} (hi : i < s.pool.workers.length)
    (hlength : s'.pool.workers.length = s.pool.workers.length)
    (hjobs : ∀ j, j ≠ i → s'.pool.jobOf j = s.pool.jobOf j)
    (hresults : ∀ j, j ≠ i → s'.resultOf j = s.resultOf j) :
    awaited f s' + (awaits f s i).toNat = awaited f s + (awaits f s' i).toNat := by
  rw [awaited, awaited, hlength]
  exact countP_range_of_ne hi fun j hj => awaits_of_resultOf (hjobs j hj) (hresults j hj)

/-- A start counts if its thread does. -/
theorem counted_start (s : App) (st : Start) :
    counted f (s.start st) = counted f s +
      (f ((s.start st).dispatches.threads[0]?.bind Thread.result)).toNat := by
  show (_ :: s.dispatches.threads).countP _ = _
  rw [List.countP_cons]
  show counted f s + _ = _
  refine congrArg (counted f s + ·) ?_
  show (if f (Thread.result _) = true then 1 else 0) = (f (Thread.result _)).toNat
  split
  · next h => rw [h]; rfl
  · next h => rw [Bool.eq_false_iff.mpr h]; rfl

/-- A thread has been replaced. -/
def setThread (s : App) (t₁ : Tables) (n : Nat)
    (t : Thread Tables Suspension PyVal PyError Unit) : App :=
  { s with dispatches := ⟨t₁, s.dispatches.threads.set n t⟩ }

/-- A dispatch that goes on may change the result of the worker whose newest it is. -/
theorem resultOf_setThread {n : Nat} {t : Thread Tables Suspension PyVal PyError Unit}
    (hthread : s.dispatches.threads[n]? = some t) (t₁ : Tables)
    (t' : Thread Tables Suspension PyVal PyError Unit) (j : Nat) :
    (s.setThread t₁ n t').resultOf j =
      if s.newest j = some n then t'.result else s.resultOf j := by
  obtain ⟨hn, -⟩ := List.getElem?_eq_some_iff.mp hthread
  rw [resultOf_eq, resultOf_eq]
  show (s.newest j).bind (fun m => (s.dispatches.threads.set n t')[m]?.bind Thread.result) = _
  cases hm : s.newest j with
  | none => rw [if_neg nofun]; rfl
  | some m =>
      rw [Option.bind_some, Option.bind_some]
      by_cases hmn : m = n
      · subst hmn
        rw [if_pos rfl, List.getElem?_set_self hn, Option.bind_some]
      · rw [if_neg fun heq => hmn (Option.some.inj heq), List.getElem?_set_ne (Ne.symm hmn)]

/-- And its own place in the count. -/
theorem counted_setThread {n : Nat} {t : Thread Tables Suspension PyVal PyError Unit}
    (hthread : s.dispatches.threads[n]? = some t) (t₁ : Tables)
    (t' : Thread Tables Suspension PyVal PyError Unit) :
    counted f (s.setThread t₁ n t') + (f t.result).toNat =
      counted f s + (f t'.result).toNat := by
  obtain ⟨hn, rfl⟩ := List.getElem?_eq_some_iff.mp hthread
  have hle := List.boole_getElem_le_countP (p := fun t => f (Thread.result t)) hn
  have hif (b : Bool) : (if b = true then 1 else 0) = b.toNat := by cases b <;> rfl
  rw [hif] at hle
  rw [counted, setThread, List.countP_set hn, hif, hif, counted]
  omega

/-- The end of a handler. -/
theorem counted_handled {pool : WorkerPool} {i : Nat} (hjob : (s.pool.jobOf i).isSome = true)
    (hjobs : pool.jobOf = Function.update s.pool.jobOf i none)
    (hlength : pool.workers.length = s.pool.workers.length) :
    counted f { s with pool := pool } + awaited f s =
      counted f s + awaited f { s with pool := pool } + (f (s.resultOf i)).toNat := by
  have hawaited : awaited f { s with pool := pool } + (awaits f s i).toNat =
      awaited f s + (awaits f { s with pool := pool } i).toNat :=
    awaited_of_ne (WorkerPool.lt_length_of_jobOf hjob) hlength
      (fun j hj => by rw [hjobs, Function.update_of_ne hj]) fun _ _ => rfl
  have hbefore : awaits f s i = f (s.resultOf i) := by rw [awaits, hjob, Bool.true_and]
  have hafter : awaits f { s with pool := pool } i = false :=
    awaits_of_free (by rw [hjobs, Function.update_self])
  rw [hbefore, hafter, Bool.toNat_false] at hawaited
  have hcounted : counted f { s with pool := pool } = counted f s := rfl
  omega

/-- A worker that awaits no dispatch starts one. -/
theorem counted_dispatch {pool : WorkerPool} {i : Nat} {st : Start} {job : Job}
    (hworker : st.worker? = some i) (hfree : s.pool.jobOf i = none)
    (hi : i < s.pool.workers.length)
    (hjobs : pool.jobOf = Function.update s.pool.jobOf i (some job))
    (hlength : pool.workers.length = s.pool.workers.length) :
    counted f (({ s with pool := pool } : App).start st) + awaited f s =
      counted f s + awaited f (({ s with pool := pool } : App).start st) := by
  have hawaited : awaited f (({ s with pool := pool } : App).start st) + (awaits f s i).toNat =
      awaited f s + (awaits f (({ s with pool := pool } : App).start st) i).toNat := by
    refine awaited_of_ne hi hlength (fun j hj => ?_) fun j hj => ?_
    · show pool.jobOf j = _
      rw [hjobs, Function.update_of_ne hj]
    · refine resultOf_start_of_ne _ fun heq => hj ?_
      rw [hworker] at heq
      exact (Option.some.inj heq).symm
  have hafter : awaits f (({ s with pool := pool } : App).start st) i =
      f ((({ s with pool := pool } : App).start st).dispatches.threads[0]?.bind
        Thread.result) := by
    rw [awaits, resultOf_start_self _ hworker]
    show ((pool.jobOf i).isSome && _) = _
    rw [hjobs, Function.update_self, Option.isSome_some, Bool.true_and]
  rw [awaits_of_free hfree, Bool.toNat_false, hafter] at hawaited
  have hcounted := counted_start (f := f) { s with pool := pool } st
  have hsame : counted f { s with pool := pool } = counted f s := rfl
  omega

/-- The thread that worker `i` awaits goes on. -/
theorem counted_awaited {n i : Nat} {t : Thread Tables Suspension PyVal PyError Unit}
    (hthread : s.dispatches.threads[n]? = some t) (hnewest : s.newest i = some n)
    (hother : ∀ j, j ≠ i → s.newest j ≠ some n) (hjob : (s.pool.jobOf i).isSome = true)
    (t₁ : Tables) (t' : Thread Tables Suspension PyVal PyError Unit) :
    counted f (s.setThread t₁ n t') + awaited f s =
      counted f s + awaited f (s.setThread t₁ n t') := by
  have hresults := resultOf_setThread hthread t₁ t'
  have hcounted := counted_setThread (f := f) hthread t₁ t'
  have hawaited : awaited f (s.setThread t₁ n t') + (awaits f s i).toNat =
      awaited f s + (awaits f (s.setThread t₁ n t') i).toNat :=
    awaited_of_ne (WorkerPool.lt_length_of_jobOf hjob) rfl (fun _ _ => rfl)
      fun j hj => (hresults j).trans (if_neg (hother j hj))
  have hbefore : awaits f s i = f t.result := by
    rw [awaits, hjob, resultOf_eq, hnewest, Option.bind_some, hthread, Option.bind_some,
      Bool.true_and]
  have hafter : awaits f (s.setThread t₁ n t') i = f t'.result := by
    rw [awaits, hresults i, if_pos hnewest]
    show ((s.pool.jobOf i).isSome && _) = _
    rw [hjob, Bool.true_and]
  rw [hbefore, hafter] at hawaited
  omega

/-- A dispatch that is not over goes on. -/
theorem counted_resumed (hs : s.Sound d t₀) (h : Serving d s) {n : Nat}
    {reply : Except PyError PyVal} {dispatches : Dispatches}
    (hstep : s.dispatches.step (.reply n reply) = some dispatches) :
    counted f { s with dispatches := dispatches } + awaited f s =
      counted f s + awaited f { s with dispatches := dispatches } := by
  cases Threads.Step.of_step hstep with
  | reply n reply t c k hthread hawaiting =>
      have hresult : t.result = none := by rw [Thread.result, hawaiting]
      obtain ⟨hn, -⟩ := List.getElem?_eq_some_iff.mp hthread
      have hst := List.getElem?_eq_getElem (l := s.starts) (hs.threaded.length_eq ▸ hn)
      obtain ⟨i, hworker, hnewest, hjob⟩ := h.unfinished n _ t hst hthread hresult
      refine counted_awaited hthread hnewest (fun j hj heq => ?_) hjob _ _
      obtain ⟨⟨st, hst', hworker'⟩, -⟩ := newest_eq_some heq
      rw [hst, Option.some.injEq] at hst'
      rw [← hst', hworker] at hworker'
      exact hj (Option.some.inj hworker').symm

/-- Only the end of a handler takes something out of the count. -/
theorem takes_of_ne {lab : Label} (h : ∀ i error now, lab ≠ .handled i error now) :
    takes f s lab = false := by
  cases lab with
  | handled i error now => exact absurd rfl (h i error now)
  | request | queue | worker | replied | woke | janitor | stop | stopReturns => rfl

/-- **Step lemma.**  What is counted and not awaited changes only by what the step takes. -/
theorem step_counted (hok : f (some (.ok ())) = false) (hs : s.Sound d t₀) (h : Serving d s)
    {lab : Label} (hstep : s.step d lab = some s') :
    counted f s' + awaited f s = counted f s + awaited f s' + (takes f s lab).toNat := by
  cases Step.of_step hstep with
  | turnedAway r limiter => exact counted_of_same (.of_workers rfl) rfl rfl
  | enqueue r limiter call hcall pool hpool =>
      exact counted_of_same
        (WorkerPool.sameHandlers_of_not_own rfl (fun _ _ _ heq => by cases heq) hpool) rfl rfl
  | waits l env stats i ql hown pool hpool hdel =>
      exact counted_of_same (WorkerPool.sameHandlers_of_own hs.pool hown hdel hpool) rfl rfl
  | pool lab hlab l hown hcall pool hpool hl hover =>
      by_cases hhandled : ∃ i error now, lab = .handled i error now
      · obtain ⟨i, error, now, rfl⟩ := hhandled
        cases hl
        obtain ⟨hjob, hjobs, -, hlength⟩ := WorkerPool.jobOf_of_handled hs.pool hpool
        exact counted_handled hjob hjobs hlength
      · rw [takes_of_ne fun i error now heq => hhandled ⟨i, error, now, heq⟩]
        refine counted_of_same (WorkerPool.sameHandlers_of_not_own hown ?_ hpool) rfl rfl
        rintro i error now rfl
        cases lab with
        | handled => cases hl; exact hhandled ⟨i, error, now, rfl⟩
        | queue | request | worker | replied | woke | janitor | stop | stopReturns => cases hl
  | dispatch l env stats i ql hown pool hpool job hdel =>
      obtain ⟨hfree, hi, hjobs, -, hlength⟩ := WorkerPool.jobOf_of_own hown hdel hpool
      exact counted_dispatch rfl hfree hi hjobs hlength
  | resumed lab hlab n reply t hthread hreply dispatches hreplied hn =>
      rw [takes_of_ne (by rintro i error now rfl; cases hn)]
      exact counted_resumed hs h hreplied
  | janitor now =>
      have hother (i : Nat) : (Start.janitor d.janitor now).worker? ≠ some i := nofun
      have hawaits (i : Nat) : awaits f (s.start (.janitor d.janitor now)) i = awaits f s i :=
        awaits_of_resultOf rfl (resultOf_start_of_ne s (hother i))
      have hawaited : awaited f (s.start (.janitor d.janitor now)) = awaited f s :=
        List.countP_congr fun i _ => by rw [hawaits]
      have hcounted := counted_start (f := f) s (.janitor d.janitor now)
      rw [hcounted, hawaited]
      show counted f s + (f (some (.ok ()))).toNat + _ = _
      rw [hok]
      rfl

/-! ## one at a time -/

/-- A worker is not taken from a dispatch that is not over. -/
theorem takes_unfinished {lab : Label} (hstep : s.step d lab = some s') :
    takes Option.isNone s lab = false := by
  cases lab with
  | handled i error now =>
      simp only [step] at hstep
      split at hstep
      · next hresult => rw [takes, hresult]; rfl
      · next hresult => rw [takes, hresult]; rfl
      · cases hstep
  | request | queue | worker | replied | woke | janitor | stop | stopReturns => rfl

/-- No worker awaits anything. -/
theorem awaited_eq_zero (h : ∀ i, s.pool.jobOf i = none) : awaited f s = 0 := by
  rw [awaited, List.countP_eq_zero]
  intro i _
  rw [awaits_of_free (h i)]
  exact Bool.false_ne_true

/-- The dispatches that are not over are those that a worker awaits. -/
theorem run_unfinished {ls : List Label} (h : run (step d) (init d t₀) ls = some s) :
    s.unfinished = awaited Option.isNone s := by
  have hstep : ∀ s lab s', s.Sound d t₀ →
      Serving d s ∧ counted Option.isNone s = awaited Option.isNone s →
      s.step d lab = some s' →
      Serving d s' ∧ counted Option.isNone s' = awaited Option.isNone s' := by
    rintro s lab s' hs ⟨hserving, hcounted⟩ hstep
    have hbalance := step_counted (f := Option.isNone) rfl hs hserving hstep
    rw [takes_unfinished hstep, Bool.toNat_false] at hbalance
    exact ⟨step_serving hs hserving hstep, by omega⟩
  exact (run_of_sound hstep
    ⟨init_serving d t₀, (awaited_eq_zero (init_jobOf d t₀)).symm⟩ h).2

/-- **One at a time.**  A dispatch that is not over is the newest of a worker, and for the
job that this worker handles; there are at most `concurrency` of them; and each worker has
started one dispatch for each job it has processed, and one for the job it handles. -/
theorem one_at_a_time {ls : List Label} (h : run (step d) (init d t₀) ls = some s) :
    (∀ (n : Nat) (st : Start) (t : Thread Tables Suspension PyVal PyError Unit),
      s.starts[n]? = some st → s.dispatches.threads[n]? = some t → t.result = none →
        ∃ i env ctx job, st = .job i env ctx job ∧ s.pool.jobOf i = some job ∧
          ∀ m < n, ∀ st' : Start, s.starts[m]? = some st' → st'.worker? ≠ some i) ∧
      s.unfinished ≤ (max 1 d.concurrency).toNat ∧
      ∀ i w, s.pool.workers[i]? = some w →
        s.starts.countP (·.worker? = some i) = w.status.processed + w.phase.jobs.length := by
  have hs := run_serving h
  refine ⟨?_, ?_, ?_⟩
  · intro n st t hst ht hresult
    obtain ⟨i, hworker, hnewest, hjob⟩ := hs.unfinished n st t hst ht hresult
    obtain ⟨job, hjob⟩ := Option.isSome_iff_exists.mp hjob
    obtain ⟨n', env, ctx, hnewest', hst'⟩ := hs.awaited i job hjob
    rw [hnewest, Option.some.injEq] at hnewest'
    subst hnewest'
    rw [hst, Option.some.injEq] at hst'
    exact ⟨i, env, ctx, job, hst', hjob, (newest_eq_some hnewest).2⟩
  · rw [run_unfinished h, ← hs.staffed]
    exact List.countP_le_length.trans_eq List.length_range
  · intro i w hw
    rw [hs.calls, WorkerPool.handlerCalls, hw]
    rfl

/-! ### one `/ping` -/

theorem one_at_a_time_ping :
    ∃ s, run (step pingSettings) (init pingSettings { rules := {} }) pingRun = some s ∧
      s.unfinished ≤ 1 := by
  have hrun := (Option.some_get pingRun_isSome).symm
  exact ⟨_, hrun, (one_at_a_time hrun).2.1⟩

end App

end RubicaBot
