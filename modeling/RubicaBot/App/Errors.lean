import RubicaBot.App.Rest

/-!
# RubicaBot.App.Errors

`total_errors` against the dispatches that have raised.

The ones that are not counted are those whose workers have yet to catch the exception; when
the process is at rest there are none.
-/

namespace RubicaBot

open Py Transition

namespace App

variable {d : AppSettings} {t₀ : Tables} {s s' : App}

/-- It is an exception. -/
def isRaised : Option (Except PyError Unit) → Bool
  | some (.error _) => true
  | _ => false

/-- What a worker is told of its dispatch is how it ended. -/
theorem errors_eq_takes {lab : Label} {l : WorkerPool.Label} (hl : lab.ofPool = some l)
    (hover : ∀ i error now, l = .handled i error now →
      ∃ result, s.resultOf i = some result ∧ result.isOk = error.isNone) :
    l.errors = (takes isRaised s lab).toNat := by
  cases lab with
  | handled i error now =>
      cases hl
      obtain ⟨result, hresult, hok⟩ := hover i error now rfl
      rw [takes, hresult]
      cases error <;> cases result <;> first | rfl | cases hok
  | queue | stop | stopReturns => cases hl; rfl
  | request | worker | replied | woke | janitor => cases hl

/-- **Step lemma.** -/
theorem step_errors (hs : s.Sound d t₀) {c : StatsCollector} (hr : s.pool.Reported c)
    {lab : Label} (hstep : s.step d lab = some s') : ∃ c', s'.pool.Reported c' ∧
      c'.totalErrors = c.totalErrors + (takes isRaised s lab).toNat := by
  cases Step.of_step hstep with
  | turnedAway => exact ⟨c, hr, rfl⟩
  | enqueue r limiter call hcall pool hpool => exact WorkerPool.step_reported hs.pool hr hpool
  | pool lab hlab l hown hcall pool hpool hl hover =>
      rw [← errors_eq_takes hl hover]
      exact WorkerPool.step_reported hs.pool hr hpool
  | waits l env stats i ql hown pool hpool hdel =>
      have hreported := WorkerPool.step_reported hs.pool hr hpool
      rwa [WorkerPool.Label.errors_of_own hown] at hreported
  | dispatch l env stats i ql hown pool hpool job hdel =>
      have hreported := WorkerPool.step_reported hs.pool hr hpool
      rwa [WorkerPool.Label.errors_of_own hown] at hreported
  | resumed lab hlab n reply t hthread hreply dispatches hreplied hn =>
      rw [takes_of_ne (by rintro i error now rfl; cases hn)]
      exact ⟨c, hr, rfl⟩
  | janitor now => exact ⟨c, hr, rfl⟩

/-- The errors that are counted and those that have not been told yet are the dispatches that have
raised. -/
theorem run_errors {ls : List Label} (h : run (step d) (init d t₀) ls = some s) :
    ∃ c, s.pool.Reported c ∧ c.totalErrors + awaited isRaised s = counted isRaised s := by
  have hstep : ∀ s lab s', s.Sound d t₀ →
      (Serving d s ∧
        ∃ c, s.pool.Reported c ∧ c.totalErrors + awaited isRaised s = counted isRaised s) →
      s.step d lab = some s' → Serving d s' ∧
        ∃ c, s'.pool.Reported c ∧ c.totalErrors + awaited isRaised s' = counted isRaised s' := by
    rintro s lab s' hs ⟨hserving, c, hr, hcounted⟩ hstep
    obtain ⟨c', hr', herrors⟩ := step_errors hs hr hstep
    have hbalance := step_counted (f := isRaised) rfl hs hserving hstep
    exact ⟨step_serving hs hserving hstep, c', hr', by omega⟩
  obtain ⟨c, hr⟩ := (init_accounted d t₀).reported
  refine (run_of_sound hstep ⟨init_serving d t₀, c, hr, ?_⟩ h).2
  have hc : some {} = some c := hr.stats
  cases hc
  exact (Nat.zero_add _).trans (awaited_eq_zero (init_jobOf d t₀))

/-- **The errors add up.**  Of the dispatches that have raised, `total_errors` counts all but
those that their workers have yet to catch; and at rest there are none of these. -/
theorem errors_add_up {ls : List Label} (h : run (step d) (init d t₀) ls = some s) :
    s.healthQueue.totalErrors + awaited isRaised s = counted isRaised s ∧
      (AtRest d s → s.healthQueue.totalErrors = counted isRaised s) := by
  obtain ⟨c, hr, hcounted⟩ := run_errors h
  have herrors : s.healthQueue.totalErrors = c.totalErrors := by
    simp only [healthQueue, hr.stats, Option.getD_some]
  rw [herrors]
  refine ⟨hcounted, fun hrest => ?_⟩
  have hfree := hrest.jobOf_eq_none (run_sound h) (run_serving h)
  rw [← hcounted, awaited_eq_zero hfree, Nat.add_zero]

/-! ### one `/ping` -/

/-- The client raises on the answer. -/
def refusedRun : List Label :=
  [.worker (.get 0) .plain none,
    .request ⟨ByteArray.empty, none, 0, 0, 0, "u"⟩, .queue (.lockAcquired 0),
    .queue (.childTakes 0 .normal), .worker (.resume 0 .normal) .plain none,
    .replied 0 (.error .clientError)]

theorem refusedRun_isSome :
    (run (step pingSettings) (init pingSettings { rules := {} }) refusedRun).isSome := by
  decide +kernel

/-- The dispatch has raised, and its worker has yet to catch it. -/
theorem errors_add_up_refused :
    ∃ s, run (step pingSettings) (init pingSettings { rules := {} }) refusedRun = some s ∧
      s.healthQueue.totalErrors + 1 = counted isRaised s := by
  have hrun := (Option.some_get refusedRun_isSome).symm
  have hawaited : awaited isRaised (Option.get _ refusedRun_isSome) = 1 := by decide +kernel
  have hcounted := (errors_add_up hrun).1
  rw [hawaited] at hcounted
  exact ⟨_, hrun, hcounted⟩

end App

end RubicaBot
