import Mathlib.Algebra.Order.Field.Basic
import Mathlib.Tactic.Ring
import RubicaBot.Dedup
import RubicaBot.Simulation
import RubicaBot.TokenBucket

/-!
# RubicaBot.ApiRateLimiter

`ApiRateLimiter` of `app/core/rubika_client.py`: the token bucket in front of each
method of the API.

The lock serves one `acquire` at a time, so a run is a list of them, each with the
time at which it has the lock and how long its sleep lasts.  A balance below zero
counts as an empty bucket, and as such the limiter is metered (`Meters.acquire`):
it never exceeds its rate (`rate_bounded`).  But who waits leaves a balance of -1
and not of 0, so the next waits for two tokens, and the rate is sustained only while
nobody waits (`sustained_iff`).
-/

namespace RubicaBot

open Transition

/-- The limiter, while its lock is free. -/
structure ApiRateLimiter where
  ratePerSecond : ℚ
  capacity : Int
  tokens : ℚ
  lastRefill : Instant
  deriving DecidableEq

/-- A call of `acquire`: when it has the lock, and how long `asyncio.sleep` lasts, if
it comes to that. -/
structure Acquire where
  now : Instant
  sleeps : ℚ := 0

namespace ApiRateLimiter

/-- `__init__`, at a time. -/
def create (ratePerSecond : ℚ) (burst : Int) (now : Instant) : ApiRateLimiter where
  ratePerSecond := max ratePerSecond (1 / 10)
  capacity := max burst 1
  tokens := (max burst 1 : Int)
  lastRefill := now

/-- `_tokens` after the refill. -/
def refilled (limiter : ApiRateLimiter) (now : Instant) : ℚ :=
  min limiter.capacity
    (limiter.tokens + (now - limiter.lastRefill) * limiter.ratePerSecond)

/-- The time `acquire` asks `asyncio.sleep` for. -/
def waitFor (limiter : ApiRateLimiter) (now : Instant) : ℚ :=
  max ((1 - limiter.refilled now) / limiter.ratePerSecond) 0

/-- `acquire`, and when it is done.  Nobody has the lock before the last call is done,
and no sleep ends early. -/
def acquire (limiter : ApiRateLimiter) (a : Acquire) : Option (Instant × ApiRateLimiter) :=
  if a.now < limiter.lastRefill then none
  else
    let tokens := limiter.refilled a.now
    if tokens < 1 then
      if a.sleeps < limiter.waitFor a.now then none
      else
        let woken := a.now + a.sleeps
        some (woken, { limiter with tokens := 0 - 1, lastRefill := woken })
    else some (a.now, { limiter with tokens := tokens - 1, lastRefill := a.now })

/-! ## one call -/

variable {limiter limiter' : ApiRateLimiter} {a : Acquire} {t : Instant}

/-- What a call can do. -/
theorem acquire_cases (h : limiter.acquire a = some (t, limiter')) :
    limiter.lastRefill ≤ a.now ∧
      ((1 ≤ limiter.refilled a.now ∧ t = a.now ∧
          limiter' =
            { limiter with tokens := limiter.refilled a.now - 1, lastRefill := a.now }) ∨
        (limiter.refilled a.now < 1 ∧ limiter.waitFor a.now ≤ a.sleeps ∧ t = a.now + a.sleeps ∧
          limiter' = { limiter with tokens := -1, lastRefill := a.now + a.sleeps })) := by
  unfold acquire at h
  split at h
  · cases h
  · next hnow =>
      refine ⟨not_lt.mp hnow, ?_⟩
      simp only [zero_sub] at h
      split at h
      · next hwaits =>
          split at h
          · cases h
          · next hslept =>
              cases h
              exact .inr ⟨hwaits, not_lt.mp hslept, rfl, rfl⟩
      · next hserved =>
          cases h
          exact .inl ⟨not_lt.mp hserved, rfl, rfl⟩

/-- The refill is what has flowed in, up to the capacity. -/
theorem refilled_le (limiter : ApiRateLimiter) (now : Instant) :
    limiter.refilled now ≤ limiter.capacity ∧
      limiter.refilled now ≤
        limiter.tokens + (now - limiter.lastRefill) * limiter.ratePerSecond :=
  ⟨min_le_left _ _, min_le_right _ _⟩

/-! ## the rate is not exceeded -/

/-- The limiter is a token bucket with the completed calls as its log; where the
balance is negative, the bucket is empty. -/
structure Meters (rate : ℚ) (capacity : Int) (limiter : ApiRateLimiter) (log : List Instant) :
    Prop where
  rateKept : limiter.ratePerSecond = rate
  capacityKept : limiter.capacity = capacity
  metered : TokenBucket.Metered (capacity : ℚ) rate limiter.lastRefill (max limiter.tokens 0) log

/-- **One call.** -/
theorem Meters.acquire {rate : ℚ} {capacity : Int} {log : List Instant}
    (h : Meters rate capacity limiter log) (hrate : 0 < rate) (hcapacity : 1 ≤ capacity)
    (ha : limiter.acquire a = some (t, limiter')) : Meters rate capacity limiter' (log ++ [t]) := by
  obtain ⟨hfull, hflowed⟩ := limiter.refilled_le a.now
  rw [h.capacityKept] at hfull
  rw [h.rateKept] at hflowed
  have hempty := le_max_left limiter.tokens 0
  obtain ⟨hnow, ⟨hserved, rfl, rfl⟩ | ⟨hwaits, hslept, rfl, rfl⟩⟩ := acquire_cases ha
  · refine ⟨h.rateKept, h.capacityKept, h.metered.spend hrate.le hnow (le_max_right _ _) ?_ ?_⟩
    · rw [max_eq_left (sub_nonneg.mpr hserved)]
      linarith
    · rw [max_eq_left (sub_nonneg.mpr hserved)]
      linarith
  · have hwait : 1 - limiter.refilled a.now ≤ a.sleeps * rate := by
      rw [waitFor, h.rateKept] at hslept
      exact (div_le_iff₀ hrate).mp ((le_max_left _ _).trans hslept)
    have hsleeps : 0 ≤ a.sleeps := (le_max_right _ _).trans hslept
    have hcapacity' : (1 : ℚ) ≤ capacity := by exact_mod_cast hcapacity
    refine ⟨h.rateKept, h.capacityKept, h.metered.spend hrate.le ?_ (le_max_right _ _) ?_ ?_⟩
    · linarith
    · rw [max_eq_right (by norm_num)]
      linarith
    · rw [max_eq_right (by norm_num)]
      linarith

/-- A new limiter has a full bucket. -/
theorem meters_create (rate : ℚ) (burst : Int) (start : Instant) :
    Meters (max rate (1 / 10)) (max burst 1) (create rate burst start) [] := by
  have hcapacity : (0 : ℚ) ≤ (max burst 1 : Int) := by
    exact_mod_cast zero_le_one.trans (le_max_right burst 1)
  have hrate : 0 ≤ max rate (1 / 10) := (by norm_num : (0 : ℚ) ≤ 1 / 10).trans (le_max_right _ _)
  refine ⟨rfl, rfl, ?_⟩
  show TokenBucket.Metered _ _ _ (max (((max burst 1 : Int) : ℚ)) 0) _
  rw [max_eq_left hcapacity]
  exact .full hcapacity hrate start

/-- **The rate is not exceeded.**  In every run, with sleeps as long as may be, no
interval has more calls completed in it than the burst and what the larger of the
rate and a tenth allows over its length. -/
theorem rate_bounded {rate : ℚ} {burst : Int} (hburst : 1 ≤ burst) {start : Instant}
    {calls : List Acquire} {limiter : ApiRateLimiter}
    (hrun : run (next acquire) (create rate burst start) calls = some limiter) {length : ℚ}
    (hlength : 0 ≤ length) (a : Instant) :
    ((Window.spanning length a (outputs acquire (create rate burst start) calls)).length : ℚ) ≤
      burst + max rate (1 / 10) * length := by
  have hrate : 0 < max rate (1 / 10) := (by norm_num : (0 : ℚ) < 1 / 10).trans_le (le_max_right _ _)
  have hmeters : Meters (max rate (1 / 10)) (max burst 1) limiter
      ([] ++ outputs acquire (create rate burst start) calls) := by
    refine run_gather (fun s l s' as h hstep => ?_) (meters_create rate burst start) hrun
    obtain ⟨t, ht⟩ := next_eq_some.mp hstep
    rw [answer_of_call ht]
    exact h.acquire hrate (le_max_right _ _) ht
  rw [List.nil_append] at hmeters
  have hbound := hmeters.metered.bounded a length hlength
  rw [max_eq_left hburst] at hbound
  exact hbound

/-- At ten calls a second and a burst of one, the second of two calls waits for a
tenth of a second. -/
theorem rate_bounded_ten_a_second :
    outputs acquire (create 10 1 0) [{ now := 0 }, { now := 0, sleeps := 1 / 10 }] = [0, 1 / 10] ∧
      ∀ a, ((Window.spanning (1 / 20) a (outputs acquire (create 10 1 0)
        [{ now := 0 }, { now := 0, sleeps := 1 / 10 }])).length : ℚ) ≤
          (1 : Int) + max 10 (1 / 10) * (1 / 20) := by
  have hrun : run (next acquire) (create 10 1 0)
      [{ now := 0 }, { now := 0, sleeps := 1 / 10 }] =
      some { ratePerSecond := 10, capacity := 1, tokens := -1, lastRefill := 1 / 10 } := by
    decide +kernel
  exact ⟨by decide +kernel, rate_bounded le_rfl hrun (by norm_num)⟩

/-- At one call in a hundred seconds, the second of two calls is done ten seconds
after the first: no rate is below a tenth. -/
theorem rate_below_tenth_exceeded :
    ¬ ∀ (rate : ℚ) (burst : Int) (start : Instant) (calls : List Acquire)
      (limiter : ApiRateLimiter), 0 < rate → 1 ≤ burst →
      run (next acquire) (create rate burst start) calls = some limiter →
      ∀ (length : ℚ) (a : Instant), 0 ≤ length →
        ((Window.spanning length a
          (outputs acquire (create rate burst start) calls)).length : ℚ) ≤
            burst + rate * length := by
  intro hclaim
  have htwo : (Window.spanning 10 0 (outputs acquire (create (1 / 100) 1 0)
      [{ now := 0 }, { now := 0, sleeps := 10 }])).length = 2 := by decide +kernel
  have hbound := hclaim (1 / 100) 1 0 [{ now := 0 }, { now := 0, sleeps := 10 }]
    { ratePerSecond := 1 / 10, capacity := 1, tokens := -1, lastRefill := 10 }
    (by norm_num) le_rfl (by decide +kernel) 10 0 (by norm_num)
  rw [htwo] at hbound
  norm_num at hbound

/-! ## the rate is not sustained -/

/-- The sleep, if there is one, lasts exactly as long as it was asked to. -/
def SleepsExactly (limiter : ApiRateLimiter) (a : Acquire) : Prop :=
  limiter.refilled a.now < 1 → a.sleeps = limiter.waitFor a.now

instance (limiter : ApiRateLimiter) (a : Acquire) : Decidable (SleepsExactly limiter a) :=
  inferInstanceAs (Decidable (_ → _))

/-- There is a token when the call has the lock. -/
def Served (limiter : ApiRateLimiter) (a : Acquire) : Prop := 1 ≤ limiter.refilled a.now

instance (limiter : ApiRateLimiter) (a : Acquire) : Decidable (Served limiter a) :=
  inferInstanceAs (Decidable (_ ≤ _))

/-- The call has the lock as soon as the last one is done. -/
def Immediate (limiter : ApiRateLimiter) (a : Acquire) : Prop := a.now = limiter.lastRefill

instance (limiter : ApiRateLimiter) (a : Acquire) : Decidable (Immediate limiter a) :=
  inferInstanceAs (Decidable (_ = _))

/-- The balance is within the bucket whenever the lock is free, nobody sleeps for
longer than one token takes, and once the burst is spent, calls that follow each other
immediately take no longer than their tokens do. -/
structure Sustained (start : ApiRateLimiter) (calls : List Acquire) : Prop where
  balanced : ∀ before after limiter, calls = before ++ after →
    run (next acquire) start before = some limiter →
    0 ≤ limiter.tokens ∧ limiter.tokens ≤ limiter.capacity
  prompt : ∀ before a after limiter t limiter', calls = before ++ a :: after →
    run (next acquire) start before = some limiter → limiter.acquire a = some (t, limiter') →
    t - a.now ≤ 1 / limiter.ratePerSecond
  throughput : ∀ before demand after limiter limiter', calls = before ++ (demand ++ after) →
    run (next acquire) start before = some limiter → limiter.tokens < 1 →
    Along (next acquire) Immediate limiter demand →
    run (next acquire) limiter demand = some limiter' →
    limiter'.lastRefill - limiter.lastRefill ≤ demand.length / limiter.ratePerSecond

/-- The bucket is not overdrawn. -/
structure Balanced (limiter : ApiRateLimiter) : Prop where
  positive : 0 < limiter.ratePerSecond
  nonneg : 0 ≤ limiter.tokens
  fits : limiter.tokens ≤ limiter.capacity

/-- A new limiter has all its tokens. -/
theorem balanced_create (rate : ℚ) (burst : Int) (start : Instant) :
    (create rate burst start).Balanced where
  positive := (by norm_num : (0 : ℚ) < 1 / 10).trans_le (le_max_right _ _)
  nonneg := by
    have h : (0 : ℚ) ≤ (max burst 1 : Int) := by
      exact_mod_cast zero_le_one.trans (le_max_right burst 1)
    exact h
  fits := le_rfl

/-- A call that finds a token takes it. -/
theorem acquire_of_served (hserved : limiter.Served a)
    (h : limiter.acquire a = some (t, limiter')) :
    t = a.now ∧ limiter' =
      { limiter with tokens := limiter.refilled a.now - 1, lastRefill := a.now } := by
  obtain ⟨-, ⟨-, ht, hlimiter⟩ | ⟨hwaits, -⟩⟩ := acquire_cases h
  · exact ⟨ht, hlimiter⟩
  · exact absurd hserved (not_le.mpr hwaits)

/-- A token that is taken is accounted for. -/
theorem Balanced.acquire (h : limiter.Balanced) (hserved : limiter.Served a)
    (ha : limiter.acquire a = some (t, limiter')) : limiter'.Balanced := by
  obtain ⟨-, rfl⟩ := acquire_of_served hserved ha
  obtain ⟨hfull, -⟩ := limiter.refilled_le a.now
  exact ⟨h.positive, sub_nonneg.mpr hserved, (sub_le_self _ zero_le_one).trans hfull⟩

/-- A call that waits overdraws the bucket. -/
theorem acquire_of_not_served (hwaits : ¬ limiter.Served a)
    (h : limiter.acquire a = some (t, limiter')) : limiter'.tokens = -1 := by
  obtain ⟨-, ⟨hserved, -⟩ | ⟨-, -, -, rfl⟩⟩ := acquire_cases h
  · exact absurd hserved hwaits
  · rfl

/-- With an empty bucket, the next call finds no token if it is made at once. -/
theorem not_served_of_immediate (hspent : limiter.tokens < 1) (h : limiter.Immediate a) :
    ¬ limiter.Served a := by
  obtain ⟨-, hflowed⟩ := limiter.refilled_le a.now
  rw [Immediate] at h
  rw [h, sub_self, zero_mul, add_zero, ← h] at hflowed
  exact not_le.mpr (hflowed.trans_lt hspent)

section Sustained

variable {rate : ℚ} {burst : Int} {start : Instant} {calls : List Acquire}

/-- Where the balance stays within the bucket, no call waits. -/
theorem Sustained.along_served (h : Sustained (create rate burst start) calls)
    (hrun : run (next acquire) (create rate burst start) calls = some limiter) :
    Along (next acquire) Served (create rate burst start) calls := by
  refine along_of_splits fun before a after m hcalls hbefore => ?_
  by_contra hwaits
  subst hcalls
  obtain ⟨m₁, m', hm, hstep, -⟩ := run_split hrun
  cases hbefore.symm.trans hm
  obtain ⟨t, ha⟩ := next_eq_some.mp hstep
  have hreached : run (next acquire) (create rate burst start) (before ++ [a]) = some m' := by
    rw [run_append, hm, Option.bind_some, run_cons, hstep]
    rfl
  obtain ⟨hnonneg, -⟩ := h.balanced (before ++ [a]) after m' (by simp) hreached
  rw [acquire_of_not_served hwaits ha] at hnonneg
  norm_num at hnonneg

/-- Where no call waits, the bucket is never overdrawn and no sleep is long; a demand
behind a spent burst would have to wait, so there is none. -/
theorem sustained_of_along_served
    (hserved : Along (next acquire) Served (create rate burst start) calls) :
    Sustained (create rate burst start) calls := by
  have hbalanced : ∀ before after m, calls = before ++ after →
      run (next acquire) (create rate burst start) before = some m →
      m.Balanced ∧ Along (next acquire) Served m after := by
    intro before after m hcalls hbefore
    rw [hcalls, along_append _ hbefore] at hserved
    refine ⟨run_invariant (fun s l s' hs hl hstep => ?_) (balanced_create rate burst start)
      hserved.1 hbefore, hserved.2⟩
    obtain ⟨t, ht⟩ := next_eq_some.mp hstep
    exact hs.acquire hl ht
  refine ⟨?_, ?_, ?_⟩
  · intro before after m hcalls hbefore
    obtain ⟨hm, -⟩ := hbalanced before after m hcalls hbefore
    exact ⟨hm.nonneg, hm.fits⟩
  · intro before a after m t m' hcalls hbefore ha
    obtain ⟨hm, hrest⟩ := hbalanced before (a :: after) m hcalls hbefore
    obtain ⟨rfl, -⟩ := acquire_of_served hrest.1 ha
    rw [sub_self]
    exact (div_pos one_pos hm.positive).le
  · intro before demand after m m' hcalls hbefore hspent hdemand hreached
    obtain ⟨hm, hrest⟩ := hbalanced before (demand ++ after) m hcalls hbefore
    cases demand with
    | nil =>
        cases hreached
        simp
    | cons a demand => exact absurd hrest.1 (not_served_of_immediate hspent hdemand.1)

end Sustained

/-- **When the rate is sustained.**  In every run, with sleeps that last exactly as long
as they were asked to or longer: the balance stays within the bucket, no sleep takes
longer than one token and the throughput is kept up, if and only if no call has to
wait. -/
theorem sustained_iff {rate : ℚ} {burst : Int} {start : Instant} {calls : List Acquire}
    {limiter : ApiRateLimiter}
    (hrun : run (next acquire) (create rate burst start) calls = some limiter) :
    Sustained (create rate burst start) calls ↔
      Along (next acquire) Served (create rate burst start) calls :=
  ⟨fun h => h.along_served hrun, sustained_of_along_served⟩

/-- Two calls in two seconds, at one call a second, find a token each. -/
theorem sustained_two_calls :
    Sustained (create 1 1 0) [{ now := 0 }, { now := 2 }] := by
  have hrun : run (next acquire) (create 1 1 0) [{ now := 0 }, { now := 2 }] =
      some { ratePerSecond := 1, capacity := 1, tokens := 0, lastRefill := 2 } := by
    decide +kernel
  exact (sustained_iff hrun).mpr (by decide +kernel)

/-- At one call a second and a burst of one, three calls at once are done after 0, 1
and 3 seconds. -/
theorem rate_not_sustained :
    ¬ ∀ (rate : ℚ) (burst : Int) (start : Instant) (calls : List Acquire)
      (limiter : ApiRateLimiter),
      run (next acquire) (create rate burst start) calls = some limiter →
      Along (next acquire) SleepsExactly (create rate burst start) calls →
      Sustained (create rate burst start) calls := by
  intro hclaim
  have hspent : run (next acquire) (create 1 1 0) [{ now := 0 }] =
      some { ratePerSecond := 1, capacity := 1, tokens := 0, lastRefill := 0 } := by
    decide +kernel
  have hsustained := hclaim 1 1 0
    [{ now := 0 }, { now := 0, sleeps := 1 }, { now := 1, sleeps := 2 }]
    { ratePerSecond := 1, capacity := 1, tokens := -1, lastRefill := 3 }
    (by decide +kernel) (by decide +kernel)
  have htook := hsustained.throughput [{ now := 0 }]
    [{ now := 0, sleeps := 1 }, { now := 1, sleeps := 2 }] [] _
    { ratePerSecond := 1, capacity := 1, tokens := -1, lastRefill := 3 } rfl hspent
    (by norm_num) (by decide +kernel) (by decide +kernel)
  norm_num at htook

/-- **What is sustained instead.**  From the second waiting call on, calls that follow
each other immediately take two tokens' time each. -/
theorem halved_throughput {demand : List Acquire} (hrate : 0 < limiter.ratePerSecond)
    (hcapacity : 0 ≤ limiter.capacity) (hoverdrawn : limiter.tokens = -1)
    (hdemand : Along (next acquire) (fun s a => Immediate s a ∧ SleepsExactly s a) limiter demand)
    (hrun : run (next acquire) limiter demand = some limiter') :
    limiter'.lastRefill = limiter.lastRefill + demand.length * (2 / limiter.ratePerSecond) := by
  induction demand generalizing limiter with
  | nil =>
      cases hrun
      simp
  | cons a demand ih =>
      obtain ⟨m, hstep, hrest⟩ := run_cons_eq_some.mp hrun
      obtain ⟨t, ha⟩ := next_eq_some.mp hstep
      obtain ⟨⟨himmediate, hexact⟩, hlater⟩ := (along_cons _ hstep).mp hdemand
      have hrefilled : limiter.refilled a.now = -1 := by
        have hcapacity' : (0 : ℚ) ≤ limiter.capacity := by exact_mod_cast hcapacity
        rw [Immediate] at himmediate
        rw [refilled, himmediate, sub_self, zero_mul, add_zero, hoverdrawn, min_eq_right]
        linarith
      have hsleeps : a.sleeps = 2 / limiter.ratePerSecond := by
        rw [hexact (by rw [hrefilled]; norm_num), waitFor, hrefilled, max_eq_left]
        · norm_num
        · exact (div_pos (by norm_num) hrate).le
      obtain ⟨-, ⟨hserved, -⟩ | ⟨-, -, -, hm⟩⟩ := acquire_cases ha
      · rw [hrefilled] at hserved
        norm_num at hserved
      · have hnext := @ih m (by rw [hm]; exact hrate) (by rw [hm]; exact hcapacity) (by rw [hm])
          hlater hrest
        have hlast : m.lastRefill = limiter.lastRefill + 2 / limiter.ratePerSecond := by
          rw [hm, ← hsleeps, ← himmediate]
        have hrate' : m.ratePerSecond = limiter.ratePerSecond := by rw [hm]
        rw [hnext, hlast, hrate', List.length_cons]
        push_cast
        ring

end ApiRateLimiter

end RubicaBot
