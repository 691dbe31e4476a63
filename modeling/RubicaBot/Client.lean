import Mathlib.Algebra.Order.Field.Basic
import Mathlib.Tactic.Linarith
import Mathlib.Tactic.Ring
import RubicaBot.PyVal

/-!
# RubicaBot.Client

`RubikaClient.api_call` of `app/core/rubika_client.py`.

What the API does at each post is a parameter, a sequence of exchanges without end,
and so is what `random.uniform` draws.  The loop is a `while True`, so the model runs
it with fuel; it needs as much as there are posts (`apiCall_eq`).

Seconds are exact where the code rounds doubles, but not without bound: the back-off
doubles with each retry until the factor is an integer no float can hold, and the
multiplication raises, or until the product is infinite, and the sleep does not end.
-/

namespace RubicaBot

open Py

/-- What comes of a post: `httpx` raises a `TimeoutException` or a `TransportError`
with this text, or there is a response with a status and a body, which is what
`response.json()` reads or raises. -/
inductive ApiExchange where
  | transportError (error : String)
  | response (statusCode : Int) (body : Except PyError PyVal)

/-- What `api_call` does on the way: it gets a token from the limiter of the method,
posts, or sleeps for some seconds. -/
inductive ClientEvent where
  | acquire (method : String)
  | post (method : String)
  | sleep (seconds : ℚ)
  deriving DecidableEq

/-- The seconds of a sleep. -/
def ClientEvent.seconds : ClientEvent → ℚ
  | .sleep seconds => seconds
  | _ => 0

/-- The settings of `RubikaClient` that `api_call` reads. -/
structure Client where
  retryAttempts : Int := 3
  retryBackoff : ℚ := 1 / 2

/-- Timeouts, transport errors and the statuses 408, 429 and from 500 are tried again. -/
def ApiExchange.isRetried : ApiExchange → Bool
  | .transportError _ => true
  | .response statusCode _ => statusCode = 408 || statusCode = 429 || 500 ≤ statusCode

/-- What is returned after the last exchange.  A body on which `json()` raises a
`ValueError` is replaced, other exceptions are let through, and a body that is no
dictionary has no `get`. -/
def ApiExchange.result (method : String) : ApiExchange → Except PyError PyVal
  | .transportError error =>
      .ok (.dict [("ok", .bool false), ("error", .str error), ("method", .str method)])
  | .response _ (.error e) =>
      if e.isValueError then .ok (.dict [("ok", .bool false), ("error", .str "invalid_json")])
      else .error e
  | .response _ (.ok data) => if data.isDict then .ok data else .error .attributeError

namespace Client

/-- The back-off before a retry and its jitter; `jitter` is what
`random.uniform(0, self.retry_backoff)` draws. -/
def backoff (client : Client) (jitter : Nat → ℚ) (attempt : Nat) : ℚ :=
  client.retryBackoff * 2 ^ (attempt - 1) + jitter attempt

/-- The seconds `_sleep_before_retry` sleeps for: `self.retry_backoff` is a float, and
the power of two that it is multiplied with an integer. -/
def sleepFor (client : Client) (jitter : Nat → ℚ) (attempt : Nat) : Except PyError ℚ :=
  if FitsFloat (2 ^ (attempt - 1)) then .ok (client.backoff jitter attempt)
  else .error .overflowError

/-- A sum of seconds is a finite float. -/
def isFinite (seconds : ℚ) : Bool := decide (seconds < floatLimit)

/-- `api_call`, after some attempts: the events and the result, unless the fuel runs
out or a sleep is infinite. -/
def apiCall (client : Client) (jitter : Nat → ℚ) (method : String) (outcomes : Nat → ApiExchange) :
    (fuel attempt : Nat) → Option (List ClientEvent × Except PyError PyVal)
  | 0, _ => none
  | fuel + 1, attempt =>
      let exchange := outcomes attempt
      let attempt := attempt + 1
      if exchange.isRetried && decide ((attempt : Int) ≤ client.retryAttempts) then
        match client.sleepFor jitter attempt with
        | .error e => some ([.acquire method, .post method], .error e)
        | .ok seconds =>
            if isFinite seconds then
              (apiCall client jitter method outcomes fuel attempt).map fun rest =>
                ([.acquire method, .post method, .sleep seconds] ++ rest.1, rest.2)
            else none
      else some ([.acquire method, .post method], exchange.result method)

/-! ## how often it posts -/

/-- The retries that are made, of those that are left. -/
def retriesFrom (outcomes : Nat → ApiExchange) : (left attempt : Nat) → Nat
  | 0, _ => 0
  | left + 1, attempt =>
      if (outcomes attempt).isRetried then retriesFrom outcomes left (attempt + 1) + 1 else 0

/-- The retries an `api_call` makes. -/
def retries (client : Client) (outcomes : Nat → ApiExchange) : Nat :=
  retriesFrom outcomes client.retryAttempts.toNat 0

section Loop

variable {client : Client} {jitter : Nat → ℚ} {method : String} {outcomes : Nat → ApiExchange}

/-- The retries end at the first exchange that is not tried again, or when none is
left. -/
theorem retriesFrom_spec (outcomes : Nat → ApiExchange) (left attempt : Nat) :
    retriesFrom outcomes left attempt ≤ left ∧
      (∀ i < retriesFrom outcomes left attempt, (outcomes (attempt + i)).isRetried) ∧
      ((outcomes (attempt + retriesFrom outcomes left attempt)).isRetried →
        retriesFrom outcomes left attempt = left) := by
  induction left generalizing attempt with
  | zero => exact ⟨le_rfl, fun i hi => absurd hi (Nat.not_lt_zero i), fun _ => rfl⟩
  | succ left ih =>
      by_cases hretried : (outcomes attempt).isRetried
      · obtain ⟨hle, hall, hlast⟩ := ih (attempt + 1)
        have hstep : retriesFrom outcomes (left + 1) attempt =
            retriesFrom outcomes left (attempt + 1) + 1 := if_pos hretried
        rw [hstep]
        refine ⟨by omega, fun i hi => ?_, fun h => ?_⟩
        · cases i with
          | zero => exact hretried
          | succ i =>
              have h := hall i (by omega)
              rwa [Nat.add_assoc, Nat.add_comm 1] at h
        · rw [hlast (by rwa [Nat.add_assoc, Nat.add_comm 1])]
      · have hstep : retriesFrom outcomes (left + 1) attempt = 0 := if_neg hretried
        rw [hstep]
        exact ⟨Nat.zero_le _, fun i hi => absurd hi (Nat.not_lt_zero i),
          fun h => absurd h hretried⟩

/-- The retries that are made are those that are due: all exchanges so far are tried
again, and the limit is not reached. -/
theorem lt_retriesFrom_iff (outcomes : Nat → ApiExchange) {left attempt n : Nat} :
    n < retriesFrom outcomes left attempt ↔
      n < left ∧ ∀ i ≤ n, (outcomes (attempt + i)).isRetried := by
  obtain ⟨hle, hall, hlast⟩ := retriesFrom_spec outcomes left attempt
  constructor
  · intro h
    exact ⟨h.trans_le hle, fun i hi => hall i (hi.trans_lt h)⟩
  · rintro ⟨hn, hretried⟩
    by_contra hge
    have hnext := hlast (hretried _ (Nat.le_of_not_lt hge))
    omega

/-! ## how many sleeps end -/

/-- The power of two is a float, and the seconds are finite. -/
def Wakes (client : Client) (jitter : Nat → ℚ) (n : Nat) : Prop :=
  n < 1024 ∧ isFinite (client.backoff jitter (n + 1))

instance (n : Nat) : Decidable (client.Wakes jitter n) := inferInstanceAs (Decidable (_ ∧ _))

/-- The sleeps that end, of so many retries. -/
def sleptFrom (client : Client) (jitter : Nat → ℚ) : (retries attempt : Nat) → Nat
  | 0, _ => 0
  | retries + 1, attempt =>
      if client.Wakes jitter attempt then sleptFrom client jitter retries (attempt + 1) + 1 else 0

/-- The sleeps of an `api_call` that end. -/
def slept (client : Client) (jitter : Nat → ℚ) (outcomes : Nat → ApiExchange) : Nat :=
  client.sleptFrom jitter (client.retries outcomes) 0

/-- The powers of two below the largest float. -/
theorem two_pow_lt_floatLimit_iff (n : Nat) : 2 ^ n < floatLimit ↔ n < 1024 := by
  have hhalf : 2 ^ 1024 = 2 ^ 1023 + 2 ^ 1023 := by rw [← mul_two, ← pow_succ]
  have hsmall : 2 ^ 970 < 2 ^ 1023 := pow_lt_pow_right₀ (by decide) (by decide)
  have hpos : 0 < 2 ^ 970 := by positivity
  unfold floatLimit
  constructor
  · intro h
    by_contra hge
    have hle : 2 ^ 1024 ≤ 2 ^ n := pow_le_pow_right₀ (by decide) (Nat.le_of_not_lt hge)
    omega
  · intro h
    have hle : 2 ^ n ≤ 2 ^ 1023 := pow_le_pow_right₀ (by decide) (Nat.le_of_lt_succ h)
    omega

/-- Those that convert. -/
theorem fitsFloat_two_pow_iff (n : Nat) : FitsFloat (2 ^ n) ↔ n < 1024 := by
  have habs : ((2 : Int) ^ n).natAbs = 2 ^ n := Int.natAbs_pow 2 n
  rw [FitsFloat, habs, two_pow_lt_floatLimit_iff]

/-- The first 1024 pauses can be computed. -/
theorem sleepFor_of_lt {n : Nat} (h : n < 1024) :
    client.sleepFor jitter (n + 1) = .ok (client.backoff jitter (n + 1)) :=
  if_pos ((fitsFloat_two_pow_iff n).mpr h)

/-- And no later one. -/
theorem sleepFor_of_le {n : Nat} (h : 1024 ≤ n) :
    client.sleepFor jitter (n + 1) = .error .overflowError :=
  if_neg fun hfits => absurd ((fitsFloat_two_pow_iff n).mp hfits) (Nat.not_lt.mpr h)

/-- Sleeps end until one does not. -/
theorem sleptFrom_spec (client : Client) (jitter : Nat → ℚ) (retries attempt : Nat) :
    client.sleptFrom jitter retries attempt ≤ retries ∧
      (∀ i < client.sleptFrom jitter retries attempt, client.Wakes jitter (attempt + i)) ∧
      (client.sleptFrom jitter retries attempt < retries →
        ¬ client.Wakes jitter (attempt + client.sleptFrom jitter retries attempt)) := by
  induction retries generalizing attempt with
  | zero =>
      exact ⟨le_rfl, fun i hi => absurd hi (Nat.not_lt_zero i), fun h => absurd h (lt_irrefl _)⟩
  | succ retries ih =>
      by_cases hwakes : client.Wakes jitter attempt
      · obtain ⟨hle, hall, hlast⟩ := ih (attempt + 1)
        have hstep : client.sleptFrom jitter (retries + 1) attempt =
            client.sleptFrom jitter retries (attempt + 1) + 1 := if_pos hwakes
        rw [hstep]
        refine ⟨by omega, fun i hi => ?_, fun h => ?_⟩
        · cases i with
          | zero => exact hwakes
          | succ i =>
              have h := hall i (by omega)
              rwa [Nat.add_assoc, Nat.add_comm 1] at h
        · have hstuck := hlast (by omega)
          rwa [Nat.add_assoc, Nat.add_comm 1] at hstuck
      · have hstep : client.sleptFrom jitter (retries + 1) attempt = 0 := if_neg hwakes
        rw [hstep]
        exact ⟨Nat.zero_le _, fun i hi => absurd hi (Nat.not_lt_zero i), fun _ => hwakes⟩

/-! ## the loop -/

/-- The events of an attempt that is followed by another. -/
def attemptEvents (client : Client) (jitter : Nat → ℚ) (method : String) (attempt : Nat) :
    List ClientEvent :=
  [.acquire method, .post method, .sleep (client.backoff jitter (attempt + 1))]

/-- The events of some retries and the last attempt. -/
def eventsFrom (client : Client) (jitter : Nat → ℚ) (method : String) (attempt retries : Nat) :
    List ClientEvent :=
  (List.range' attempt retries).flatMap (client.attemptEvents jitter method) ++
    [.acquire method, .post method]

/-- An attempt that is not followed by another. -/
theorem apiCall_last {fuel attempt : Nat}
    (h : ¬ ((outcomes attempt).isRetried ∧ (attempt + 1 : Int) ≤ client.retryAttempts)) :
    client.apiCall jitter method outcomes (fuel + 1) attempt =
      some ([.acquire method, .post method], (outcomes attempt).result method) := by
  have hcond : ((outcomes attempt).isRetried &&
      decide (((attempt + 1 : Nat) : Int) ≤ client.retryAttempts)) = false := by
    rw [Bool.eq_false_iff]
    simpa using h
  rw [apiCall]
  simp only [hcond]
  rfl

/-- An attempt that is, if the sleep in between ends. -/
theorem apiCall_retry {fuel attempt : Nat} (hretried : (outcomes attempt).isRetried)
    (hleft : (attempt + 1 : Int) ≤ client.retryAttempts) :
    client.apiCall jitter method outcomes (fuel + 1) attempt =
      if client.Wakes jitter attempt then
        (client.apiCall jitter method outcomes fuel (attempt + 1)).map fun rest =>
          (client.attemptEvents jitter method attempt ++ rest.1, rest.2)
      else if 1024 ≤ attempt then some ([.acquire method, .post method], .error .overflowError)
      else none := by
  have hcond : ((outcomes attempt).isRetried &&
      decide (((attempt + 1 : Nat) : Int) ≤ client.retryAttempts)) = true := by
    simpa [hretried] using hleft
  rw [apiCall]
  simp only [hcond, if_true]
  by_cases hpower : attempt < 1024
  · rw [sleepFor_of_lt hpower, if_neg (Nat.not_le.mpr hpower)]
    by_cases hfinite : isFinite (client.backoff jitter (attempt + 1))
    · rw [if_pos (show client.Wakes jitter attempt from ⟨hpower, hfinite⟩)]
      simp only [if_pos hfinite]
      rfl
    · rw [if_neg fun h : client.Wakes jitter attempt => hfinite h.2]
      simp only [if_neg hfinite]
  · rw [sleepFor_of_le (Nat.le_of_not_lt hpower), if_pos (Nat.le_of_not_lt hpower),
      if_neg fun h : client.Wakes jitter attempt => hpower h.1]

/-- An attempt, and then the others. -/
theorem eventsFrom_succ (attempt retries : Nat) :
    client.eventsFrom jitter method attempt (retries + 1) =
      client.attemptEvents jitter method attempt ++
        client.eventsFrom jitter method (attempt + 1) retries := by
  simp [eventsFrom, List.range'_succ]

/-- How it ends after some sleeps: with the result of the last exchange if there were
as many as retries, and else at the sleep that does not end. -/
def endsWith (method : String) (outcomes : Nat → ApiExchange) (attempt retries slept : Nat) :
    Option (Except PyError PyVal) :=
  if slept = retries then some ((outcomes (attempt + slept)).result method)
  else if 1024 ≤ attempt + slept then some (.error .overflowError)
  else none

/-- A pause has been slept. -/
theorem endsWith_succ (attempt retries slept : Nat) :
    endsWith method outcomes attempt (retries + 1) (slept + 1) =
      endsWith method outcomes (attempt + 1) retries slept := by
  simp only [endsWith, Nat.add_right_cancel_iff, Nat.add_assoc, Nat.add_comm 1]

/-- **The loop.**  By induction on the retries that are left. -/
theorem apiCall_from {left attempt : Nat} (fuel : Nat)
    (hleft : left + attempt = client.retryAttempts.toNat) :
    client.apiCall jitter method outcomes fuel attempt =
      if client.sleptFrom jitter (retriesFrom outcomes left attempt) attempt < fuel then
        (endsWith method outcomes attempt (retriesFrom outcomes left attempt)
          (client.sleptFrom jitter (retriesFrom outcomes left attempt) attempt)).map fun result =>
            (client.eventsFrom jitter method attempt
              (client.sleptFrom jitter (retriesFrom outcomes left attempt) attempt), result)
      else none := by
  induction left generalizing attempt fuel with
  | zero =>
      cases fuel with
      | zero => rfl
      | succ fuel => exact apiCall_last fun h => by omega
  | succ left ih =>
      cases fuel with
      | zero => rfl
      | succ fuel =>
          by_cases hretried : (outcomes attempt).isRetried
          · have hstep : retriesFrom outcomes (left + 1) attempt =
                retriesFrom outcomes left (attempt + 1) + 1 := if_pos hretried
            rw [apiCall_retry hretried (by omega), hstep]
            by_cases hwakes : client.Wakes jitter attempt
            · have hslept : client.sleptFrom jitter (retriesFrom outcomes left (attempt + 1) + 1)
                  attempt = client.sleptFrom jitter (retriesFrom outcomes left (attempt + 1))
                    (attempt + 1) + 1 := if_pos hwakes
              rw [if_pos hwakes, ih fuel (by omega), hslept, eventsFrom_succ, endsWith_succ]
              by_cases henough : client.sleptFrom jitter (retriesFrom outcomes left (attempt + 1))
                  (attempt + 1) < fuel
              · rw [if_pos henough, if_pos (Nat.succ_lt_succ henough), Option.map_map]
                rfl
              · rw [if_neg henough, if_neg fun h => henough (Nat.lt_of_succ_lt_succ h),
                  Option.map_none]
            · have hslept : client.sleptFrom jitter (retriesFrom outcomes left (attempt + 1) + 1)
                  attempt = 0 := if_neg hwakes
              rw [if_neg hwakes, hslept, if_pos (Nat.succ_pos fuel), endsWith,
                if_neg (Nat.succ_ne_zero _).symm, Nat.add_zero]
              by_cases hpower : 1024 ≤ attempt
              · rw [if_pos hpower, if_pos hpower]
                rfl
              · rw [if_neg hpower, if_neg hpower]
                rfl
          · have hstep : retriesFrom outcomes (left + 1) attempt = 0 := if_neg hretried
            rw [apiCall_last fun h => hretried h.1, hstep]
            rfl

/-- **How an `api_call` ends.**  With fuel for its posts, one more than there are
sleeps that end, it ends as `endsWith` says; with less it does not end. -/
theorem apiCall_eq (client : Client) (jitter : Nat → ℚ) (method : String)
    (outcomes : Nat → ApiExchange) (fuel : Nat) :
    client.apiCall jitter method outcomes fuel 0 =
      if client.slept jitter outcomes < fuel then
        (endsWith method outcomes 0 (client.retries outcomes) (client.slept jitter outcomes)).map
          fun result => (client.eventsFrom jitter method 0 (client.slept jitter outcomes), result)
      else none :=
  apiCall_from fuel (Nat.add_zero _)

/-! ## how long it sleeps -/

/-- The seconds of sleep among the events. -/
def totalSleep (events : List ClientEvent) : ℚ := (events.map ClientEvent.seconds).sum

/-- The pauses of the one list and of the other. -/
theorem totalSleep_append (events events' : List ClientEvent) :
    totalSleep (events ++ events') = totalSleep events + totalSleep events' := by
  simp [totalSleep]

/-- The back-off doubles with each retry, and a jitter is added to each. -/
theorem totalSleep_eventsFrom (hjitter : ∀ n, 0 ≤ jitter n ∧ jitter n ≤ client.retryBackoff)
    (attempt retries : Nat) :
    client.retryBackoff * 2 ^ attempt * (2 ^ retries - 1) ≤
        totalSleep (client.eventsFrom jitter method attempt retries) ∧
      totalSleep (client.eventsFrom jitter method attempt retries) ≤
        client.retryBackoff * 2 ^ attempt * (2 ^ retries - 1) + retries * client.retryBackoff := by
  induction retries generalizing attempt with
  | zero => simp [eventsFrom, totalSleep, ClientEvent.seconds]
  | succ retries ih =>
      obtain ⟨hlower, hupper⟩ := ih (attempt + 1)
      obtain ⟨hnonneg, hle⟩ := hjitter (attempt + 1)
      have hfirst : totalSleep (client.attemptEvents jitter method attempt) =
          client.retryBackoff * 2 ^ attempt + jitter (attempt + 1) := by
        simp [attemptEvents, totalSleep, ClientEvent.seconds, backoff]
      have hdouble : client.retryBackoff * 2 ^ attempt * (2 ^ (retries + 1) - 1) =
          client.retryBackoff * 2 ^ attempt +
            client.retryBackoff * 2 ^ (attempt + 1) * (2 ^ retries - 1) := by
        ring
      rw [eventsFrom_succ, totalSleep_append, hfirst, hdouble]
      push_cast
      constructor <;> linarith

/-- The posts among the events. -/
def posts (method : String) (events : List ClientEvent) : Nat := events.count (.post method)

/-- Each attempt posts once. -/
theorem posts_eventsFrom (attempt retries : Nat) :
    posts method (client.eventsFrom jitter method attempt retries) = retries + 1 := by
  induction retries generalizing attempt with
  | zero => simp [eventsFrom, posts]
  | succ retries ih =>
      have hfirst : posts method (client.attemptEvents jitter method attempt) = 1 := by
        simp [attemptEvents, posts]
      rw [eventsFrom_succ, posts, List.count_append, ← posts, ← posts, hfirst, ih, Nat.add_comm]

/-- Each post comes right after an `acquire` of the method, and there is no other
`acquire` and no other post. -/
inductive Paced (method : String) : List ClientEvent → Prop
  | nil : Paced method []
  | attempt {events} : Paced method events →
      Paced method (.acquire method :: .post method :: events)
  | sleep {seconds events} : Paced method events → Paced method (.sleep seconds :: events)

/-- Each retry comes after its pause. -/
theorem paced_eventsFrom (attempt retries : Nat) :
    Paced method (client.eventsFrom jitter method attempt retries) := by
  induction retries generalizing attempt with
  | zero => exact .attempt .nil
  | succ retries ih =>
      rw [eventsFrom_succ]
      exact .attempt (.sleep (ih (attempt + 1)))

end Loop

/-! ## when it is exact -/

/-- No retry that is due raises, or sleeps for ever. -/
def InRange (client : Client) (jitter : Nat → ℚ) (outcomes : Nat → ApiExchange) : Prop :=
  ∀ n : Nat, (n : Int) < client.retryAttempts → (∀ i ≤ n, (outcomes i).isRetried) →
    client.Wakes jitter n

/-- There is a number `k` of posts, up to the first outcome that is not tried again,
capped at `max(retry_attempts, 0) + 1`: with fuel for `k` posts, and not with less,
`api_call` returns the result of the `k`-th outcome; each post comes right after an
`acquire` of the method; and the back-off sleeps add up to `b * (2 ** (k - 1) - 1)` and
at most `(k - 1) * b` of jitter. -/
def Exact (client : Client) (jitter : Nat → ℚ) (method : String)
    (outcomes : Nat → ApiExchange) : Prop :=
  ∃ (k : Nat) (events : List ClientEvent), 1 ≤ k ∧ (k : Int) ≤ max client.retryAttempts 0 + 1 ∧
    (∀ i < k - 1, (outcomes i).isRetried) ∧
    ((outcomes (k - 1)).isRetried → (k : Int) = max client.retryAttempts 0 + 1) ∧
    (∀ fuel, client.apiCall jitter method outcomes fuel 0 =
      if k ≤ fuel then some (events, (outcomes (k - 1)).result method) else none) ∧
    posts method events = k ∧ Paced method events ∧
    client.retryBackoff * (2 ^ (k - 1) - 1) ≤ totalSleep events ∧
    totalSleep events ≤
      client.retryBackoff * (2 ^ (k - 1) - 1) + ((k - 1 : Nat) : ℚ) * client.retryBackoff

section Range

variable {client : Client} {jitter : Nat → ℚ} {method : String} {outcomes : Nat → ApiExchange}

/-- All sleeps end exactly if the retries are in range. -/
theorem slept_eq_retries_iff :
    client.slept jitter outcomes = client.retries outcomes ↔ client.InRange jitter outcomes := by
  obtain ⟨hle, hall, hlast⟩ := sleptFrom_spec client jitter (client.retries outcomes) 0
  simp only [Nat.zero_add] at hall hlast
  have hdue (n : Nat) : n < client.retries outcomes ↔
      (n : Int) < client.retryAttempts ∧ ∀ i ≤ n, (outcomes i).isRetried := by
    rw [retries, lt_retriesFrom_iff]
    simp only [Nat.zero_add, Int.lt_toNat]
  constructor
  · intro h n hn hretried
    have hmade : n < client.slept jitter outcomes := by
      rw [h]
      exact (hdue n).mpr ⟨hn, hretried⟩
    exact hall n hmade
  · intro h
    by_contra hne
    have hlt : client.slept jitter outcomes < client.retries outcomes := lt_of_le_of_ne hle hne
    obtain ⟨hn, hretried⟩ := (hdue _).mp hlt
    exact hlast hlt (h _ hn hretried)

/-- In range, it ends with the result of the last exchange. -/
theorem apiCall_of_inRange (h : client.InRange jitter outcomes) (fuel : Nat) :
    client.apiCall jitter method outcomes fuel 0 =
      if client.retries outcomes < fuel then
        some (client.eventsFrom jitter method 0 (client.retries outcomes),
          (outcomes (client.retries outcomes)).result method)
      else none := by
  rw [apiCall_eq, slept_eq_retries_iff.mpr h, endsWith, if_pos rfl, Nat.zero_add, Option.map_some]

/-- In range, the pauses are exactly those. -/
theorem exact_of_inRange (hjitter : ∀ n, 0 ≤ jitter n ∧ jitter n ≤ client.retryBackoff)
    (h : client.InRange jitter outcomes) : client.Exact jitter method outcomes := by
  obtain ⟨hle, hall, hlast⟩ := retriesFrom_spec outcomes client.retryAttempts.toNat 0
  simp only [Nat.zero_add] at hall hlast
  obtain ⟨hlower, hupper⟩ :=
    @totalSleep_eventsFrom client jitter method hjitter 0 (client.retries outcomes)
  rw [pow_zero, mul_one] at hlower hupper
  refine ⟨client.retries outcomes + 1, _, Nat.le_add_left 1 _, ?_, hall, fun h => ?_,
    apiCall_of_inRange h, posts_eventsFrom 0 _, paced_eventsFrom 0 _, hlower, hupper⟩
  · rw [retries]
    omega
  · have hnone := hlast h
    rw [retries]
    omega

/-- If it makes as many posts as it is to make, all its sleeps have ended. -/
theorem Exact.inRange (h : client.Exact jitter method outcomes) :
    client.InRange jitter outcomes := by
  obtain ⟨k, events, hpos, hle, hretried, hcap, hcall, hposts, -⟩ := h
  obtain ⟨hmost, hall, hlast⟩ := retriesFrom_spec outcomes client.retryAttempts.toNat 0
  simp only [Nat.zero_add] at hall hlast
  have hrun := hcall (k + client.slept jitter outcomes + 1)
  rw [if_pos (by omega), apiCall_eq, if_pos (by omega)] at hrun
  obtain ⟨result, -, hend⟩ := Option.map_eq_some_iff.mp hrun
  rw [Prod.mk.injEq] at hend
  have hk : client.slept jitter outcomes + 1 = k := by
    rw [← hposts, ← hend.1, posts_eventsFrom]
  refine slept_eq_retries_iff.mp (le_antisymm (sleptFrom_spec client jitter _ 0).1 ?_)
  by_contra hless
  have hagain := hcap (hall (k - 1) (by unfold retries at hless; omega))
  unfold retries at hless
  omega

end Range

/-- **When the retry loop is exact.**  Whatever the settings, the outcomes and the
jitter: if and only if no retry that is due has a power of two that is no float, or a
sleep that is not finite. -/
theorem apiCall_exact_iff (client : Client) {jitter : Nat → ℚ}
    (hjitter : ∀ n, 0 ≤ jitter n ∧ jitter n ≤ client.retryBackoff) (method : String)
    (outcomes : Nat → ApiExchange) :
    client.Exact jitter method outcomes ↔ client.InRange jitter outcomes :=
  ⟨Exact.inRange, exact_of_inRange hjitter⟩

/-- The first post times out and the second succeeds. -/
def secondSucceeds : Nat → ApiExchange
  | 0 => .transportError "timeout"
  | _ => .response 200 (.ok (.dict [("ok", .bool true)]))

/-- Then it is. -/
theorem apiCall_exact_second : ({} : Client).Exact (fun _ => 0) "getMe" secondSucceeds := by
  refine (apiCall_exact_iff {} (by norm_num) "getMe" secondSucceeds).mpr fun n _ hretried => ?_
  have hzero : n = 0 := by
    by_contra hpos
    exact absurd (hretried 1 (by omega)) (by decide)
  subst hzero
  have hlimit : 1 < floatLimit := (two_pow_lt_floatLimit_iff 0).mpr (by decide)
  have hcast : (1 : ℚ) < floatLimit := by exact_mod_cast hlimit
  have hhalf : backoff {} (fun _ => 0) 1 = 1 / 2 := by norm_num [backoff]
  refine ⟨by decide, decide_eq_true ?_⟩
  rw [hhalf]
  linarith

/-- Nothing gets through. -/
def offline : Nat → ApiExchange := fun _ => .transportError "timeout"

/-- Without a back-off and with 1025 retries, the last one raises. -/
theorem offline_not_exact :
    ¬ ({ retryAttempts := 1025, retryBackoff := 0 } : Client).Exact (fun _ => 0) "getMe"
      offline := by
  intro h
  exact absurd (h.inRange 1024 (by decide) fun _ _ => rfl).1 (lt_irrefl _)

end Client

end RubicaBot
