import Mathlib.Data.Set.Finite.Lattice
import RubicaBot.Dedup
import RubicaBot.Simulation
import RubicaBot.Window

/-!
# RubicaBot.RateLimiter

`app/utils/rate_limiter.py`: the sliding window in front of the webhook.

`_events` tracks the log of the accepted requests (`tracks_granted`), and a
request is refused exactly when that log is full within its window.  A refused
request leaves no trace in the log, so none in the answers (`exact_window`).
-/

namespace RubicaBot

open Transition

/-- `_events` is the deque of accepted requests, oldest first. -/
structure RateLimiter where
  maxRequests : Int
  windowSeconds : ℚ := 60
  events : List Instant := []

namespace RateLimiter

/-- `allow`: events that have left the window are popped, and the request is
accepted if fewer than `max_requests` remain. -/
def allow (limiter : RateLimiter) (now : Instant) : Bool × RateLimiter :=
  let events := limiter.events.dropWhile fun t => decide (now - t > limiter.windowSeconds)
  if limiter.maxRequests ≤ events.length then (false, { limiter with events := events })
  else (true, { limiter with events := events ++ [now] })

/-! ## one call -/

/-- The limiter as a machine that is asked at a time. -/
def call (limiter : RateLimiter) (now : Instant) : Option (Bool × RateLimiter) :=
  some (limiter.allow now)

/-- The times at which the answer was yes, oldest first. -/
def granted (calls : List (Instant × Bool)) : List Instant :=
  (calls.filter Prod.snd).map Prod.fst

/-- The limiter's deque tracks the log. -/
structure Limits (limiter : RateLimiter) (n : Int) (w : ℚ) (now : Instant) (log : List Instant) :
    Prop where
  maxRequests : limiter.maxRequests = n
  windowSeconds : limiter.windowSeconds = w
  tracks : Window.Tracks w now log limiter.events
  sparse : Window.Sparse w n.toNat log

variable {limiter : RateLimiter} {n : Int} {w : ℚ} {now : Instant} {log : List Instant}

/-- Time passes; what has left the window is still to be dropped. -/
theorem Limits.later (h : limiter.Limits n w now log) {now' : Instant} (hle : now ≤ now') :
    limiter.Limits n w now' log :=
  ⟨h.maxRequests, h.windowSeconds, h.tracks.later hle, h.sparse⟩

/-- A request is refused exactly when the log is full within its window; then the
log is the one before, else it has the request in it. -/
theorem Limits.allow (h : limiter.Limits n w now log) :
    ((limiter.allow now).1 = false ∧ n ≤ (Window.within w now log).length ∧
        (limiter.allow now).2.Limits n w now log) ∨
      ((limiter.allow now).1 = true ∧ ((Window.within w now log).length : Int) < n ∧
        (limiter.allow now).2.Limits n w now (log ++ [now])) := by
  have hprune : limiter.events.dropWhile (fun t => decide (now - t > limiter.windowSeconds)) =
      Window.prune w now limiter.events := by
    rw [h.windowSeconds]
    rfl
  have hlength : (Window.prune w now limiter.events).length = (Window.within w now log).length := by
    rw [h.tracks.prune_eq]
  simp only [RateLimiter.allow, hprune, hlength, h.maxRequests]
  by_cases hfull : n ≤ (Window.within w now log).length
  · simp only [hfull, if_true]
    exact .inl ⟨trivial, trivial, rfl, h.windowSeconds, h.tracks.pruned, h.sparse⟩
  · have hroom : (Window.within w now log).length < n.toNat := by omega
    simp only [hfull, if_false]
    exact .inr ⟨trivial, by omega, rfl, h.windowSeconds, h.tracks.pruned.push,
      h.sparse.push hroom⟩

/-! ## a run of calls -/

/-- A call can always be made. -/
theorem call_eq (limiter : RateLimiter) (now : Instant) :
    call limiter now = some ((limiter.allow now).1, (limiter.allow now).2) := rfl

/-- **What a run has granted.**  By induction on the calls, which are made at times
that do not decrease. -/
theorem Limits.after (h : limiter.Limits n w now log) {times : List Instant}
    (hsorted : (now :: times).Pairwise (· ≤ ·)) {now' : Instant} (hnow : now ≤ now')
    (hpast : ∀ t ∈ times, t ≤ now') :
    ∃ limiter', Transition.run (next call) limiter times = some limiter' ∧
      limiter'.Limits n w now' (log ++ granted (transcript call limiter times)) := by
  induction times generalizing limiter now log with
  | nil => exact ⟨limiter, rfl, by simpa [transcript, gather, granted] using h.later hnow⟩
  | cons t times ih =>
      obtain ⟨hle, hrest⟩ := List.pairwise_cons.mp hsorted
      have ht := h.later (hle t List.mem_cons_self)
      have hbound := hpast t List.mem_cons_self
      have hlater := fun t' ht' => hpast t' (List.mem_cons_of_mem _ ht')
      obtain ⟨hans, -, hnext⟩ | ⟨hans, -, hnext⟩ := ht.allow
      · obtain ⟨limiter', hrun, hlimits⟩ := ih hnext hrest hbound hlater
        refine ⟨limiter', hrun, ?_⟩
        rw [transcript_cons (call_eq limiter t), hans]
        exact hlimits
      · obtain ⟨limiter', hrun, hlimits⟩ := ih hnext hrest hbound hlater
        refine ⟨limiter', hrun, ?_⟩
        rw [transcript_cons (call_eq limiter t), hans]
        rw [List.append_assoc] at hlimits
        exact hlimits

/-- Limiters with one log answer alike from then on. -/
theorem Limits.outputs_eq {limiter' : RateLimiter} (h : limiter.Limits n w now log)
    (h' : limiter'.Limits n w now log) {times : List Instant}
    (hsorted : (now :: times).Pairwise (· ≤ ·)) :
    outputs call limiter times = outputs call limiter' times := by
  induction times generalizing limiter limiter' now log with
  | nil => rfl
  | cons t times ih =>
      obtain ⟨hle, hrest⟩ := List.pairwise_cons.mp hsorted
      have ht := h.later (hle t List.mem_cons_self)
      have ht' := h'.later (hle t List.mem_cons_self)
      rw [outputs_cons (call_eq limiter t), outputs_cons (call_eq limiter' t)]
      obtain ⟨hans, hfull, hnext⟩ | ⟨hans, hroom, hnext⟩ := ht.allow <;>
        obtain ⟨hans', hfull', hnext'⟩ | ⟨hans', hroom', hnext'⟩ := ht'.allow
      · rw [hans, hans', ih hnext hnext' hrest]
      · omega
      · omega
      · rw [hans, hans', ih hnext hnext' hrest]

/-- A new limiter has granted nothing. -/
theorem limits_init (n : Int) (w : ℚ) (now : Instant) :
    Limits { maxRequests := n, windowSeconds := w } n w now [] :=
  ⟨rfl, rfl, Window.Tracks.nil w now, Window.sparse_nil w _⟩

/-- What a run from a new limiter has granted, up to any time after it. -/
theorem exists_limits (n : Int) (w : ℚ) {times : List Instant} (hsorted : times.Pairwise (· ≤ ·))
    (hpast : ∀ t ∈ times, t ≤ now) :
    ∃ limiter, Transition.run (next call) { maxRequests := n, windowSeconds := w } times =
        some limiter ∧
      limiter.Limits n w now
        (granted (transcript call { maxRequests := n, windowSeconds := w } times)) := by
  cases times with
  | nil => exact ⟨_, rfl, limits_init n w now⟩
  | cons t times =>
      have hsorted' : (t :: t :: times).Pairwise (· ≤ ·) := by
        refine List.pairwise_cons.mpr ⟨fun t' ht' => ?_, hsorted⟩
        rcases List.mem_cons.mp ht' with rfl | ht'
        · exact le_rfl
        · exact (List.pairwise_cons.mp hsorted).1 t' ht'
      exact (limits_init n w t).after hsorted' (hpast t List.mem_cons_self) hpast

/-- **An exact sliding window.**  Whatever the times at which a new limiter is asked,
as long as they do not decrease: no interval as long as the window has more than
`max_requests` grants in it; a request is refused if and only if exactly
`max_requests` of the requests before it were granted within the window that ends
with it; and the answers after a refused request are what they would be without it. -/
theorem exact_window {maxRequests : Int} {windowSeconds : ℚ} (hmax : 0 ≤ maxRequests)
    {times : List Instant} (hsorted : times.Pairwise (· ≤ ·)) :
    (∀ a, ((Window.spanning windowSeconds a
        (granted (transcript call { maxRequests, windowSeconds } times))).length : Int) ≤
          maxRequests) ∧
      ∀ before now later, times = before ++ now :: later →
        ∃ limiter, run (next call) { maxRequests, windowSeconds } before = some limiter ∧
          ((limiter.allow now).1 = false ↔
            ((Window.spanning windowSeconds (now - windowSeconds)
              (granted (transcript call { maxRequests, windowSeconds } before))).length : Int) =
                maxRequests) ∧
          ((limiter.allow now).1 = false →
            outputs call (limiter.allow now).2 later = outputs call limiter later) := by
  constructor
  · intro a
    obtain ⟨now, hpast⟩ : ∃ now, ∀ t ∈ times, t ≤ now :=
      times.finite_toSet.bddAbove
    obtain ⟨limiter, -, h⟩ := exists_limits maxRequests windowSeconds hsorted hpast
    have hle := h.sparse a
    omega
  · rintro before now later rfl
    obtain ⟨hbefore, hlater, hle⟩ := List.pairwise_append.mp hsorted
    have hpast : ∀ t ∈ before, t ≤ now := fun t ht => hle t ht now List.mem_cons_self
    obtain ⟨limiter, hrun, h⟩ := exists_limits maxRequests windowSeconds hbefore hpast
    refine ⟨limiter, hrun, ?_, fun hrefused => ?_⟩
    · have hsparse := h.sparse (now - windowSeconds)
      rw [← Window.within_eq_spanning h.tracks.past] at hsparse ⊢
      obtain ⟨hans, hfull, -⟩ | ⟨hans, hroom, -⟩ := h.allow
      · simp only [hans, true_iff]
        omega
      · simp only [hans, Bool.true_eq_false, false_iff]
        omega
    · obtain ⟨-, -, hnext⟩ | ⟨hans, -, -⟩ := h.allow
      · exact hnext.outputs_eq h hlater
      · rw [hrefused] at hans
        cases hans

/-- Two requests in ten seconds: the third comes ten seconds after the first two and
is refused, the fourth later and is not. -/
theorem exact_window_two_in_ten :
    granted (transcript call { maxRequests := 2, windowSeconds := 10 } [0, 0, 10, 11]) =
        [0, 0, 11] ∧
      ∀ a, ((Window.spanning 10 a (granted (transcript call
        { maxRequests := 2, windowSeconds := 10 } [0, 0, 10, 11]))).length : Int) ≤ 2 :=
  ⟨by decide +kernel, (exact_window (by decide) (by decide)).1⟩

end RateLimiter

end RubicaBot
