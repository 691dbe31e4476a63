import Mathlib.Algebra.Order.Group.Unbundled.Abs
import RubicaBot.Queue.Interleaving

/-!
# RubicaBot.Queue.Admission

At most once: two calls of `enqueue` with the same effective key that are both
answered `enqueued` passed their duplicate checks more than the lifetime apart.

The check and the admission are separated by the lock, and any number of other
calls may run in between.  The invariant `Spaced` therefore speaks of the calls
that have passed the check, whether they still wait for the lock or not; their
keys and check times are among the admissions the deduplicator tracks.
-/

namespace RubicaBot

open Transition

namespace EnqueueCall

/-- Different keys, or checks more than `ttl` apart. -/
def Apart (ttl : ℚ) (c c' : EnqueueCall) : Prop :=
  c.job.effectiveKey = c'.job.effectiveKey → ttl < |c.checkedAt - c'.checkedAt|

/-- It does not matter which of the two comes first. -/
theorem Apart.symm {ttl : ℚ} {c c' : EnqueueCall} (h : c.Apart ttl c') : c'.Apart ttl c := by
  intro hkey
  rw [abs_sub_comm]
  exact h hkey.symm

/-- The stamped key the deduplicator recorded for the call. -/
def stamp (c : EnqueueCall) : String × Instant := (c.job.effectiveKey, c.checkedAt)

end EnqueueCall

namespace Loop

/-- Any two calls answered `enqueued` are apart. -/
def AtMostOnce (ttl : ℚ) (s : Loop) : Prop := s.enqueuedCalls.Pairwise (EnqueueCall.Apart ttl)

/-- The calls that passed the duplicate check, except the dropped ones. -/
def passed (s : Loop) : List EnqueueCall := s.lockWaiters ++ s.enqueuedCalls

/-- The deduplicator tracks an admission log with every passed call in it, and
the passed calls are apart. -/
structure Spaced (ttl : ℚ) (s : Loop) (log : List (String × Instant)) : Prop where
  lifetime : s.queue.deduplicator.ttlSeconds = ttl
  tracks : s.queue.deduplicator.Tracks log s.clock
  stamped : ∀ c ∈ s.passed, c.stamp ∈ log
  apart : s.passed.Pairwise (EnqueueCall.Apart ttl)

/-- Nor in which order all of them are listed. -/
theorem pairwise_apart_of_perm {ttl : ℚ} {cs cs' : List EnqueueCall} (hp : cs.Perm cs')
    (h : cs.Pairwise (EnqueueCall.Apart ttl)) : cs'.Pairwise (EnqueueCall.Apart ttl) :=
  hp.pairwise h fun h => h.symm

/-- The critical section moves a call from the waiting ones to the enqueued
ones, or drops it. -/
theorem passed_locked {s : Loop} {i : Nat} {call : EnqueueCall}
    (hcall : s.lockWaiters[i]? = some call) (decision : QueueDecision) :
    (s.lockWaiters.eraseIdx i ++
        (Event.decided call decision :: (s.queue.enqueueEvents call.job ++ s.log)).filterMap
          Event.enqueued?).Subperm s.passed := by
  have hevents := JobQueue.enqueueEvents_enqueued s.queue call.job
  have hperm : (call :: s.lockWaiters.eraseIdx i).Perm s.lockWaiters := by
    obtain ⟨hi, rfl⟩ := List.getElem?_eq_some_iff.mp hcall
    exact List.getElem_cons_eraseIdx_perm hi
  have hsub : (s.lockWaiters.eraseIdx i).Sublist s.lockWaiters := List.eraseIdx_sublist _ _
  rw [List.filterMap_cons, List.filterMap_append, hevents, List.nil_append, passed]
  cases decision with
  | enqueued =>
      refine List.Perm.subperm ?_
      exact List.perm_middle.trans (hperm.append_right _)
  | duplicate => exact (hsub.append_right _).subperm
  | dropped => exact (hsub.append_right _).subperm

/-- Steps that are not `enqueue`'s leave all of this alone. -/
theorem Spaced.of_frame {ttl : ℚ} {s s' : Loop} {log : List (String × Instant)}
    (hs : s.Spaced ttl log) (hclock : s'.clock = s.clock) (hpassed : s'.passed = s.passed)
    (hframe : s'.queue.frame = s.queue.frame) : s'.Spaced ttl log := by
  have hdedup := JobQueue.deduplicator_eq_of_frame hframe
  refine ⟨?_, ?_, ?_, ?_⟩
  · rw [hdedup]; exact hs.lifetime
  · rw [hdedup, hclock]; exact hs.tracks
  · rw [hpassed]; exact hs.stamped
  · rw [hpassed]; exact hs.apart

/-- **Step lemma.** -/
theorem step_spaced {ttl : ℚ} (httl : 0 ≤ ttl) {s s' : Loop} {l : Label}
    {log : List (String × Instant)} (hs : s.Spaced ttl log) (h : s.step l = some s') :
    ∃ log', s'.Spaced ttl log' := by
  cases Step.of_step h with
  | duplicate job now q hclock hseen =>
      obtain ⟨hans, hdedup, -⟩ := JobQueue.seenCheck_spec hseen
      have hlog : s.queue.deduplicator.logAfter log job.effectiveKey now = log := by
        simp [Deduplicator.logAfter, hans]
      refine ⟨log, ?_, ?_, hs.stamped, hs.apart⟩
      · simp only [hdedup, Deduplicator.seen_ttlSeconds, hs.lifetime]
      · have htracks := hs.tracks.seen (hs.lifetime ▸ httl) hclock job.effectiveKey
        rw [hlog, ← hdedup] at htracks
        exact htracks
  | fresh job now q hclock hseen =>
      obtain ⟨hans, hdedup, -⟩ := JobQueue.seenCheck_spec hseen
      have hlog : s.queue.deduplicator.logAfter log job.effectiveKey now =
          (job.effectiveKey, now) :: log := by
        simp [Deduplicator.logAfter, hans]
      have hperm : (⟨job, now⟩ :: s.passed).Perm
          ((s.lockWaiters ++ [⟨job, now⟩]) ++ s.enqueuedCalls) := by
        rw [List.append_assoc]
        exact List.perm_middle.symm
      refine ⟨(job.effectiveKey, now) :: log, ?_, ?_, ?_, ?_⟩
      · simp only [hdedup, Deduplicator.seen_ttlSeconds, hs.lifetime]
      · have htracks := hs.tracks.seen (hs.lifetime ▸ httl) hclock job.effectiveKey
        rw [hlog, ← hdedup] at htracks
        exact htracks
      · intro c hc
        rcases List.mem_cons.mp (hperm.mem_iff.mpr hc) with rfl | hmem
        · exact List.mem_cons_self
        · exact List.mem_cons_of_mem _ (hs.stamped c hmem)
      · refine pairwise_apart_of_perm hperm (List.pairwise_cons.mpr ⟨?_, hs.apart⟩)
        -- every earlier passed call of the key is in the log, so it has expired
        intro c hc hkey
        have hold := hs.tracks.lt_of_fresh hclock hans (s := c.checkedAt)
          (by have hstamp := hs.stamped c hc; rwa [EnqueueCall.stamp, ← hkey] at hstamp)
        rw [hs.lifetime] at hold
        exact lt_of_lt_of_le hold (le_abs_self _)
  | locked i call hcall =>
      have hsub := passed_locked hcall (s.queue.enqueueLocked call.job).1
      refine ⟨log, ?_, ?_, ?_, ?_⟩
      · rw [← hs.lifetime]
        exact congrArg Deduplicator.ttlSeconds
          (JobQueue.deduplicator_eq_of_frame (JobQueue.frame_enqueueLocked _ _))
      · have htracks := hs.tracks
        rw [← JobQueue.deduplicator_eq_of_frame (JobQueue.frame_enqueueLocked s.queue call.job)]
          at htracks
        exact htracks
      · intro c hc
        exact hs.stamped c (hsub.subset hc)
      · obtain ⟨cs, hcs, hsubl⟩ := hsub
        exact pairwise_apart_of_perm hcs (hs.apart.sublist hsubl)
  | putRaw => exact ⟨log, hs.of_frame rfl rfl rfl⟩
  | dropOldest =>
      refine ⟨log, hs.of_frame rfl ?_ (JobQueue.frame_dropOldest _)⟩
      simp only [passed, enqueuedCalls, List.filterMap_append, Event.enqueued_evicted,
        List.nil_append]
  | drain =>
      refine ⟨log, hs.of_frame rfl ?_ rfl⟩
      simp only [passed, enqueuedCalls, List.filterMap_append, Event.enqueued_drained,
        List.nil_append]
  | getReady => exact ⟨log, hs.of_frame rfl rfl (step_frame (fun _ _ => by simp) h)⟩
  | getWait => exact ⟨log, hs.of_frame rfl rfl rfl⟩
  | childTakes => exact ⟨log, hs.of_frame rfl rfl (step_frame (fun _ _ => by simp) h)⟩
  | resume => exact ⟨log, hs.of_frame rfl rfl rfl⟩
  | taskDone => exact ⟨log, hs.of_frame rfl rfl (step_frame (fun _ _ => by simp) h)⟩

/-- No call has been made of a new queue. -/
theorem init_spaced (n : Nat) (maxSize : Int) (fullPolicy : String) (ttl : ℚ) :
    (init n maxSize fullPolicy ttl).Spaced ttl [] where
  lifetime := rfl
  tracks := Deduplicator.tracks_empty ttl 0
  stamped := by simp [passed, init, enqueuedCalls]
  apart := List.Pairwise.nil

/-- **Run lemma.** -/
theorem run_atMostOnce {n : Nat} {maxSize : Int} {fullPolicy : String} {ttl : ℚ} (httl : 0 ≤ ttl)
    {ls : List Label} {s : Loop} (h : run step (init n maxSize fullPolicy ttl) ls = some s) :
    s.AtMostOnce ttl := by
  obtain ⟨log, hs⟩ := run_invariant_of_step (I := fun s => ∃ log, s.Spaced ttl log)
    (fun _ _ _ ⟨_, hs⟩ hstep => step_spaced httl hs hstep)
    ⟨[], init_spaced n maxSize fullPolicy ttl⟩ h
  exact hs.apart.sublist (List.sublist_append_right _ _)

end Loop

/-! ## the admission law -/

open Deduplicator in
/-- **At-most-once admission.**  After any sequence of calls of `seen` at
non-decreasing times, a call for `k` at `t` is answered `True` exactly when an
earlier call for `k`, at most `ttl` before `t`, was answered `False`, and the
dictionary then holds exactly the keys whose last `False` answer is at most `ttl`
old; so in every interleaving of calls of `enqueue`, under any full policy, two
of them with one effective key that are both answered `enqueued` made their
checks more than `ttl` apart. -/
theorem at_most_once_admission (ttl : ℚ) (httl : 0 ≤ ttl) :
    (∀ (calls : List (String × Instant)) (k : String) (t : Instant),
      NonDecreasing (calls ++ [(k, t)]) →
      (((observeAll ttl calls).1.seen (some k) t).1 = true ↔
        ∃ t₀, ⟨k, t₀, false⟩ ∈ (observeAll ttl calls).2 ∧ t - t₀ ≤ ttl) ∧
      ∀ k', k' ∈ (observeAll ttl (calls ++ [(k, t)])).1.cache ↔
        ∃ t₀, Recency.last k' (admissions (observeAll ttl (calls ++ [(k, t)])).2) = some t₀ ∧
          t - t₀ ≤ ttl) ∧
    ∀ (n : Nat) (maxSize : Int) (fullPolicy : String) (ls : List Label) (s : Loop),
      run Loop.step (Loop.init n maxSize fullPolicy ttl) ls = some s → s.AtMostOnce ttl := by
  refine ⟨fun calls k t hcalls => ?_, fun n maxSize fullPolicy ls s h => Loop.run_atMostOnce httl h⟩
  obtain ⟨hsorted, -, hlast⟩ := List.pairwise_append.mp hcalls
  obtain ⟨t', ht', htracks⟩ := tracks_observeAll httl hsorted (t := t)
    (fun c hc => hlast c hc (k, t) (by simp))
  constructor
  · rw [htracks.seen_iff ht' k, observeAll_ttlSeconds]
    simp only [mem_admissions_iff]
  · intro k'
    have hnext := htracks.seen (by rw [observeAll_ttlSeconds]; exact httl) ht' k
    rw [← admissions_observe, ← observeAll_append] at hnext
    have hafter : (observeAll ttl (calls ++ [(k, t)])).1 =
        ((observeAll ttl calls).1.seen (some k) t).2 := by
      rw [observeAll_append]
      rfl
    rw [← AList.lookup_isSome, hafter, hnext.lookup, seen_ttlSeconds, observeAll_ttlSeconds,
      Option.isSome_iff_exists]
    simp only [Recency.recent_eq_some]

open Deduplicator in
/-- With a lifetime of 60, a key seen at 0 is a duplicate at 60 and fresh right
after. -/
theorem at_most_once_admission_boundary :
    ((observeAll 60 [("a", 0)]).1.seen (some "a") 60).1 = true ∧
      ((observeAll 60 [("a", 0)]).1.seen (some "a") 61).1 = false := by
  have hlaw := (at_most_once_admission 60 (by decide +kernel)).1 [("a", 0)] "a"
  refine ⟨((hlaw 60 (by decide +kernel)).1).mpr ⟨0, ?_, by decide +kernel⟩, ?_⟩
  · exact List.mem_cons_self
  · rw [← Bool.not_eq_true, (hlaw 61 (by decide +kernel)).1]
    rintro ⟨t₀, hmem, hage⟩
    obtain ⟨-, rfl, -⟩ := SeenCall.mk.inj (List.mem_singleton.mp hmem)
    revert hage
    decide +kernel

end RubicaBot
