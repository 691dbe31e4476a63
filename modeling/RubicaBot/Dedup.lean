import Mathlib.Algebra.Order.Ring.Rat
import Mathlib.Data.List.AList
import Mathlib.Data.List.Induction
import Mathlib.Tactic.Linarith
import RubicaBot.Recency
import RubicaBot.Transition

/-!
# RubicaBot.Dedup

`app/utils/dedup.py`: the `Deduplicator`, a dictionary from keys to the time of
their admission that forgets expired keys lazily, on whatever call comes next.

`Tracks` is its abstraction: the dictionary is, as a lookup function, what is
`Recency.recent` in the log of admissions (the calls answered `False`).  Every
fact about the answers of `seen` follows from it.
-/

namespace RubicaBot

open Recency

/-- A reading of `time.monotonic()`, in seconds.  The difference of two is exact here; the
code subtracts doubles, and rounds it. -/
abbrev Instant := ℚ

/-- A Python `dict` (unique keys carried as a proof). -/
abbrev Dict (κ : Type) (ν : Type) := AList fun _ : κ => ν

/-- `Deduplicator`: the keys it has seen, each with the time it was seen first. -/
structure Deduplicator where
  ttlSeconds : ℚ
  cache : Dict String Instant := ∅

namespace Deduplicator

/-- The keys `seen` finds expired at `now`. -/
def expired (d : Deduplicator) (now : Instant) : List String :=
  (d.cache.entries.filter fun e => decide (now - e.2 > d.ttlSeconds)).map Sigma.fst

/-- `for k in expired: self._cache.pop(k, None)`. -/
def purge (d : Deduplicator) (now : Instant) : Deduplicator :=
  { d with cache := (d.expired now).foldl (fun cache k => cache.erase k) d.cache }

/-- `Deduplicator.seen`: the answer and the deduplicator afterwards. -/
def seen (d : Deduplicator) (key : Option String) (now : Instant) : Bool × Deduplicator :=
  match key with
  | none => (false, d)
  | some k =>
      if k ∈ (d.purge now).cache then (true, d.purge now)
      else (false, { d.purge now with cache := (d.purge now).cache.insert k now })

/-! ## what one call does to the dictionary -/

@[simp] theorem purge_ttlSeconds (d : Deduplicator) (now : Instant) :
    (d.purge now).ttlSeconds = d.ttlSeconds := rfl

@[simp] theorem seen_ttlSeconds (d : Deduplicator) (key : Option String) (now : Instant) :
    (d.seen key now).2.ttlSeconds = d.ttlSeconds := by
  cases key with
  | none => rfl
  | some k => simp only [seen]; split <;> rfl

/-- The keys of a list are erased, and no others. -/
theorem lookup_foldl_erase (ks : List String) (cache : Dict String Instant) (k : String) :
    (ks.foldl (fun cache k => cache.erase k) cache).lookup k =
      if k ∈ ks then none else cache.lookup k := by
  induction ks generalizing cache with
  | nil => simp
  | cons k' ks ih =>
      rw [List.foldl_cons, ih]
      by_cases hk : k = k'
      · subst hk; simp
      · simp [hk, AList.lookup_erase_ne hk]

/-- A key is expired exactly when its entry is older than the lifetime. -/
theorem mem_expired_iff (d : Deduplicator) (now : Instant) (k : String) :
    k ∈ d.expired now ↔ ∃ t, d.cache.lookup k = some t ∧ d.ttlSeconds < now - t := by
  constructor
  · intro h
    obtain ⟨⟨k', t⟩, he, rfl⟩ := List.mem_map.mp h
    obtain ⟨hmem, hage⟩ := List.mem_filter.mp he
    exact ⟨t, AList.mem_lookup_iff.mpr hmem, by simpa using hage⟩
  · rintro ⟨t, ht, hage⟩
    have hmem : (⟨k, t⟩ : Sigma fun _ : String => Instant) ∈ d.cache.entries :=
      AList.mem_lookup_iff.mp ht
    exact List.mem_map.mpr ⟨⟨k, t⟩, List.mem_filter.mpr ⟨hmem, by simpa using hage⟩, rfl⟩

/-- Purging keeps exactly the entries that are at most the lifetime old. -/
theorem lookup_purge (d : Deduplicator) (now : Instant) (k : String) :
    (d.purge now).cache.lookup k =
      (d.cache.lookup k).filter fun t => decide (now - t ≤ d.ttlSeconds) := by
  rw [purge, lookup_foldl_erase]
  cases h : d.cache.lookup k with
  | none => simp
  | some t =>
      have hmem : k ∈ d.expired now ↔ d.ttlSeconds < now - t := by
        rw [mem_expired_iff, h]
        simp
      by_cases hage : now - t ≤ d.ttlSeconds
      · rw [if_neg (by rw [hmem]; exact not_lt.mpr hage)]
        simp [Option.filter, hage]
      · rw [if_pos (hmem.mpr (not_le.mp hage))]
        simp [Option.filter, hage]

/-- A key is a duplicate if it has outlived the purge. -/
theorem seen_some_fst (d : Deduplicator) (k : String) (now : Instant) :
    (d.seen (some k) now).1 = ((d.purge now).cache.lookup k).isSome := by
  simp only [seen]
  split
  · next h => exact (AList.lookup_isSome.mpr h).symm
  · next h => rw [AList.lookup_eq_none.mpr h]; rfl

/-- A duplicate only triggers the purge. -/
theorem seen_of_true {d : Deduplicator} {k : String} {now : Instant}
    (h : (d.seen (some k) now).1 = true) : (d.seen (some k) now).2 = d.purge now := by
  have hmem : k ∈ (d.purge now).cache := by
    rw [seen_some_fst] at h
    exact AList.lookup_isSome.mp h
  simp only [seen, if_pos hmem]

/-- A fresh key is admitted: purged, then entered at `now`. -/
theorem seen_of_false {d : Deduplicator} {k : String} {now : Instant}
    (h : (d.seen (some k) now).1 = false) :
    (d.seen (some k) now).2.cache = (d.purge now).cache.insert k now := by
  have hmem : k ∉ (d.purge now).cache := by
    rw [seen_some_fst, Option.isSome_eq_false_iff, Option.isNone_iff_eq_none] at h
    exact AList.lookup_eq_none.mp h
  simp only [seen, if_neg hmem]

/-- A call leaves the entry of another key as the purge does. -/
theorem lookup_seen_of_ne (d : Deduplicator) {k k' : String} (hne : k' ≠ k) (now : Instant) :
    (d.seen (some k) now).2.cache.lookup k' = (d.purge now).cache.lookup k' := by
  cases hans : (d.seen (some k) now).1 with
  | true => rw [seen_of_true hans]
  | false => rw [seen_of_false hans, AList.lookup_insert_ne hne]

/-- **Frame.**  The answer for a key does not depend on an earlier call for
another one. -/
theorem seen_after_other (d : Deduplicator) {k k' : String} (hne : k' ≠ k) {now now' : Instant}
    (hnow : now ≤ now') :
    ((d.seen (some k) now).2.seen (some k') now').1 = (d.seen (some k') now').1 := by
  rw [seen_some_fst, seen_some_fst, lookup_purge, lookup_seen_of_ne d hne, lookup_purge,
    lookup_purge, seen_ttlSeconds, Option.filter_filter]
  congr 2
  funext t
  have hage : now' - t ≤ d.ttlSeconds → now - t ≤ d.ttlSeconds := by
    intro h
    linarith
  simpa using hage

/-! ## the dictionary is what is recent in the log of admissions -/

/-- `d` answers for the admissions `log` (newest first), the last call having
been made at `now`. -/
structure Tracks (d : Deduplicator) (log : List (String × Instant)) (now : Instant) : Prop where
  sorted : Sorted log
  bounded : ∀ e ∈ log, e.2 ≤ now
  lookup : ∀ k, d.cache.lookup k = recent d.ttlSeconds now log k

/-- No key has been seen yet. -/
theorem tracks_empty (ttl : ℚ) (now : Instant) : Tracks { ttlSeconds := ttl } [] now where
  sorted := List.Pairwise.nil
  bounded := by simp
  lookup k := by simp

/-- The admissions after one more call. -/
def logAfter (d : Deduplicator) (log : List (String × Instant)) (k : String) (now : Instant) :
    List (String × Instant) :=
  if (d.seen (some k) now).1 then log else (k, now) :: log

/-- A purge takes only what has expired. -/
theorem Tracks.purge {d : Deduplicator} {log : List (String × Instant)} {t now : Instant}
    (h : d.Tracks log t) (ht : t ≤ now) : (d.purge now).Tracks log now where
  sorted := h.sorted
  bounded e he := (h.bounded e he).trans ht
  lookup k := by rw [lookup_purge, h.lookup, recent_recent ht, purge_ttlSeconds]

/-- **Step lemma.**  A call at a later time tracks the log it extends. -/
theorem Tracks.seen {d : Deduplicator} {log : List (String × Instant)} {t now : Instant}
    (httl : 0 ≤ d.ttlSeconds) (h : d.Tracks log t) (ht : t ≤ now) (k : String) :
    (d.seen (some k) now).2.Tracks (d.logAfter log k now) now := by
  have hp := h.purge ht
  cases hans : (d.seen (some k) now).1 with
  | true => simpa only [logAfter, hans, if_true, seen_of_true hans] using hp
  | false =>
      have hlog : d.logAfter log k now = (k, now) :: log := by simp [logAfter, hans]
      rw [hlog]
      refine ⟨hp.sorted.cons hp.bounded, ?_, ?_⟩
      · intro e he
        rcases List.mem_cons.mp he with rfl | hmem
        · exact le_refl _
        · exact hp.bounded e hmem
      · intro k'
        rw [seen_of_false hans, seen_ttlSeconds]
        by_cases hk : k' = k
        · subst hk
          rw [AList.lookup_insert, recent_cons_self httl]
        · rw [AList.lookup_insert_ne hk, recent_cons_ne (Ne.symm hk), hp.lookup,
            purge_ttlSeconds]

/-- The answer is `True` exactly when some admission of the key is at most the
lifetime old. -/
theorem Tracks.seen_iff {d : Deduplicator} {log : List (String × Instant)} {t now : Instant}
    (h : d.Tracks log t) (ht : t ≤ now) (k : String) :
    (d.seen (some k) now).1 = true ↔ ∃ t₀, (k, t₀) ∈ log ∧ now - t₀ ≤ d.ttlSeconds := by
  have hp := h.purge ht
  rw [seen_some_fst, hp.lookup, recent_isSome_iff hp.sorted, purge_ttlSeconds]

/-- A fresh key's earlier admissions are all more than the lifetime old. -/
theorem Tracks.lt_of_fresh {d : Deduplicator} {log : List (String × Instant)} {t now : Instant}
    (h : d.Tracks log t) (ht : t ≤ now) {k : String} (hans : (d.seen (some k) now).1 = false)
    {s : Instant} (hmem : (k, s) ∈ log) : d.ttlSeconds < now - s := by
  by_contra hle
  have htrue := (h.seen_iff ht k).mpr ⟨s, hmem, not_lt.mp hle⟩
  rw [hans] at htrue
  contradiction

/-! ## sequences of calls -/

/-- One call of `seen`, with its clock reading and its answer. -/
structure SeenCall where
  key : String
  time : Instant
  answer : Bool

/-- Make one more call; the history is kept newest first. -/
def observe (s : Deduplicator × List SeenCall) (call : String × Instant) :
    Deduplicator × List SeenCall :=
  let (answer, d) := s.1.seen (some call.1) call.2
  (d, ⟨call.1, call.2, answer⟩ :: s.2)

/-- `Deduplicator(ttl)` after a sequence of calls, and their history. -/
def observeAll (ttl : ℚ) (calls : List (String × Instant)) : Deduplicator × List SeenCall :=
  calls.foldl observe ({ ttlSeconds := ttl }, [])

/-- The calls answered `False`, as stamped keys. -/
def admissions (history : List SeenCall) : List (String × Instant) :=
  history.filterMap fun c => if c.answer then none else some (c.key, c.time)

/-- Clock readings never decrease. -/
def NonDecreasing (calls : List (String × Instant)) : Prop :=
  calls.Pairwise fun c c' => c.2 ≤ c'.2

instance (calls : List (String × Instant)) : Decidable (NonDecreasing calls) :=
  inferInstanceAs (Decidable (calls.Pairwise _))

/-- The calls that were told it is new. -/
theorem mem_admissions_iff {history : List SeenCall} {k : String} {t : Instant} :
    (k, t) ∈ admissions history ↔ ⟨k, t, false⟩ ∈ history := by
  simp only [admissions, List.mem_filterMap]
  constructor
  · rintro ⟨⟨k', t', answer⟩, hmem, heq⟩
    cases answer <;> simp_all
  · intro hmem
    exact ⟨⟨k, t, false⟩, hmem, rfl⟩

/-- One more call. -/
theorem observeAll_append (ttl : ℚ) (calls : List (String × Instant))
    (call : String × Instant) :
    observeAll ttl (calls ++ [call]) = observe (observeAll ttl calls) call := by
  simp [observeAll]

/-- One more call extends the admissions by `logAfter`. -/
theorem admissions_observe (s : Deduplicator × List SeenCall) (k : String) (t : Instant) :
    admissions (observe s (k, t)).2 = s.1.logAfter (admissions s.2) k t := by
  cases hans : (s.1.seen (some k) t).1 <;> simp [observe, admissions, logAfter, hans]

@[simp] theorem observeAll_ttlSeconds (ttl : ℚ) (calls : List (String × Instant)) :
    (observeAll ttl calls).1.ttlSeconds = ttl := by
  induction calls using List.reverseRecOn with
  | nil => rfl
  | append_singleton calls call ih => simp [observeAll_append, observe, ih]

/-- **Run lemma.**  After any sequence of calls at non-decreasing times the
dictionary tracks the calls that were answered `False`. -/
theorem tracks_observeAll {ttl : ℚ} (httl : 0 ≤ ttl) {calls : List (String × Instant)}
    (hcalls : NonDecreasing calls) {t : Instant} (ht : ∀ c ∈ calls, c.2 ≤ t) :
    ∃ t' ≤ t, (observeAll ttl calls).1.Tracks (admissions (observeAll ttl calls).2) t' := by
  induction calls using List.reverseRecOn generalizing t with
  | nil => exact ⟨t, le_refl t, tracks_empty ttl t⟩
  | append_singleton calls call ih =>
      obtain ⟨k, u⟩ := call
      obtain ⟨hsorted, -, hlast⟩ := List.pairwise_append.mp hcalls
      obtain ⟨t', ht', htracks⟩ := ih hsorted (t := u) (fun c hc => hlast c hc (k, u) (by simp))
      refine ⟨u, ht (k, u) (by simp), ?_⟩
      rw [observeAll_append, admissions_observe]
      exact htracks.seen (by rw [observeAll_ttlSeconds]; exact httl) ht' k

end Deduplicator

end RubicaBot
