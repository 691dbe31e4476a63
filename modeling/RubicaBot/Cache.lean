import RubicaBot.Dedup

/-!
# RubicaBot.Cache

`app/utils/cache.py`: the `LruTtlCache`.

The `OrderedDict` is an association list with the most recently used key at the
head, so `move_to_end` and a new key go to the head and `popitem(last=False)`
takes the last entry.

Whatever the clock says and whatever is evicted, the cache only forgets: `Holds P`
says that every entry satisfies `P`, and each operation keeps it.
-/

namespace RubicaBot

/-- `max_size` and `ttl_seconds` as the constructor stores them. -/
structure LruTtlCache (κ ν : Type) [DecidableEq κ] where
  maxSize : Int
  ttlSeconds : ℚ
  data : Dict κ (Instant × ν) := ∅

namespace LruTtlCache

variable {κ ν : Type} [DecidableEq κ]

/-- `LruTtlCache(max_size, ttl_seconds)`. -/
def new (maxSize ttlSeconds : Int) : LruTtlCache κ ν where
  maxSize := max 1 maxSize
  ttlSeconds := (max 1 ttlSeconds : Int)

/-- `get`. -/
def get (c : LruTtlCache κ ν) (key : κ) (now : Instant) : Option ν × LruTtlCache κ ν :=
  match c.data.lookup key with
  | none => (none, c)
  | some (ts, value) =>
      if now - ts > c.ttlSeconds then (none, { c with data := c.data.erase key })
      else (some value, { c with data := c.data.insert key (ts, value) })

/-- `popitem(last=False)`. -/
def popOldest (data : Dict κ (Instant × ν)) : Dict κ (Instant × ν) :=
  ⟨data.entries.dropLast, data.nodupKeys.sublist (List.dropLast_sublist _)⟩

/-- `while len(self._data) > self.max_size: …`; `fuel` bounds the iterations by
the number of entries. -/
def shrink (maxSize : Int) : Nat → Dict κ (Instant × ν) → Dict κ (Instant × ν)
  | 0, data => data
  | fuel + 1, data =>
      if maxSize < data.entries.length then shrink maxSize fuel (popOldest data) else data

/-- `set`. -/
def set (c : LruTtlCache κ ν) (key : κ) (value : ν) (now : Instant) : LruTtlCache κ ν :=
  let data := c.data.insert key (now, value)
  { c with data := shrink c.maxSize data.entries.length data }

/-- `invalidate`. -/
def invalidate (c : LruTtlCache κ ν) (key : κ) : LruTtlCache κ ν :=
  { c with data := c.data.erase key }

/-- `clear`. -/
def clear (c : LruTtlCache κ ν) : LruTtlCache κ ν := { c with data := ∅ }

/-! ## every entry satisfies -/

/-- Every key is cached with a value that satisfies `P`. -/
def Holds (P : κ → ν → Prop) (c : LruTtlCache κ ν) : Prop :=
  ∀ key ts value, c.data.lookup key = some (ts, value) → P key value

/-- There is nothing in a new cache. -/
theorem holds_new (P : κ → ν → Prop) (maxSize ttlSeconds : Int) :
    (new maxSize ttlSeconds).Holds P := by
  intro key ts value h
  simp [new] at h

/-- What `get` returns was cached. -/
theorem Holds.get_fst {P : κ → ν → Prop} {c : LruTtlCache κ ν} (h : c.Holds P) {key : κ}
    {now : Instant} {value : ν} (hget : (c.get key now).1 = some value) : P key value := by
  unfold get at hget
  split at hget
  · cases hget
  · next ts value' hl =>
      split at hget
      · cases hget
      · cases hget
        exact h key ts value hl

/-- `get` may drop a value and changes none. -/
theorem Holds.get {P : κ → ν → Prop} {c : LruTtlCache κ ν} (h : c.Holds P) (key : κ)
    (now : Instant) : (c.get key now).2.Holds P := by
  unfold LruTtlCache.get
  split
  · exact h
  · next ts value hl =>
      split
      · intro key' ts' value' hl'
        by_cases hk : key' = key
        · subst hk
          rw [AList.lookup_erase] at hl'
          cases hl'
        · rw [AList.lookup_erase_ne hk] at hl'
          exact h key' ts' value' hl'
      · intro key' ts' value' hl'
        by_cases hk : key' = key
        · subst hk
          rw [AList.lookup_insert] at hl'
          cases hl'
          exact h key' ts value hl
        · rw [AList.lookup_insert_ne hk] at hl'
          exact h key' ts' value' hl'

/-- Shrinking only drops entries. -/
theorem lookup_shrink {maxSize : Int} {fuel : Nat} {data : Dict κ (Instant × ν)} {key : κ}
    {entry : Instant × ν} (h : (shrink maxSize fuel data).lookup key = some entry) :
    data.lookup key = some entry := by
  induction fuel generalizing data with
  | zero => exact h
  | succ fuel ih =>
      unfold shrink at h
      split at h
      · have hpop := ih h
        exact AList.mem_lookup_iff.mpr
          ((List.dropLast_sublist _).subset (AList.mem_lookup_iff.mp hpop))
      · exact h

/-- A value of which it holds may be set. -/
theorem Holds.set {P : κ → ν → Prop} {c : LruTtlCache κ ν} (h : c.Holds P) {key : κ} {value : ν}
    (hvalue : P key value) (now : Instant) : (c.set key value now).Holds P := by
  intro key' ts' value' hl
  have hl' := lookup_shrink hl
  by_cases hk : key' = key
  · subst hk
    rw [AList.lookup_insert] at hl'
    cases hl'
    exact hvalue
  · rw [AList.lookup_insert_ne hk] at hl'
    exact h key' ts' value' hl'

/-- Once `key` is invalidated, only the other entries have to satisfy. -/
theorem Holds.invalidate {P Q : κ → ν → Prop} {c : LruTtlCache κ ν} (h : c.Holds P) (key : κ)
    (hPQ : ∀ key' value, key' ≠ key → P key' value → Q key' value) :
    (c.invalidate key).Holds Q := by
  intro key' ts value hl
  by_cases hk : key' = key
  · subst hk
    rw [LruTtlCache.invalidate, AList.lookup_erase] at hl
    cases hl
  · rw [LruTtlCache.invalidate, AList.lookup_erase_ne hk] at hl
    exact hPQ key' value hk (h key' ts value hl)

end LruTtlCache

end RubicaBot
