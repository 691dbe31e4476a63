import RubicaBot.Cache
import RubicaBot.Recency
import RubicaBot.Simulation

/-!
# RubicaBot.Cache.Eviction

The `LruTtlCache` over time: what `get` returns, and when it does.

Two orders are at work.  The dictionary is in the order of the last touch, a `set` or
a hit; the stamps are those of the last `set`, and a hit does not renew them.
`Recalls` relates the dictionary to the calls so far.  What is not in it, although
nobody has undone it and it has not expired, has been evicted, and so many other keys
have been touched since (`TouchOrder.Ordered.length_le`).
-/

namespace RubicaBot

open Transition TouchOrder

/-- The methods of `LruTtlCache`. -/
inductive CacheOp (κ ν : Type) where
  | get (key : κ)
  | set (key : κ) (value : ν)
  | invalidate (key : κ)
  | clear

/-- An operation, and `time.monotonic()` when it is called. -/
structure CacheCall (κ ν : Type) where
  time : Instant
  op : CacheOp κ ν

/-- The operation replaces or removes what was set for the key. -/
def CacheOp.Undoes {κ ν : Type} (key : κ) : CacheOp κ ν → Prop
  | .get _ => False
  | .set key' _ => key' = key
  | .invalidate key' => key' = key
  | .clear => True

instance CacheOp.Undoes.decidable {κ ν : Type} [DecidableEq κ] (key : κ) :
    (op : CacheOp κ ν) → Decidable (op.Undoes key)
  | .get _ => isFalse id
  | .set key' _ => inferInstanceAs (Decidable (key' = key))
  | .invalidate key' => inferInstanceAs (Decidable (key' = key))
  | .clear => isTrue trivial

/-- The last `set` of the key is this one, and nothing has undone it. -/
def Stored {κ ν : Type} (calls : List (CacheCall κ ν)) (key : κ) (ts : Instant) (value : ν) :
    Prop :=
  ∃ earlier later, calls = earlier ++ ⟨ts, .set key value⟩ :: later ∧
    ∀ c ∈ later, ¬ c.op.Undoes key

/-- The key that a call with this answer touches: that of a `set` or of a hit. -/
def CacheCall.touched? {κ ν : Type} : CacheCall κ ν × Option ν → Option κ
  | (⟨_, .set key _⟩, _) => some key
  | (⟨_, .get key⟩, some _) => some key
  | _ => none

/-- The keys touched, in order. -/
def touches {κ ν : Type} (log : List (CacheCall κ ν × Option ν)) : List κ :=
  log.filterMap CacheCall.touched?

section Stored

variable {κ ν : Type} {calls : List (CacheCall κ ν)} {c : CacheCall κ ν} {key : κ} {ts : Instant}
  {value : ν}

/-- The last call has set it, or has not undone it. -/
theorem stored_append_iff : Stored (calls ++ [c]) key ts value ↔
    c = ⟨ts, .set key value⟩ ∨ Stored calls key ts value ∧ ¬ c.op.Undoes key := by
  constructor
  · intro h
    obtain ⟨earlier, later, hcalls, hlater⟩ := h
    rcases List.eq_nil_or_concat later with rfl | ⟨later, d, rfl⟩
    · exact .inl (List.append_inj_right' hcalls rfl |> List.singleton_inj.mp)
    · rw [List.concat_eq_append, ← List.cons_append, ← List.append_assoc] at hcalls
      obtain ⟨hbefore, hd⟩ := List.append_inj' hcalls rfl
      obtain rfl := List.singleton_inj.mp hd
      exact .inr ⟨⟨earlier, later, hbefore, fun c' hc' => hlater c' (by simp [hc'])⟩,
        hlater c (by simp)⟩
  · intro h
    obtain rfl | ⟨⟨earlier, later, hcalls, hlater⟩, hc⟩ := h
    · exact ⟨calls, [], rfl, nofun⟩
    · refine ⟨earlier, later ++ [c], by simp [hcalls], fun c' hc' => ?_⟩
      obtain hc' | hc' := List.mem_append.mp hc'
      · exact hlater c' hc'
      · rw [List.mem_singleton.mp hc']
        exact hc

/-- There is one last `set`. -/
theorem Stored.unique {ts' : Instant} {value' : ν} (h : Stored calls key ts value)
    (h' : Stored calls key ts' value') : ts = ts' ∧ value = value' := by
  induction calls using List.reverseRecOn with
  | nil =>
      obtain ⟨earlier, later, hcalls, -⟩ := h
      simp at hcalls
  | append_singleton calls c ih =>
      obtain rfl | ⟨h, hc⟩ := stored_append_iff.mp h <;>
        obtain heq | ⟨h', hc'⟩ := stored_append_iff.mp h'
      · cases heq
        exact ⟨rfl, rfl⟩
      · exact absurd rfl hc'
      · subst heq
        exact absurd rfl hc
      · exact ih h h'

end Stored

namespace LruTtlCache

variable {κ ν : Type} [DecidableEq κ]

/-- One call: the answer of `get`, and the cache afterwards. -/
def perform (cache : LruTtlCache κ ν) (c : CacheCall κ ν) : Option ν × LruTtlCache κ ν :=
  match c.op with
  | .get key => cache.get key c.time
  | .set key value => (none, cache.set key value c.time)
  | .invalidate key => (none, cache.invalidate key)
  | .clear => (none, cache.clear)

/-- The cache as a machine. -/
def call (cache : LruTtlCache κ ν) (c : CacheCall κ ν) : Option (Option ν × LruTtlCache κ ν) :=
  some (cache.perform c)

/-! ## shrinking -/

omit [DecidableEq κ] in
/-- The least recent key goes. -/
theorem keys_popOldest (data : Dict κ (Instant × ν)) : (popOldest data).keys = data.keys.dropLast :=
  List.map_dropLast

omit [DecidableEq κ] in
/-- Each entry has its key. -/
theorem keys_length (data : Dict κ (Instant × ν)) : data.keys.length = data.entries.length :=
  List.length_map _

omit [DecidableEq κ] in
/-- What shrinking leaves, and what it evicts. -/
theorem shrink_spec {maxSize : Int} (hmax : 0 ≤ maxSize) {fuel : Nat} {data : Dict κ (Instant × ν)}
    (hfuel : data.keys.length ≤ fuel) :
    ∃ evicted, data.keys = (shrink maxSize fuel data).keys ++ evicted ∧
      ((shrink maxSize fuel data).keys.length : Int) ≤ maxSize ∧
      (evicted ≠ [] → ((shrink maxSize fuel data).keys.length : Int) = maxSize) := by
  induction fuel generalizing data with
  | zero => exact ⟨[], by simp [shrink], by simp only [shrink]; omega, fun h => absurd rfl h⟩
  | succ fuel ih =>
      unfold shrink
      split
      · next hfull =>
          rw [← keys_length] at hfull
          have hpop := keys_popOldest data
          have hshort : (popOldest data).keys.length ≤ fuel := by
            rw [hpop, List.length_dropLast]
            omega
          obtain ⟨evicted, hkeys, hsize, hexact⟩ := ih hshort
          obtain ⟨keys, key, hlast⟩ := (List.eq_nil_or_concat data.keys).resolve_left (by
            intro hnil
            rw [hnil] at hfull
            simp at hfull
            omega)
          rw [List.concat_eq_append] at hlast
          rw [hpop, hlast, List.dropLast_concat] at hkeys
          refine ⟨evicted ++ [key], by rw [hlast, hkeys, List.append_assoc], hsize, fun _ => ?_⟩
          by_cases hnone : evicted = []
          · subst hnone
            rw [List.append_nil] at hkeys
            rw [hlast, hkeys, List.length_append, List.length_singleton] at hfull
            omega
          · exact hexact hnone
      · next hroom =>
          rw [← keys_length] at hroom
          exact ⟨[], by simp, by omega, fun h => absurd rfl h⟩

/-- A key that shrinking leaves keeps its entry. -/
theorem lookup_shrink_of_mem {maxSize : Int} {fuel : Nat} {data : Dict κ (Instant × ν)} {key : κ}
    (h : key ∈ (shrink maxSize fuel data).keys) :
    (shrink maxSize fuel data).lookup key = data.lookup key := by
  obtain ⟨entry, hentry⟩ := Option.isSome_iff_exists.mp (AList.lookup_isSome.mpr h)
  rw [hentry, lookup_shrink hentry]

omit [DecidableEq κ] in
/-- Nothing goes while there is room. -/
theorem shrink_of_le {maxSize : Int} {fuel : Nat} {data : Dict κ (Instant × ν)}
    (h : (data.keys.length : Int) ≤ maxSize) : shrink maxSize fuel data = data := by
  cases fuel with
  | zero => rfl
  | succ fuel =>
      rw [keys_length] at h
      exact if_neg (by omega)

/-- A key that is evicted has fallen behind as many others as there is room for. -/
theorem lookup_shrink_or {maxSize : Int} (hmax : 0 ≤ maxSize) {data : Dict κ (Instant × ν)}
    {log : List κ} (hord : Ordered log data.keys) {key : κ} (hkey : key ∈ data.keys) :
    (shrink maxSize data.entries.length data).lookup key = data.lookup key ∨
      maxSize ≤ (others key log).card := by
  obtain ⟨evicted, hkeys, -, hexact⟩ := shrink_spec hmax (Nat.le_of_eq (keys_length data))
  rw [hkeys] at hkey
  obtain hkept | hevicted := List.mem_append.mp hkey
  · exact .inl (lookup_shrink_of_mem hkept)
  · obtain ⟨before, after, rfl⟩ := List.append_of_mem hevicted
    have hfull := hexact (by simp)
    -- the keys up to this one are those that are kept, and some that are evicted
    have hsub : ((shrink maxSize data.entries.length data).keys ++ before ++ [key]).Sublist
        data.keys := by
      rw [hkeys, List.append_assoc]
      exact (List.prefix_append_right_inj _).mpr
        (List.prefix_append_right_inj _ |>.mpr ⟨after, rfl⟩) |>.sublist
    have hnodup := (data.keys_nodup.sublist hsub).sublist (List.sublist_append_left _ _)
    have hle := (hord.sublist hsub).length_le hnodup
    rw [List.length_append] at hle
    exact .inr (by omega)

/-! ## what the cache recalls -/

/-- The dictionary is what is left of the calls, of which `log` are the touches: it is
in the order of touches, it has only what was stored, and it has all of that which is
not too old and has not fallen behind too many others. -/
structure Recalls (cache : LruTtlCache κ ν) (maxSize : Int) (ttlSeconds : ℚ) (now : Instant)
    (calls : List (CacheCall κ ν)) (log : List κ) : Prop where
  maxSize_eq : cache.maxSize = maxSize
  ttlSeconds_eq : cache.ttlSeconds = ttlSeconds
  size : (cache.data.keys.length : Int) ≤ maxSize
  order : Ordered log cache.data.keys
  sound : ∀ key ts value, cache.data.lookup key = some (ts, value) → Stored calls key ts value
  complete : ∀ key ts value, Stored calls key ts value → now - ts ≤ ttlSeconds →
    cache.data.lookup key = some (ts, value) ∨ maxSize ≤ (others key log).card

namespace Recalls

variable {cache : LruTtlCache κ ν} {maxSize : Int} {ttlSeconds : ℚ} {now : Instant}
  {calls : List (CacheCall κ ν)} {log : List κ} {key : κ} {ts : Instant} {value : ν}

/-- Time passes; what has expired is still to be dropped. -/
theorem later (h : cache.Recalls maxSize ttlSeconds now calls log) {now' : Instant}
    (hle : now ≤ now') : cache.Recalls maxSize ttlSeconds now' calls log :=
  { h with
    complete := fun key ts value hstored hage =>
      h.complete key ts value hstored ((sub_le_sub_right hle ts).trans hage) }

/-- Removing entries that are undone or too old. -/
theorem erase (h : cache.Recalls maxSize ttlSeconds now calls log) {c : CacheCall κ ν}
    (hundoes : ∀ key', key' ≠ key → ¬ c.op.Undoes key')
    (hset : ∀ key' value', c.op ≠ .set key' value')
    (hgone : ∀ ts value, Stored (calls ++ [c]) key ts value → now - ts ≤ ttlSeconds →
      maxSize ≤ (others key log).card) :
    ({ cache with data := cache.data.erase key } : LruTtlCache κ ν).Recalls maxSize ttlSeconds now
      (calls ++ [c]) log where
  maxSize_eq := h.maxSize_eq
  ttlSeconds_eq := h.ttlSeconds_eq
  size := by
    have hsub := List.erase_sublist (a := key) (l := cache.data.keys)
    have hle := hsub.length_le
    have hsize := h.size
    rw [AList.keys_erase]
    omega
  order := by
    rw [AList.keys_erase]
    exact h.order.sublist List.erase_sublist
  sound := fun key' ts value hl => by
    by_cases hk : key' = key
    · rw [hk, AList.lookup_erase] at hl
      cases hl
    · rw [AList.lookup_erase_ne hk] at hl
      exact stored_append_iff.mpr (.inr ⟨h.sound key' ts value hl, hundoes key' hk⟩)
  complete := fun key' ts value hstored hage => by
    by_cases hk : key' = key
    · subst hk
      exact .inr (hgone ts value hstored hage)
    · rw [AList.lookup_erase_ne hk]
      obtain rfl | ⟨hstored, -⟩ := stored_append_iff.mp hstored
      · exact absurd rfl (hset key' value)
      · exact h.complete key' ts value hstored hage

/-- A touch puts the entry at the head and evicts from the end. -/
theorem touch (h : cache.Recalls maxSize ttlSeconds now calls log) (hmax : 0 ≤ maxSize)
    {c : CacheCall κ ν} (hown : Stored (calls ++ [c]) key ts value)
    (hundoes : ∀ key', key' ≠ key → ¬ c.op.Undoes key')
    (hset : ∀ key' value', c.op = .set key' value' → key' = key) :
    ({ cache with
        data := shrink maxSize (cache.data.insert key (ts, value)).entries.length
          (cache.data.insert key (ts, value)) } : LruTtlCache κ ν).Recalls maxSize ttlSeconds now
      (calls ++ [c]) (log ++ [key]) := by
  have hord : Ordered (log ++ [key]) (cache.data.insert key (ts, value)).keys := by
    rw [AList.keys_insert]
    exact h.order.touch cache.data.keys_nodup key
  obtain ⟨evicted, hkeys, hsize, -⟩ := shrink_spec hmax
    (Nat.le_of_eq (keys_length (cache.data.insert key (ts, value))))
  refine ⟨h.maxSize_eq, h.ttlSeconds_eq, hsize,
    hord.sublist (hkeys ▸ List.sublist_append_left _ _), ?_, ?_⟩
  · intro key' ts' value' hl
    have hl := lookup_shrink hl
    by_cases hk : key' = key
    · subst hk
      rw [AList.lookup_insert] at hl
      cases hl
      exact hown
    · rw [AList.lookup_insert_ne hk] at hl
      exact stored_append_iff.mpr (.inr ⟨h.sound key' ts' value' hl, hundoes key' hk⟩)
  · intro key' ts' value' hstored hage
    by_cases hk : key' = key
    · subst hk
      obtain ⟨rfl, rfl⟩ := hown.unique hstored
      have hin : key' ∈ cache.data.insert key' (ts, value) := AList.mem_insert _ |>.mpr (.inl rfl)
      have hor := lookup_shrink_or hmax hord hin
      rwa [AList.lookup_insert] at hor
    · obtain rfl | ⟨hstored, -⟩ := stored_append_iff.mp hstored
      · exact absurd (hset key' value' rfl) hk
      · obtain hl | hmany := h.complete key' ts' value' hstored hage
        · have hin : (cache.data.insert key (ts, value)).lookup key' = some (ts', value') :=
            (AList.lookup_insert_ne hk).trans hl
          have hor := lookup_shrink_or hmax hord
            (AList.lookup_isSome.mp (Option.isSome_of_mem hin))
          rwa [hin] at hor
        · have hgrow := Finset.card_le_card (others_subset_append (Ne.symm hk) log)
          exact .inr (by omega)

/-- One call: the log goes on with the key that it touches. -/
theorem step (h : cache.Recalls maxSize ttlSeconds now calls log) (hmax : 0 ≤ maxSize)
    {c : CacheCall κ ν} (hnow : now ≤ c.time) :
    (cache.perform c).2.Recalls maxSize ttlSeconds c.time (calls ++ [c])
      (log ++ (CacheCall.touched? (c, (cache.perform c).1)).toList) := by
  replace h := h.later hnow
  obtain ⟨time, op⟩ := c
  cases op with
  | get key =>
      have hkeep : ∀ key' ts' value', Stored (calls ++ [⟨time, .get key⟩]) key' ts' value' ↔
          Stored calls key' ts' value' := fun key' ts' value' =>
        stored_append_iff.trans ⟨fun h => h.elim (fun h => absurd h (by simp)) And.left,
          fun h => .inr ⟨h, id⟩⟩
      simp only [perform, LruTtlCache.get]
      cases hl : cache.data.lookup key with
      | none =>
          simp only [CacheCall.touched?, Option.toList_none, List.append_nil]
          exact { h with
            sound := fun key' ts' value' hl => (hkeep _ _ _).mpr (h.sound key' ts' value' hl)
            complete := fun key' ts' value' hstored =>
              h.complete key' ts' value' ((hkeep _ _ _).mp hstored) }
      | some entry =>
          obtain ⟨ts, value⟩ := entry
          have hstored := h.sound key ts value hl
          by_cases hold : time - ts > cache.ttlSeconds
          · simp only [if_pos hold, CacheCall.touched?, Option.toList_none, List.append_nil]
            refine h.erase (fun _ _ => id) (fun _ _ => by simp) fun ts' value' hstored' hage => ?_
            obtain ⟨rfl, -⟩ := hstored.unique ((hkeep _ _ _).mp hstored')
            rw [h.ttlSeconds_eq] at hold
            exact absurd hage (not_le.mpr hold)
          · simp only [if_neg hold, CacheCall.touched?, Option.toList_some]
            have htouch := h.touch hmax ((hkeep _ _ _).mpr hstored) (fun _ _ => id)
              fun key' value' heq => by simp at heq
            have hsize : ((cache.data.insert key (ts, value)).keys.length : Int) ≤ maxSize := by
              rw [AList.keys_insert, (List.perm_cons_erase
                (AList.lookup_isSome.mp (Option.isSome_of_mem hl))).symm.length_eq]
              exact h.size
            rwa [shrink_of_le hsize] at htouch
  | set key value =>
      have htouch := h.touch hmax (c := ⟨time, .set key value⟩)
        (stored_append_iff.mpr (.inl rfl)) (fun key' hk heq => hk heq.symm)
        fun key' value' heq => by cases heq; rfl
      rw [← h.maxSize_eq] at htouch ⊢
      exact htouch
  | invalidate key =>
      simp only [perform, invalidate, CacheCall.touched?, Option.toList_none, List.append_nil]
      refine h.erase (fun key' hk heq => hk heq.symm) (fun _ _ => by simp)
        fun ts value hstored _ => ?_
      obtain heq | ⟨-, hnot⟩ := stored_append_iff.mp hstored
      · cases heq
      · exact absurd rfl hnot
  | clear =>
      simp only [perform, clear, CacheCall.touched?, Option.toList_none, List.append_nil]
      refine ⟨h.maxSize_eq, h.ttlSeconds_eq, hmax, List.Pairwise.nil, ?_, ?_⟩
      · intro key ts value hl
        rw [AList.lookup_empty] at hl
        cases hl
      · intro key ts value hstored _
        obtain heq | ⟨-, hnot⟩ := stored_append_iff.mp hstored
        · cases heq
        · exact absurd trivial hnot

end Recalls

/-- The empty cache recalls that nothing was called. -/
theorem recalls_new {maxSize ttlSeconds : Int} (hmax : 1 ≤ maxSize) (httl : 1 ≤ ttlSeconds)
    (now : Instant) :
    (new maxSize ttlSeconds : LruTtlCache κ ν).Recalls maxSize ttlSeconds now [] [] where
  maxSize_eq := max_eq_right hmax
  ttlSeconds_eq := by rw [new, max_eq_right httl]
  size := by
    have hempty : (new maxSize ttlSeconds : LruTtlCache κ ν).data.keys.length = 0 := rfl
    omega
  order := List.Pairwise.nil
  sound := fun key ts value hl => by
    rw [new, AList.lookup_empty] at hl
    cases hl
  complete := fun key ts value hstored _ => by
    obtain ⟨earlier, later, hcalls, -⟩ := hstored
    simp at hcalls

/-! ## a whole run -/

section Run

variable {maxSize ttlSeconds : Int} {calls : List (CacheCall κ ν)} {now : Instant}

/-- The keys touched in a run that starts with an empty cache. -/
def touchesOf (maxSize ttlSeconds : Int) (calls : List (CacheCall κ ν)) : List κ :=
  touches (transcript call (new maxSize ttlSeconds) calls)

/-- The induction is on the calls from the last one on. -/
theorem exists_recalls (hmax : 1 ≤ maxSize) (httl : 1 ≤ ttlSeconds)
    (hsorted : calls.Pairwise fun c c' => c.time ≤ c'.time) (hpast : ∀ c ∈ calls, c.time ≤ now) :
    ∃ cache, run (next call) (new maxSize ttlSeconds) calls = some cache ∧
      cache.Recalls maxSize ttlSeconds now calls (touchesOf maxSize ttlSeconds calls) := by
  induction calls using List.reverseRecOn generalizing now with
  | nil => exact ⟨_, rfl, recalls_new hmax httl now⟩
  | append_singleton calls c ih =>
      obtain ⟨hcalls, -, hle⟩ := List.pairwise_append.mp hsorted
      obtain ⟨cache, hrun, h⟩ := ih hcalls fun c' hc' => hle c' hc' c List.mem_cons_self
      have hcall : call cache c = some ((cache.perform c).1, (cache.perform c).2) := rfl
      have hlog : touchesOf maxSize ttlSeconds (calls ++ [c]) =
          touchesOf maxSize ttlSeconds calls ++
            (CacheCall.touched? (c, (cache.perform c).1)).toList := by
        rw [touchesOf, transcript_append hrun, transcript_cons hcall, transcript_nil, touches,
          List.filterMap_append]
        cases hkey : CacheCall.touched? (c, (cache.perform c).1) with
        | none =>
            rw [List.filterMap_cons_none hkey]
            rfl
        | some key =>
            rw [List.filterMap_cons_some hkey]
            rfl
      refine ⟨(cache.perform c).2, ?_, ?_⟩
      · rw [run_append, hrun, Option.bind_some, run_cons, next_eq_some.mpr ⟨_, hcall⟩]
        rfl
      · rw [hlog]
        exact (h.step (by omega) le_rfl).later (hpast c (by simp))

/-- **What an LRU cache with expiry returns.**  It never has more entries than there is
room for.  `get` returns only what the last `set` of the key has stored, if nothing has
undone it and it is not too old; and it does return that, unless as many other keys have
been set or hit since the key was. -/
theorem lru_ttl_exact (hmax : 1 ≤ maxSize) (httl : 1 ≤ ttlSeconds)
    (hsorted : calls.Pairwise fun c c' => c.time ≤ c'.time) :
    ∃ cache, run (next call) (new maxSize ttlSeconds) calls = some cache ∧
      (cache.data.entries.length : Int) ≤ maxSize ∧
      ∀ key now, (∀ c ∈ calls, c.time ≤ now) →
        (∀ value, (cache.get key now).1 = some value →
          ∃ ts, Stored calls key ts value ∧ now - ts ≤ ttlSeconds) ∧
        (∀ ts value, Stored calls key ts value → now - ts ≤ ttlSeconds →
          (others key (touchesOf maxSize ttlSeconds calls)).card < maxSize →
          (cache.get key now).1 = some value) := by
  -- the time of the last call, or any time if there is none
  obtain ⟨last, hlast⟩ : ∃ last, ∀ c ∈ calls, c.time ≤ last := by
    induction calls using List.reverseRecOn with
    | nil => exact ⟨0, fun c hc => absurd hc List.not_mem_nil⟩
    | append_singleton calls c _ =>
        refine ⟨c.time, fun c' hc' => ?_⟩
        obtain hc' | hc' := List.mem_append.mp hc'
        · exact (List.pairwise_append.mp hsorted).2.2 c' hc' c List.mem_cons_self
        · exact le_of_eq (congrArg _ (List.mem_singleton.mp hc'))
  obtain ⟨cache, hrun, hrecalls⟩ := exists_recalls hmax httl hsorted hlast
  refine ⟨cache, hrun, by rw [← keys_length]; exact hrecalls.size, fun key now hpast => ?_⟩
  obtain ⟨cache', hrun', h⟩ := exists_recalls hmax httl hsorted hpast
  obtain rfl : cache = cache' := Option.some_inj.mp (hrun.symm.trans hrun')
  refine ⟨fun value hget => ?_, fun ts value hstored hage hfew => ?_⟩
  · unfold LruTtlCache.get at hget
    split at hget
    · cases hget
    · next ts value' hl =>
        split at hget
        · cases hget
        · next hfresh =>
            cases hget
            rw [h.ttlSeconds_eq] at hfresh
            exact ⟨ts, h.sound key ts value hl, not_lt.mp hfresh⟩
  · have hl := (h.complete key ts value hstored hage).resolve_right (not_le.mpr hfew)
    have hfresh : ¬ now - ts > cache.ttlSeconds := by
      rw [h.ttlSeconds_eq]
      exact not_lt.mpr hage
    simp only [LruTtlCache.get, hl, if_neg hfresh]

end Run

/-- With room for two, a hit on the older key makes the newer one go. -/
def hitBetween : List (CacheCall String Nat) :=
  [⟨0, .set "a" 1⟩, ⟨1, .set "b" 2⟩, ⟨2, .get "a"⟩, ⟨3, .set "c" 3⟩]

theorem lru_ttl_exact_hitBetween :
    ∃ cache, run (next call) (new 2 10) hitBetween = some cache ∧
      (cache.data.entries.length : Int) ≤ 2 ∧ (cache.get "a" 10).1 = some 1 := by
  have hsorted : hitBetween.Pairwise fun c c' => c.time ≤ c'.time := by decide +kernel
  obtain ⟨cache, hrun, hsize, hget⟩ :=
    lru_ttl_exact (show (1 : Int) ≤ 2 by decide) (show (1 : Int) ≤ 10 by decide) hsorted
  refine ⟨cache, hrun, hsize, (hget "a" 10 (by decide +kernel)).2 0 1 ?_ (by decide +kernel)
    (by decide +kernel)⟩
  exact ⟨[], hitBetween.tail, rfl, by decide +kernel⟩

end LruTtlCache

end RubicaBot
