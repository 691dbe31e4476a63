import Mathlib.Algebra.Order.Group.Defs
import Mathlib.Algebra.Order.Sub.Basic
import Mathlib.Data.Finset.Card
import Mathlib.Data.List.Basic
import Mathlib.Data.List.DropRight
import Mathlib.Order.Defs.LinearOrder
import Mathlib.Tactic.Abel

/-!
# RubicaBot.Recency

Time-stamped logs and what is still recent in them, and lists of keys in the order
in which they were last touched.

A log is a list of stamped keys, newest first.  `last k log` is the stamp of the
newest entry of `k`, and `recent w now log k` is that stamp as long as it is at
most `w` old.  A store that forgets entries lazily — at the next access, whoever
makes it — is correct when its lookup function is `recent w now log`; the lemmas
below are what such a store's step proofs need:

* forgetting twice is forgetting at the later time (`recent_recent`);
* a key is recent exactly when *some* entry of it is (`recent_isSome_iff`),
  because stamps never decrease.

Keys are arbitrary and times live in any linearly ordered additive group.

A log of touches has no stamps: it is a list of keys, oldest first, and `since k log` is
what has been touched after the last touch of `k`.  A list of keys, the most recent at
the head, is `Ordered` when every key was touched after those behind it.  So each key has
at least as many others touched since as there are keys before it (`Ordered.length_le`),
which is what an eviction from the end costs.
-/

namespace Recency

variable {κ T : Type} [DecidableEq κ]

/-- The stamp of the newest entry of `k`. -/
def last (k : κ) (log : List (κ × T)) : Option T := (log.find? fun e => e.1 = k).map Prod.snd

/-- Stamps never decrease: the log, newest first, is sorted. -/
def Sorted [LE T] (log : List (κ × T)) : Prop := log.Pairwise fun e e' => e'.2 ≤ e.2

@[simp] theorem last_nil (k : κ) : last k ([] : List (κ × T)) = none := rfl

@[simp] theorem last_cons_self (k : κ) (t : T) (log : List (κ × T)) :
    last k ((k, t) :: log) = some t := by simp [last]

/-- An entry for another key does not matter. -/
theorem last_cons_ne {k k' : κ} (h : k' ≠ k) (t : T) (log : List (κ × T)) :
    last k ((k', t) :: log) = last k log := by simp [last, h]

/-- The newest stamp belongs to an entry of the log. -/
theorem mem_of_last {k : κ} {t : T} {log : List (κ × T)} (h : last k log = some t) :
    (k, t) ∈ log := by
  obtain ⟨e, he, rfl⟩ := Option.map_eq_some_iff.mp h
  have hk : e.1 = k := by simpa using List.find?_some he
  have hmem := List.mem_of_find?_eq_some he
  rwa [← hk]

/-- In a sorted log no entry of a key is newer than its `last`. -/
theorem le_last_of_mem [Preorder T] {k : κ} {t : T} {log : List (κ × T)} (hs : Sorted log)
    (h : (k, t) ∈ log) : ∃ t', last k log = some t' ∧ t ≤ t' := by
  induction log with
  | nil => simp at h
  | cons e log ih =>
      obtain ⟨k', u⟩ := e
      by_cases hk : k' = k
      · subst hk
        refine ⟨u, last_cons_self _ _ _, ?_⟩
        rcases List.mem_cons.mp h with heq | hmem
        · exact (Prod.mk.inj heq).2.le
        · exact (List.pairwise_cons.mp hs).1 _ hmem
      · have hmem : (k, t) ∈ log := by
          rcases List.mem_cons.mp h with heq | hmem
          · exact absurd (Prod.mk.inj heq).1.symm hk
          · exact hmem
        obtain ⟨t', ht', hle⟩ := ih (List.pairwise_cons.mp hs).2 hmem
        exact ⟨t', by rw [last_cons_ne hk, ht'], hle⟩

omit [DecidableEq κ] in
/-- Adding an entry that is not older than any other keeps the log sorted. -/
theorem Sorted.cons [LE T] {k : κ} {t : T} {log : List (κ × T)} (hs : Sorted log)
    (h : ∀ e ∈ log, e.2 ≤ t) : Sorted ((k, t) :: log) :=
  List.pairwise_cons.mpr ⟨h, hs⟩

/-! ## what is recent -/

variable [AddCommGroup T] [LinearOrder T]

/-- The newest stamp of `k`, while it is at most `w` old at `now`. -/
def recent (w now : T) (log : List (κ × T)) (k : κ) : Option T :=
  (last k log).filter fun t => decide (now - t ≤ w)

@[simp] theorem recent_nil (w now : T) (k : κ) : recent w now ([] : List (κ × T)) k = none := rfl

/-- The last entry, if it is not too old. -/
theorem recent_eq_some {w now t : T} {log : List (κ × T)} {k : κ} :
    recent w now log k = some t ↔ last k log = some t ∧ now - t ≤ w := by
  simp [recent, Option.filter_eq_some_iff]

/-- A key entered now is recent at once. -/
theorem recent_cons_self {w : T} (hw : 0 ≤ w) (now : T) (log : List (κ × T)) (k : κ) :
    recent w now ((k, now) :: log) k = some now := by
  simp [recent, Option.filter, hw]

/-- An entry for another key does not matter. -/
theorem recent_cons_ne {k k' : κ} (h : k' ≠ k) (w now t : T) (log : List (κ × T)) :
    recent w now ((k', t) :: log) k = recent w now log k := by
  rw [recent, recent, last_cons_ne h]

/-- Forgetting at `now` and again later is forgetting at the later time. -/
theorem recent_recent [IsOrderedAddMonoid T] {now now' : T} (h : now ≤ now') (w : T)
    (log : List (κ × T)) (k : κ) :
    (recent w now log k).filter (fun t => decide (now' - t ≤ w)) = recent w now' log k := by
  unfold recent
  cases last k log with
  | none => rfl
  | some t =>
      have hle : now - t ≤ now' - t := sub_le_sub_right h t
      by_cases h' : now' - t ≤ w
      · simp [Option.filter, h', hle.trans h']
      · by_cases h'' : now - t ≤ w <;> simp [Option.filter, h', h'']

/-- A key is recent exactly when some entry of it is at most `w` old. -/
theorem recent_isSome_iff [IsOrderedAddMonoid T] {w now : T} {log : List (κ × T)}
    (hs : Sorted log) (k : κ) :
    (recent w now log k).isSome ↔ ∃ t, (k, t) ∈ log ∧ now - t ≤ w := by
  constructor
  · intro h
    obtain ⟨t, ht⟩ := Option.isSome_iff_exists.mp h
    rw [recent_eq_some] at ht
    exact ⟨t, mem_of_last ht.1, ht.2⟩
  · rintro ⟨t, hmem, hage⟩
    obtain ⟨t', ht', hle⟩ := le_last_of_mem hs hmem
    have hage' : now - t' ≤ w := (sub_le_sub_left hle now).trans hage
    exact Option.isSome_iff_exists.mpr ⟨t', recent_eq_some.mpr ⟨ht', hage'⟩⟩

end Recency

namespace TouchOrder

variable {κ : Type} [DecidableEq κ]

/-- The touches after the last one of `k`. -/
def since (k : κ) (log : List κ) : List κ := log.rtakeWhile fun k' => decide (k' ≠ k)

/-- The other keys touched since `k` was. -/
def others (k : κ) (log : List κ) : Finset κ := (since k log).toFinset

/-- Every key was touched after those behind it. -/
def Ordered (log keys : List κ) : Prop := keys.Pairwise fun k k' => k ∈ since k' log

variable {k k' : κ} {log keys : List κ}

/-- A touch of another key comes after. -/
theorem since_append_ne (h : k' ≠ k) (log : List κ) :
    since k (log ++ [k']) = since k log ++ [k'] :=
  List.rtakeWhile_concat_pos _ _ _ (by simpa using h)

/-- Touching another key does not make `k` more recent. -/
theorem others_subset_append (h : k' ≠ k) (log : List κ) :
    others k log ⊆ others k (log ++ [k']) := by
  intro x hx
  rw [others, since_append_ne h, List.mem_toFinset]
  exact List.mem_append_left _ (List.mem_toFinset.mp hx)

/-- What is left in the list stays in order. -/
theorem Ordered.sublist {keys' : List κ} (h : Ordered log keys) (hsub : keys'.Sublist keys) :
    Ordered log keys' :=
  List.Pairwise.sublist hsub h

/-- A key that is touched goes to the head. -/
theorem Ordered.touch (h : Ordered log keys) (hnodup : keys.Nodup) (k : κ) :
    Ordered (log ++ [k]) (k :: keys.erase k) := by
  have hne : ∀ k' ∈ keys.erase k, k ≠ k' := fun k' hk' heq =>
    hnodup.not_mem_erase (heq ▸ hk')
  refine List.pairwise_cons.mpr ⟨fun k' hk' => ?_, ?_⟩
  · rw [since_append_ne (hne k' hk')]
    exact List.mem_append_right _ List.mem_cons_self
  · refine (h.sublist List.erase_sublist).imp_of_mem fun {a b} _ hb hab => ?_
    rw [since_append_ne (hne b hb)]
    exact List.mem_append_left _ hab

/-- **The price of an eviction.**  All keys before the last one were touched since. -/
theorem Ordered.length_le (h : Ordered log (keys ++ [k])) (hnodup : keys.Nodup) :
    keys.length ≤ (others k log).card := by
  rw [← List.toFinset_card_of_nodup hnodup]
  refine Finset.card_le_card fun x hx => ?_
  have hlast := (List.pairwise_append.mp h).2.2
  exact List.mem_toFinset.mpr (hlast x (List.mem_toFinset.mp hx) k List.mem_cons_self)

end TouchOrder
