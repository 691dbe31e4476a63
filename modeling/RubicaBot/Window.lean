import Mathlib.Algebra.Order.Group.Defs
import Mathlib.Algebra.Order.Sub.Basic
import Mathlib.Data.List.Basic
import Mathlib.Order.Defs.LinearOrder

/-!
# RubicaBot.Window

Sliding windows over logs of time stamps.

A log is a list of stamps, oldest first, and `within w now log` is the part of it
that is at most `w` old.  A store that keeps a deque, and pops stale stamps from
its front whenever it is used, `Tracks` the log: at every use the deque is what
is `within` the window, however long ago it was used before (`Tracks.prune_eq`).

A log that grows only while less than `n` of it is within the window has at most
`n` stamps in *every* interval of that length, not only in those that end at a
stamp (`Sparse.push`).

Times live in any linearly ordered additive group.
-/

namespace Window

variable {T : Type} [AddCommGroup T] [LinearOrder T]

/-- The stamps that are at most `w` old. -/
def within (w now : T) (log : List T) : List T := log.filter fun t => decide (now - t ≤ w)

/-- Stale stamps are popped from the front, up to the first that is not stale. -/
def prune (w now : T) (deque : List T) : List T := deque.dropWhile fun t => decide (now - t > w)

/-- The deque shows what of the log is not stale yet. -/
structure Tracks (w now : T) (log deque : List T) : Prop where
  sorted : log.Pairwise (· ≤ ·)
  past : ∀ t ∈ log, t ≤ now
  sublist : deque.Sublist log
  shows : within w now deque = within w now log

variable {w now now' : T} {log deque : List T}

@[simp] theorem within_nil (w now : T) : within w now [] = [] := rfl

/-- What is within the window of the one list and of the other. -/
theorem within_append (xs ys : List T) :
    within w now (xs ++ ys) = within w now xs ++ within w now ys :=
  List.filter_append ..

/-- The stamp of this moment is in every window. -/
theorem within_self (hw : 0 ≤ w) (now : T) : within w now [now] = [now] := by simp [within, hw]

variable [IsOrderedAddMonoid T]

/-- Of a sorted deque, popping from the front leaves what is within the window. -/
theorem prune_eq_within (h : deque.Pairwise (· ≤ ·)) : prune w now deque = within w now deque := by
  induction deque with
  | nil => rfl
  | cons t deque ih =>
      obtain ⟨hle, hrest⟩ := List.pairwise_cons.mp h
      by_cases hstale : now - t > w
      · have hnot : ¬ now - t ≤ w := not_le.mpr hstale
        rw [prune, List.dropWhile_cons_of_pos (by simpa using hstale), within,
          List.filter_cons_of_neg (by simpa using hnot)]
        exact ih hrest
      · have hall : ∀ t' ∈ t :: deque, now - t' ≤ w := by
          intro t' ht'
          rcases List.mem_cons.mp ht' with rfl | ht'
          · exact not_lt.mp hstale
          · exact (sub_le_sub_left (hle t' ht') now).trans (not_lt.mp hstale)
        rw [prune, List.dropWhile_cons_of_neg (by simpa using hstale), within,
          List.filter_eq_self.mpr fun t' ht' => by simpa using hall t' ht']

/-- What is within the window later, was before. -/
theorem within_within (h : now ≤ now') (log : List T) :
    within w now' (within w now log) = within w now' log := by
  rw [within, within, List.filter_filter]
  refine List.filter_congr fun t _ => ?_
  have hle : now - t ≤ now' - t := sub_le_sub_right h t
  by_cases hnew : now' - t ≤ w
  · simp [hnew, hle.trans hnew]
  · simp [hnew]

namespace Tracks

omit [IsOrderedAddMonoid T] in
/-- There is nothing to keep track of. -/
theorem nil (w now : T) : Tracks w now [] ([] : List T) :=
  ⟨List.Pairwise.nil, fun _ h => absurd h List.not_mem_nil, List.Sublist.refl _, rfl⟩

/-- Time passes. -/
theorem later (h : Tracks w now log deque) (hle : now ≤ now') : Tracks w now' log deque where
  sorted := h.sorted
  past t ht := (h.past t ht).trans hle
  sublist := h.sublist
  shows := by rw [← within_within hle deque, h.shows, within_within hle]

/-- **What a use finds.**  Popping the stale stamps leaves what of the log is within
the window. -/
theorem prune_eq (h : Tracks w now log deque) : prune w now deque = within w now log := by
  rw [prune_eq_within (h.sorted.sublist h.sublist), h.shows]

/-- The stale stamps are popped. -/
theorem pruned (h : Tracks w now log deque) : Tracks w now log (prune w now deque) where
  sorted := h.sorted
  past := h.past
  sublist := (List.dropWhile_sublist _).trans h.sublist
  shows := by rw [h.prune_eq, within_within le_rfl]

omit [IsOrderedAddMonoid T] in
/-- A stamp is added to both. -/
theorem push (h : Tracks w now log deque) : Tracks w now (log ++ [now]) (deque ++ [now]) where
  sorted := by
    refine List.pairwise_append.mpr ⟨h.sorted, List.pairwise_singleton _ _, fun t ht t' ht' => ?_⟩
    rw [List.mem_singleton.mp ht']
    exact h.past t ht
  past t ht := by
    rcases List.mem_append.mp ht with ht | ht
    · exact h.past t ht
    · exact (List.mem_singleton.mp ht).le
  sublist := h.sublist.append (List.Sublist.refl _)
  shows := by rw [within_append, within_append, h.shows]

end Tracks

/-! ## intervals -/

/-- The stamps from `a` to `a + w`. -/
def spanning (w a : T) (log : List T) : List T :=
  log.filter fun t => decide (a ≤ t ∧ t ≤ a + w)

/-- Every interval of length `w` has at most `n` stamps in it. -/
def Sparse (w : T) (n : Nat) (log : List T) : Prop := ∀ a, (spanning w a log).length ≤ n

omit [IsOrderedAddMonoid T] in
/-- An empty list is sparse. -/
theorem sparse_nil (w : T) (n : Nat) : Sparse w n [] := fun _ => Nat.zero_le n

/-- An interval that a stamp ends in has no older stamps but those within the
window of that stamp. -/
theorem spanning_subset_within {a t : T} (h : t ≤ a + w) (log : List T) :
    (spanning w a log).Sublist (within w t log) := by
  refine List.monotone_filter_right log fun t' ht' => ?_
  rw [decide_eq_true_eq] at ht' ⊢
  calc t - t' ≤ a + w - t' := sub_le_sub_right h t'
    _ ≤ a + w - a := sub_le_sub_left ht'.1 _
    _ = w := add_sub_cancel_left a w

/-- In the past, the window is the interval that ends now. -/
theorem within_eq_spanning (h : ∀ t ∈ log, t ≤ now) :
    within w now log = spanning w (now - w) log := by
  refine List.filter_congr fun t ht => ?_
  have hend : now - w + w = now := sub_add_cancel now w
  have hstart : now - t ≤ w ↔ now - w ≤ t := sub_le_comm
  simp [hend, h t ht, hstart]

/-- **Room for one more.**  A stamp that finds less than `n` within its window leaves
at most `n` in every interval. -/
theorem Sparse.push {n : Nat} (h : Sparse w n log) {t : T}
    (hroom : (within w t log).length < n) : Sparse w n (log ++ [t]) := by
  intro a
  have hsplit : spanning w a (log ++ [t]) = spanning w a log ++ spanning w a [t] :=
    List.filter_append ..
  rw [hsplit, List.length_append]
  by_cases ht : a ≤ t ∧ t ≤ a + w
  · have hlast : spanning w a [t] = [t] := List.filter_cons_of_pos (by simpa using ht)
    have hle := (spanning_subset_within ht.2 log).length_le
    rw [hlast, List.length_singleton]
    omega
  · have hlast : spanning w a [t] = [] := List.filter_cons_of_neg (by simpa using ht)
    rw [hlast, List.length_nil, Nat.add_zero]
    exact h a

end Window
