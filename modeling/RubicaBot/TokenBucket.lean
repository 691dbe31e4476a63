import Mathlib.Algebra.Order.Ring.Defs
import Mathlib.Tactic.Linarith
import RubicaBot.Window

/-!
# RubicaBot.TokenBucket

Token buckets: a bucket of tokens fills at a steady rate up to its capacity, and
whoever takes a token leaves a stamp in a log.

`Metered` is the potential argument.  The stamps since any moment and the tokens
that are left are together no more than a full bucket and what has flowed in since
then.  A token that has been in the bucket, or has flowed in by the time it is
taken, keeps this up (`Metered.spend`), and no interval of the log ever has more
stamps in it than a full bucket and what flows in over its length.

Times and tokens live in any linearly ordered commutative ring.
-/

namespace TokenBucket

variable {K : Type} [CommRing K] [LinearOrder K] [IsStrictOrderedRing K]

/-- The stamps from `a` on. -/
def since (a : K) (log : List K) : List K := log.filter fun t => decide (a ≤ t)

/-- At `now`, `balance` tokens are left after those in the log have been taken. -/
structure Metered (capacity rate now balance : K) (log : List K) : Prop where
  past : ∀ t ∈ log, t ≤ now
  accrued : ∀ a, ((since a log).length : K) + balance ≤ capacity + rate * max (now - a) 0
  bounded : ∀ a w, 0 ≤ w → ((Window.spanning w a log).length : K) ≤ capacity + rate * w

namespace Metered

variable {capacity rate now balance : K} {log : List K}

/-- A full bucket. -/
theorem full (hcapacity : 0 ≤ capacity) (hrate : 0 ≤ rate) (now : K) :
    Metered capacity rate now capacity [] where
  past t ht := absurd ht List.not_mem_nil
  accrued a := by
    have hflow := mul_nonneg hrate (le_max_right (now - a) 0)
    simp only [since, List.filter_nil, List.length_nil, Nat.cast_zero]
    linarith
  bounded a w hw := by
    have hflow := mul_nonneg hrate hw
    simp only [Window.spanning, List.filter_nil, List.length_nil, Nat.cast_zero]
    linarith

omit [IsStrictOrderedRing K] in
/-- An interval has no stamps but those since it began. -/
theorem spanning_sublist_since (w a : K) (log : List K) :
    (Window.spanning w a log).Sublist (since a log) := by
  refine List.monotone_filter_right log fun t ht => ?_
  rw [decide_eq_true_eq] at ht ⊢
  exact ht.1

omit [CommRing K] [IsStrictOrderedRing K] in
/-- All of them were before. -/
theorem since_eq_nil {a : K} (h : ∀ t ∈ log, t < a) : since a log = [] :=
  List.filter_eq_nil_iff.mpr fun t ht => by simpa using h t ht

/-- A token that is taken fits into the bucket with those that are left, and it was in
it or has flowed in. -/
theorem accrued_spend (h : Metered capacity rate now balance log) (hrate : 0 ≤ rate)
    {t balance' : K} (hpast : ∀ t' ∈ log ++ [t], t' ≤ t) (hfits : balance' + 1 ≤ capacity)
    (hflowed : balance' + 1 ≤ balance + rate * (t - now)) (a : K) :
    ((since a (log ++ [t])).length : K) + balance' ≤ capacity + rate * max (t - a) 0 := by
  have hflow := mul_nonneg hrate (le_max_right (t - a) 0)
  by_cases hat : a ≤ t
  · have hlast : since a (log ++ [t]) = since a log ++ [t] := by simp [since, hat]
    rw [hlast, List.length_append, List.length_singleton, Nat.cast_add, Nat.cast_one]
    by_cases hnow : a ≤ now
    · have hbefore := h.accrued a
      rw [max_eq_left (sub_nonneg.mpr hnow)] at hbefore
      rw [max_eq_left (sub_nonneg.mpr hat)]
      linarith
    · rw [since_eq_nil fun t' ht' => (h.past t' ht').trans_lt (not_le.mp hnow), List.length_nil,
        Nat.cast_zero]
      linarith
  · rw [since_eq_nil fun t' ht' => (hpast t' ht').trans_lt (not_le.mp hat), List.length_nil,
      Nat.cast_zero]
    linarith

/-- **A token is taken.** -/
theorem spend (h : Metered capacity rate now balance log) (hrate : 0 ≤ rate) {t balance' : K}
    (hlater : now ≤ t) (hleft : 0 ≤ balance') (hfits : balance' + 1 ≤ capacity)
    (hflowed : balance' + 1 ≤ balance + rate * (t - now)) :
    Metered capacity rate t balance' (log ++ [t]) := by
  have hpast : ∀ t' ∈ log ++ [t], t' ≤ t := by
    intro t' ht'
    obtain ht' | ht' := List.mem_append.mp ht'
    · exact (h.past t' ht').trans hlater
    · exact (List.mem_singleton.mp ht').le
  have haccrued := h.accrued_spend hrate hpast hfits hflowed
  refine ⟨hpast, haccrued, fun a w hw => ?_⟩
  by_cases ht : a ≤ t ∧ t ≤ a + w
  · have hle : ((Window.spanning w a (log ++ [t])).length : K) ≤
        ((since a (log ++ [t])).length : K) :=
      Nat.cast_le.mpr (spanning_sublist_since w a _).length_le
    have hsince := haccrued a
    rw [max_eq_left (sub_nonneg.mpr ht.1)] at hsince
    have hflow : rate * (t - a) ≤ rate * w :=
      mul_le_mul_of_nonneg_left (sub_le_iff_le_add'.mpr ht.2) hrate
    linarith
  · have hsplit : Window.spanning w a (log ++ [t]) = Window.spanning w a log := by
      simp [Window.spanning, ht]
    rw [hsplit]
    exact h.bounded a w hw

end Metered

end TokenBucket
