import Mathlib.Algebra.BigOperators.Group.List.Basic
import Mathlib.Algebra.GroupWithZero.Nat
import Mathlib.Data.List.Forall2
import RubicaBot.Coroutine.Threads

/-!
# RubicaBot.Coroutine.Awaits

How often a coroutine suspends: `Awaits n m` says that `m` does so at most `n` times,
whatever it is answered and whatever it finds in the state.

Threads whose programs come with such bounds have a potential, the suspensions they have
left: an answer takes one of it (`Threads.Budget.reply`), a start puts its bound in.
-/

namespace Coroutine

variable {σ κ ρ ε α β : Type}

/-- The coroutine suspends at most so often. -/
def Awaits : Nat → Coroutine σ κ ρ ε α → Prop
  | _, .done _ => True
  | n, .act _ k => ∀ s, (k s).Awaits n
  | n, .await _ k => 0 < n ∧ ∀ r, (k r).Awaits (n - 1)

/-- What is left to do suspends at most so often, the current suspension included. -/
def Outcome.Awaits (n : Nat) : Outcome σ κ ρ ε α → Prop
  | .finished _ => True
  | .awaiting _ k => 0 < n ∧ ∀ r, (k r).Awaits (n - 1)

variable {m : Coroutine σ κ ρ ε α} {g : α → Coroutine σ κ ρ ε β} {n k : Nat}

/-- So often is at most more often. -/
theorem Awaits.mono (h : m.Awaits n) (hle : n ≤ k) : m.Awaits k := by
  induction m generalizing n k with
  | done result => trivial
  | act f next ih => exact fun s => ih s (h s) hle
  | await c next ih =>
      exact ⟨Nat.lt_of_lt_of_le h.1 hle, fun r => ih r (h.2 r) (Nat.sub_le_sub_right hle 1)⟩

/-- A value. -/
theorem awaits_pure (a : α) : (pure a : Coroutine σ κ ρ ε α).Awaits n := trivial

/-- A result. -/
theorem awaits_lift (x : Except ε α) : (lift x : Coroutine σ κ ρ ε α).Awaits n := trivial

/-- A call suspends once. -/
theorem awaits_call (c : κ) : (call c : Coroutine σ κ ρ ε ρ).Awaits 1 :=
  ⟨Nat.one_pos, fun _ => trivial⟩

/-- An effect does not suspend. -/
theorem awaits_atomic (e : Effect σ ε α) : (atomic e : Coroutine σ κ ρ ε α).Awaits n :=
  fun _ => trivial

/-- **Sequences.**  The parts add up. -/
theorem Awaits.bind (hm : m.Awaits n) (hg : ∀ a, (g a).Awaits k) : (m >>= g).Awaits (n + k) := by
  show (m.bind g).Awaits (n + k)
  induction m generalizing n with
  | done result =>
      cases result with
      | ok a => exact (hg a).mono (Nat.le_add_left k n)
      | error e => trivial
  | act f next ih => exact fun s => ih s (hm s)
  | await c next ih =>
      refine ⟨Nat.add_pos_left hm.1 k, fun r => ?_⟩
      have h := ih r (hm.2 r)
      rwa [← Nat.sub_add_comm hm.1] at h

/-- After a suspension of the first part only the results are known. -/
theorem Awaits.bind_of_quiet {reads : Bool} {P : α → Prop} (hm : m.Awaits n)
    (hquiet : m.Quiet reads P) (hg : ∀ a, P a → (g a).Awaits 0) : (m >>= g).Awaits n := by
  show (m.bind g).Awaits n
  induction m generalizing n with
  | done result =>
      cases result with
      | ok a => exact (hg a hquiet).mono (Nat.zero_le n)
      | error e => trivial
  | act f next ih => exact fun s => ih s (hm s) (hquiet.2.2 s)
  | await c next ih => exact ⟨hm.1, fun r => ih r (hm.2 r) (hquiet r)⟩

/-- **Alternatives.**  If nothing suspends after a suspension of the first part, the parts do
not add up. -/
theorem Awaits.bind_of_writesFirst {reads : Bool} {P : α → Prop} (hm : m.Awaits n)
    (hwrites : m.WritesFirst reads P) (hg : ∀ a, (g a).Awaits n)
    (hlater : ∀ a, P a → (g a).Awaits 0) : (m >>= g).Awaits n := by
  show (m.bind g).Awaits n
  induction m generalizing n with
  | done result =>
      cases result with
      | ok a => exact hg a
      | error e => trivial
  | act f next ih => exact fun s => ih s (hm s) (hwrites s) hg
  | await c next => exact ⟨hm.1, fun r => (hm.2 r).bind_of_quiet (hwrites r) hlater⟩

/-- After a part that does not suspend, what it returns is known. -/
theorem awaits_atomic_bind {e : Effect σ ε α} (hg : ∀ s a, (e s).1 = .ok a → (g a).Awaits n) :
    ((atomic e : Coroutine σ κ ρ ε α) >>= g).Awaits n := by
  intro s
  show ((Coroutine.done (e s).1).bind g).Awaits n
  cases hresult : (e s).1 with
  | ok a => exact hg s a hresult
  | error err => trivial

/-- Only what follows suspends. -/
theorem awaits_lift_bind {x : Except ε α} (hg : ∀ a, x = .ok a → (g a).Awaits n) :
    ((lift x : Coroutine σ κ ρ ε α) >>= g).Awaits n := by
  show ((Coroutine.done x).bind g).Awaits n
  cases x with
  | ok a => exact hg a rfl
  | error err => trivial

/-- Catching an exception takes no suspension. -/
theorem Awaits.attempt (hm : m.Awaits n) : m.attempt.Awaits n := by
  induction m generalizing n with
  | done result => trivial
  | act f next ih => exact fun s => ih s (hm s)
  | await c next ih => exact ⟨hm.1, fun r => ih r (hm.2 r)⟩

/-- On both branches. -/
theorem Awaits.ite {c : Prop} [Decidable c] {m' : Coroutine σ κ ρ ε α} (hm : m.Awaits n)
    (hm' : m'.Awaits n) : (if c then m else m').Awaits n := by
  split
  · exact hm
  · exact hm'

/-- Whether it is run or not. -/
theorem Awaits.when {c : Bool} (hm : m.Awaits n) : (m.when c).Awaits n := by
  unfold Coroutine.when
  exact Awaits.ite (hm.bind fun _ => awaits_pure (n := 0) _) (awaits_pure _)

/-- Up to the first suspension none is used. -/
theorem Awaits.advance (h : m.Awaits n) (s : σ) : (m.advance s).1.Awaits n := by
  induction m generalizing s with
  | done result => trivial
  | act f next ih => exact ih s (h s) (f s)
  | await c next => exact h

end Coroutine

namespace Threads

variable {σ κ ρ ε α : Type}

/-- The threads suspend at most so often from now on. -/
def Budget (s : Threads σ κ ρ ε α) (budgets : List Nat) : Prop :=
  List.Forall₂ (fun t b => t.outcome.Awaits b) s.threads budgets

/-- A thread that starts brings its bound. -/
theorem Budget.start {s : Threads σ κ ρ ε α} {budgets : List Nat} (h : s.Budget budgets)
    {m : Coroutine σ κ ρ ε α} {n : Nat} (hm : m.Awaits n) :
    (s.start m).Budget (n :: budgets) :=
  .cons (hm.advance s.shared) h

/-- A bound for all of them is a budget for those that have not finished. -/
theorem exists_budget {s : Threads σ κ ρ ε α} {n : Nat}
    (h : ∀ t ∈ s.threads, t.outcome.Awaits n) :
    ∃ budgets, s.Budget budgets ∧
      budgets.sum = n * s.threads.countP (·.result.isNone) := by
  obtain ⟨shared, threads⟩ := s
  induction threads with
  | nil => exact ⟨[], .nil, rfl⟩
  | cons t ts ih =>
      obtain ⟨hfirst, hrest⟩ := List.forall_mem_cons.mp h
      obtain ⟨budgets, hbudget, hsum⟩ := ih hrest
      simp only at hsum
      cases houtcome : t.outcome with
      | finished result =>
          refine ⟨0 :: budgets, .cons ?_ hbudget, ?_⟩
          · rw [houtcome]
            trivial
          · rw [List.sum_cons, hsum, List.countP_cons_of_neg (by simp [Thread.result, houtcome]),
              Nat.zero_add]
      | awaiting c k =>
          refine ⟨n :: budgets, .cons hfirst hbudget, ?_⟩
          rw [List.sum_cons, hsum, List.countP_cons_of_pos (by simp [Thread.result, houtcome]),
            Nat.mul_add_one, Nat.add_comm]

/-- Replacing a thread and its budget. -/
theorem forall₂_set {α β : Type} {R : α → β → Prop} {as : List α} {bs : List β}
    (h : List.Forall₂ R as bs) (n : Nat) {a : α} {b : β} (hab : R a b) :
    List.Forall₂ R (as.set n a) (bs.set n b) := by
  induction h generalizing n with
  | nil => exact .nil
  | cons hfirst hrest ih =>
      cases n with
      | zero => exact .cons hab hrest
      | succ n => exact .cons hfirst (ih n)

/-- The budget of one thread. -/
theorem forall₂_getElem {α β : Type} {R : α → β → Prop} {as : List α} {bs : List β}
    (h : List.Forall₂ R as bs) {n : Nat} {a : α} (ha : as[n]? = some a) :
    ∃ b, bs[n]? = some b ∧ R a b := by
  induction h generalizing n with
  | nil => cases ha
  | cons hfirst hrest ih =>
      cases n with
      | zero =>
          cases ha
          exact ⟨_, rfl, hfirst⟩
      | succ n => exact ih ha

/-- One bound goes down, and so does the sum. -/
theorem sum_set_pred {bs : List Nat} {n b : Nat} (h : bs[n]? = some b) (hb : 0 < b) :
    (bs.set n (b - 1)).sum < bs.sum := by
  induction bs generalizing n with
  | nil => cases h
  | cons x xs ih =>
      cases n with
      | zero =>
          cases h
          rw [List.set_cons_zero, List.sum_cons, List.sum_cons]
          omega
      | succ n =>
          have hlt := ih h
          rw [List.set_cons_succ, List.sum_cons, List.sum_cons]
          omega

/-- **An answer takes one of it.** -/
theorem Budget.reply {s s' : Threads σ κ ρ ε α} {budgets : List Nat} (h : s.Budget budgets)
    {n : Nat} {r : Except ε ρ} (hstep : s.step (.reply n r) = some s') :
    ∃ budgets', s'.Budget budgets' ∧ budgets'.sum < budgets.sum := by
  cases Step.of_step hstep with
  | reply n r t c k hthread hawaiting =>
      obtain ⟨b, hb, hawaits⟩ := forall₂_getElem h hthread
      rw [hawaiting] at hawaits
      refine ⟨budgets.set n (b - 1), ?_, sum_set_pred hb hawaits.1⟩
      exact forall₂_set h n ((hawaits.2 r).advance s.shared)

end Threads
