import RubicaBot.Coroutine.Allowed
import RubicaBot.Coroutine.Script
import RubicaBot.Simulation

/-!
# RubicaBot.Coroutine.Simulation

Coroutines on different states that cannot be told apart.

`Matches R m m'` says that `m` and `m'`, started in states that `R` relates, suspend at
the same calls or come to the same result, leave related states behind, and go on so after
every reply, in whatever related states it finds them.  Sequences match if their parts do
(`Matches.bind`), and a coroutine matches itself on a state that has its own as a part
(`zoom_matches`).

Threads that match (`Threads.Matches`) get the same replies at the same calls, so they stay
in step (`Threads.Matches.reply`).
-/

namespace Coroutine

variable {σ τ κ ρ ε α β : Type}

/-- The same result, or the same call and matching coroutines after it. -/
inductive Outcome.Matches (R : σ → τ → Prop) :
    Outcome σ κ ρ ε α → Outcome τ κ ρ ε α → Prop where
  | finished (result : Except ε α) : Matches R (.finished result) (.finished result)
  | awaiting (c : κ) (k : Except ε ρ → Coroutine σ κ ρ ε α) (k' : Except ε ρ → Coroutine τ κ ρ ε α)
      (states : ∀ r s t, R s t → R ((k r).advance s).2 ((k' r).advance t).2)
      (outcomes : ∀ r s t, R s t → Matches R ((k r).advance s).1 ((k' r).advance t).1) :
      Matches R (.awaiting c k) (.awaiting c k')

/-- Related states, and matching outcomes in them. -/
structure InStep (R : σ → τ → Prop) (x : Outcome σ κ ρ ε α × σ) (y : Outcome τ κ ρ ε α × τ) :
    Prop where
  states : R x.2 y.2
  outcomes : x.1.Matches R y.1

/-- From related states the two come to matching outcomes. -/
def Matches (R : σ → τ → Prop) (m : Coroutine σ κ ρ ε α) (m' : Coroutine τ κ ρ ε α) : Prop :=
  ∀ s t, R s t → InStep R (m.advance s) (m'.advance t)

variable {R : σ → τ → Prop} {m : Coroutine σ κ ρ ε α} {m' : Coroutine τ κ ρ ε α}
  {g : α → Coroutine σ κ ρ ε β} {g' : α → Coroutine τ κ ρ ε β}

/-! ## how it comes about -/

/-- A value. -/
theorem matches_pure (a : α) :
    Matches R (pure a : Coroutine σ κ ρ ε α) (pure a : Coroutine τ κ ρ ε α) :=
  fun _ _ h => ⟨h, .finished _⟩

/-- Effects that do the same to related states. -/
theorem matches_atomic {e : Effect σ ε α} {e' : Effect τ ε α}
    (h : ∀ s t, R s t → (e s).1 = (e' t).1 ∧ R (e s).2 (e' t).2) :
    Matches R (atomic e : Coroutine σ κ ρ ε α) (atomic e') := by
  intro s t hR
  obtain ⟨hresult, hstate⟩ := h s t hR
  refine ⟨hstate, ?_⟩
  show Outcome.Matches R (.finished (e s).1) (.finished (e' t).1)
  rw [hresult]
  exact .finished _

/-- The condition may be used on either branch. -/
theorem Matches.ite {c : Prop} [Decidable c] {n : Coroutine σ κ ρ ε α} {n' : Coroutine τ κ ρ ε α}
    (hm : c → Matches R m m') (hn : ¬ c → Matches R n n') :
    Matches R (if c then m else n) (if c then m' else n') := by
  split
  · next h => exact hm h
  · next h => exact hn h

/-! ## sequences -/

/-- By induction on the outcomes: what follows a first part in step stays in step. -/
theorem Outcome.Matches.continue {out : Outcome σ κ ρ ε α} {out' : Outcome τ κ ρ ε α}
    (h : out.Matches R out') (hg : ∀ a, Coroutine.Matches R (g a) (g' a)) {s : σ} {t : τ}
    (hR : R s t) : InStep R (Outcome.continue g (out, s)) (Outcome.continue g' (out', t)) := by
  induction h generalizing s t with
  | finished result =>
      cases result with
      | ok a => exact hg a s t hR
      | error e => exact ⟨hR, .finished _⟩
  | awaiting c k k' states outcomes ih =>
      have hlater : ∀ r s t, R s t →
          InStep R (((k r).bind g).advance s) (((k' r).bind g').advance t) := by
        intro r s t hR
        have hleft := advance_bind (k r) g s
        have hright := advance_bind (k' r) g' t
        have hstep := ih r s t hR (states r s t hR)
        rw [← hleft, ← hright] at hstep
        exact hstep
      exact ⟨hR, .awaiting c _ _ (fun r s t hR => (hlater r s t hR).states)
        fun r s t hR => (hlater r s t hR).outcomes⟩

/-- **Sequences.** -/
theorem Matches.bind (hm : Matches R m m') (hg : ∀ a, Matches R (g a) (g' a)) :
    Matches R (m >>= g) (m' >>= g') := by
  intro s t hR
  rw [advance_bind, advance_bind]
  exact (hm s t hR).outcomes.continue hg (hm s t hR).states

/-- After a part that has already come to its result, only that result counts. -/
theorem matches_lift_bind {x : Except ε α} (hg : ∀ a, x = .ok a → Matches R (g a) (g' a)) :
    Matches R ((lift x : Coroutine σ κ ρ ε α) >>= g) (lift x >>= g') := by
  cases x with
  | ok a => exact hg a rfl
  | error e => exact fun _ _ hR => ⟨hR, .finished _⟩

/-- After effects that do the same, only what they can return counts. -/
theorem matches_atomic_bind {e : Effect σ ε α} {e' : Effect τ ε α}
    (h : ∀ s t, R s t → (e s).1 = (e' t).1 ∧ R (e s).2 (e' t).2)
    (hg : ∀ a t, (e' t).1 = .ok a → Matches R (g a) (g' a)) :
    Matches R ((atomic e : Coroutine σ κ ρ ε α) >>= g) (atomic e' >>= g') := by
  intro s t hR
  obtain ⟨hresult, hstate⟩ := h s t hR
  show InStep R (((done (e s).1).bind g).advance (e s).2)
    (((done (e' t).1).bind g').advance (e' t).2)
  rw [hresult]
  cases hright : (e' t).1 with
  | ok a => exact hg a t hright _ _ hstate
  | error err => exact ⟨hstate, .finished _⟩

/-! ## a part of the state -/

/-- `m` on a state that its own is a part of. -/
def zoom (get : σ → τ) (set : τ → σ → σ) : Coroutine τ κ ρ ε α → Coroutine σ κ ρ ε α
  | .done result => .done result
  | .act f k => .act (fun s => set (f (get s)) s) fun s => (k (get s)).zoom get set
  | .await c k => .await c fun r => (k r).zoom get set

/-- By induction on the coroutine: as long as it changes its part along `W`, which keeps
the rest `I`, it is not seen that there is a rest. -/
theorem inStep_zoom {get : σ → τ} {set : τ → σ → σ} {W : τ → τ → Prop} {I : σ → Prop}
    (hget : ∀ t s, get (set t s) = t) (hset : ∀ s t, I s → W (get s) t → I (set t s))
    {m : Coroutine τ κ ρ ε α} {s : σ} (hm : m.Allowed (fun _ => True) W (get s)) (hs : I s) :
    InStep (fun s t => get s = t ∧ I s) ((m.zoom get set).advance s) (m.advance (get s)) := by
  induction m generalizing s with
  | done result => exact ⟨⟨rfl, hs⟩, .finished _⟩
  | act f k ih =>
      have hnext := ih (get s) (s := set (f (get s)) s) (by rw [hget]; exact hm.2)
        (hset s _ hs hm.1)
      rw [hget] at hnext
      exact hnext
  | await c k ih =>
      have hlater : ∀ r s t, get s = t ∧ I s →
          InStep (fun s t => get s = t ∧ I s) (((k r).zoom get set).advance s)
            ((k r).advance t) := by
        rintro r s _ ⟨rfl, hs⟩
        exact ih r (hm.2 r _) hs
      exact ⟨⟨rfl, hs⟩, .awaiting c _ _ (fun r s t hR => (hlater r s t hR).states)
        fun r s t hR => (hlater r s t hR).outcomes⟩

/-- **Zooming.** -/
theorem zoom_matches {get : σ → τ} {set : τ → σ → σ} {W : τ → τ → Prop} {I : σ → Prop}
    (hget : ∀ t s, get (set t s) = t) (hset : ∀ s t, I s → W (get s) t → I (set t s))
    {m : Coroutine τ κ ρ ε α} (hm : m.Confined (fun _ => True) W) :
    Matches (fun s t => get s = t ∧ I s) (m.zoom get set) m := by
  rintro s _ ⟨rfl, hs⟩
  exact inStep_zoom hget hset (hm _) hs

end Coroutine

/-! ## threads -/

variable {σ τ κ ρ ε α : Type} {R : σ → τ → Prop}

/-- The threads have had the same replies, and have come to matching outcomes. -/
structure Thread.Matches (R : σ → τ → Prop) (t : Thread σ κ ρ ε α) (t' : Thread τ κ ρ ε α) :
    Prop where
  startedIn : R t.startedIn t'.startedIn
  exchanges : t.exchanges = t'.exchanges
  outcome : t.outcome.Matches R t'.outcome

/-- They wait for the same. -/
theorem Thread.Matches.waitsFor {t : Thread σ κ ρ ε α} {t' : Thread τ κ ρ ε α}
    (h : t.Matches R t') : t.waitsFor = t'.waitsFor := by
  have houtcome := h.outcome
  unfold Thread.waitsFor
  generalize t.outcome = out, t'.outcome = out' at houtcome ⊢
  cases houtcome with
  | finished result => rfl
  | awaiting c k k' states outcomes => rfl

/-- And come to the same result. -/
theorem Thread.Matches.result {t : Thread σ κ ρ ε α} {t' : Thread τ κ ρ ε α}
    (h : t.Matches R t') : t.result = t'.result := by
  have houtcome := h.outcome
  unfold Thread.result
  generalize t.outcome = out, t'.outcome = out' at houtcome ⊢
  cases houtcome with
  | finished result => rfl
  | awaiting c k k' states outcomes => rfl

/-- And have made the same calls. -/
theorem Thread.Matches.calls {t : Thread σ κ ρ ε α} {t' : Thread τ κ ρ ε α}
    (h : t.Matches R t') : t.calls = t'.calls := by
  rw [Thread.calls, Thread.calls, h.exchanges, h.waitsFor]

/-- They execute the same scripts. -/
theorem Thread.Matches.executes {t : Thread σ κ ρ ε α} {t' : Thread τ κ ρ ε α}
    (h : t.Matches R t') {cs : List κ} (hexecutes : t'.Executes cs) : t.Executes cs where
  inOrder := h.calls ▸ hexecutes.inOrder
  answered := by
    rw [h.exchanges, h.result]
    exact hexecutes.answered
  returned := by
    rw [h.calls, h.result]
    exact hexecutes.returned
  raised := by
    rw [h.exchanges, h.result]
    exact hexecutes.raised

namespace Threads

/-- The states are related, and the threads match one by one. -/
structure Matches (R : σ → τ → Prop) (s : Threads σ κ ρ ε α) (s' : Threads τ κ ρ ε α) :
    Prop where
  shared : R s.shared s'.shared
  threads : ∀ n : Nat, Option.Rel (Thread.Matches R) s.threads[n]? s'.threads[n]?

variable {s : Threads σ κ ρ ε α} {s' : Threads τ κ ρ ε α}

/-- There are no threads yet. -/
theorem matches_init {x : σ} {y : τ} (h : R x y) :
    (⟨x, []⟩ : Threads σ κ ρ ε α).Matches R (⟨y, []⟩ : Threads τ κ ρ ε α) :=
  ⟨h, fun _ => .none⟩

/-- **Step lemma.**  Matching coroutines are started. -/
theorem Matches.start (h : s.Matches R s') {m : Coroutine σ κ ρ ε α} {m' : Coroutine τ κ ρ ε α}
    (hm : m.Matches R m') : (s.start m).Matches R (s'.start m') := by
  have hstep := hm _ _ h.shared
  refine ⟨hstep.states, fun n => ?_⟩
  cases n with
  | zero => exact .some ⟨h.shared, rfl, hstep.outcomes⟩
  | succ n => exact h.threads n

/-- **Step lemma.**  The `n`-th threads get the same reply. -/
theorem Matches.reply (h : s.Matches R s') (n : Nat) (r : Except ε ρ) :
    Option.Rel (Matches R) (s.step (.reply n r)) (s'.step (.reply n r)) := by
  have hthread := h.threads n
  simp only [step]
  cases ht : s.threads[n]? with
  | none =>
      rw [ht, Transition.rel_none_iff] at hthread
      rw [hthread]
      exact .none
  | some t =>
      rw [ht, Transition.rel_some_iff] at hthread
      obtain ⟨t', ht', hmatch⟩ := hthread
      have houtcome := hmatch.outcome
      rw [ht']
      dsimp only
      generalize t.outcome = out, t'.outcome = out' at houtcome ⊢
      cases houtcome with
      | finished result => exact .none
      | awaiting c k k' states outcomes =>
          have hn := (List.getElem?_eq_some_iff.mp ht).1
          have hn' := (List.getElem?_eq_some_iff.mp ht').1
          refine .some ⟨states r _ _ h.shared, fun m => ?_⟩
          rw [List.getElem?_set, List.getElem?_set]
          by_cases hnm : n = m
          · rw [if_pos hnm, if_pos hnm, if_pos hn, if_pos hn']
            refine .some ⟨hmatch.startedIn, ?_, outcomes r _ _ h.shared⟩
            exact congrArg (· ++ [(c, r)]) hmatch.exchanges
          · rw [if_neg hnm, if_neg hnm]
            exact h.threads m

end Threads
