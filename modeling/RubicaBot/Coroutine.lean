import RubicaBot.Effect

/-!
# RubicaBot.Coroutine

Coroutines that share a state and suspend at their `await`s.

Between two suspensions a coroutine runs without interruption (`advance`).  `run` has it
to itself: every `await` is answered at once, so a coroutine stands for an `Effect`, and
putting coroutines together is putting their effects together (`run_bind`).  `Alone` is
the same with the answers written down as they came, and `Interleaved` is a coroutine among
others.

What others do to the state while a coroutine is suspended matters only to what it does
afterwards:

* `Quiet` — it writes no more, and without `reads` it does not look at the state either;
* `WritesFirst` — it is quiet from its first suspension on.

Both come with what is returned after a suspension, so a sequence writes first if all its
parts do and what follows such a result is quiet (`WritesFirst.bind`).
-/

/-- A coroutine over a shared state `σ` that awaits the replies `ρ` to calls `κ`, each of
which may raise an `ε`. -/
inductive Coroutine (σ κ ρ ε α : Type) where
  | done (result : Except ε α)
  /-- Replaces the state and goes on with what it was. -/
  | act (f : σ → σ) (k : σ → Coroutine σ κ ρ ε α)
  | await (c : κ) (k : Except ε ρ → Coroutine σ κ ρ ε α)

namespace Coroutine

variable {σ κ ρ ε α β ω : Type}

/-! ## putting coroutines together -/

/-- `g` takes over where `m` returns; an exception goes past it. -/
def bind : Coroutine σ κ ρ ε α → (α → Coroutine σ κ ρ ε β) → Coroutine σ κ ρ ε β
  | .done (.ok a), g => g a
  | .done (.error e), _ => .done (.error e)
  | .act f k, g => .act f fun s => (k s).bind g
  | .await c k, g => .await c fun r => (k r).bind g

instance : Monad (Coroutine σ κ ρ ε) where
  pure a := .done (.ok a)
  bind := bind

/-- A coroutine that has already returned or raised. -/
def lift (x : Except ε α) : Coroutine σ κ ρ ε α := .done x

/-- An effect that is not interrupted. -/
def atomic (m : Effect σ ε α) : Coroutine σ κ ρ ε α :=
  .act (fun s => (m s).2) fun s => .done (m s).1

/-- A call, and its reply. -/
def call (c : κ) : Coroutine σ κ ρ ε ρ := .await c .done

/-- The body of a `try`: its outcome, as a value. -/
def attempt : Coroutine σ κ ρ ε α → Coroutine σ κ ρ ε (Except ε α)
  | .done result => .done (.ok result)
  | .act f k => .act f fun s => (k s).attempt
  | .await c k => .await c fun r => (k r).attempt

/-- `m` if `c` holds; what it returns is not used. -/
def when (c : Bool) (m : Coroutine σ κ ρ ε α) : Coroutine σ κ ρ ε Unit := do
  if c then
    let _ ← m

/-! ## up to the next suspension -/

/-- Where a coroutine that has run has come to. -/
inductive Outcome (σ κ ρ ε α : Type) where
  | finished (result : Except ε α)
  | awaiting (c : κ) (k : Except ε ρ → Coroutine σ κ ρ ε α)

/-- What a coroutine does before it suspends or ends. -/
def advance : Coroutine σ κ ρ ε α → σ → Outcome σ κ ρ ε α × σ
  | .done result, s => (.finished result, s)
  | .act f k, s => (k s).advance (f s)
  | .await c k, s => (.awaiting c k, s)

/-- What comes after the first part, when it has run up to here. -/
def Outcome.continue (g : α → Coroutine σ κ ρ ε β) :
    Outcome σ κ ρ ε α × σ → Outcome σ κ ρ ε β × σ
  | (.finished (.ok a), s) => (g a).advance s
  | (.finished (.error e), s) => (.finished (.error e), s)
  | (.awaiting c k, s) => (.awaiting c fun r => (k r).bind g, s)

/-- The second part is reached if the first does not suspend. -/
theorem advance_bind (m : Coroutine σ κ ρ ε α) (g : α → Coroutine σ κ ρ ε β) (s : σ) :
    (m >>= g).advance s = Outcome.continue g (m.advance s) := by
  show (m.bind g).advance s = _
  induction m generalizing s with
  | done result => cases result <;> rfl
  | act f k ih => exact ih s (f s)
  | await c k => rfl

/-! ## running by itself -/

/-- Every `await` is answered at once, by someone with a state of its own. -/
def run (answer : κ → ω → Except ε ρ × ω) : Coroutine σ κ ρ ε α → Effect (σ × ω) ε α
  | .done result => Effect.lift result
  | .act f k => fun s => (k s.1).run answer (f s.1, s.2)
  | .await c k => fun s => (k (answer c s.2).1).run answer (s.1, (answer c s.2).2)

variable {answer : κ → ω → Except ε ρ × ω}

/-- Nothing comes between. -/
theorem run_atomic (m : Effect σ ε α) (s : σ × ω) :
    (atomic m : Coroutine σ κ ρ ε α).run answer s = ((m s.1).1, ((m s.1).2, s.2)) := rfl

/-- By induction on the first coroutine. -/
theorem run_bind (m : Coroutine σ κ ρ ε α) (g : α → Coroutine σ κ ρ ε β) :
    (m >>= g).run answer = (m.run answer >>= fun a => (g a).run answer) := by
  funext s
  show (m.bind g).run answer s = _
  induction m generalizing s with
  | done result => cases result <;> rfl
  | act f k ih => exact ih s.1 (f s.1, s.2)
  | await c k ih => exact ih _ (s.1, (answer c s.2).2)

/-- The exception is caught by either. -/
theorem run_attempt (m : Coroutine σ κ ρ ε α) :
    m.attempt.run answer = (m.run answer).attempt := by
  funext s
  induction m generalizing s with
  | done result => rfl
  | act f k ih => exact ih s.1 (f s.1, s.2)
  | await c k ih => exact ih _ (s.1, (answer c s.2).2)

/-! ## with the answers that came -/

/-- `m` started in `s`, was alone, and has come to this outcome and this state through
these exchanges. -/
inductive Alone (m : Coroutine σ κ ρ ε α) (s : σ) :
    List (κ × Except ε ρ) → Outcome σ κ ρ ε α → σ → Prop where
  | start : Alone m s [] (m.advance s).1 (m.advance s).2
  | reply {xs : List (κ × Except ε ρ)} {c : κ} {k : Except ε ρ → Coroutine σ κ ρ ε α} {s' : σ}
      (h : Alone m s xs (.awaiting c k) s') (r : Except ε ρ) :
      Alone m s (xs ++ [(c, r)]) ((k r).advance s').1 ((k r).advance s').2

/-- What is left to do. -/
def Outcome.run (answer : κ → ω → Except ε ρ × ω) :
    Outcome σ κ ρ ε α → Effect (σ × ω) ε α
  | .finished result => Effect.lift result
  | .awaiting c k => (Coroutine.await c k).run answer

/-- Running on from the first suspension. -/
theorem run_advance (m : Coroutine σ κ ρ ε α) (s : σ) (o : ω) :
    m.run answer (s, o) = (m.advance s).1.run answer ((m.advance s).2, o) := by
  induction m generalizing s with
  | done result => rfl
  | act f k ih => exact ih s (f s)
  | await c k => rfl

/-- The calls of these exchanges are answered with their replies. -/
def Conducts (answer : κ → ω → Except ε ρ × ω) :
    ω → List (κ × Except ε ρ) → ω → Prop
  | o, [], o' => o' = o
  | o, (c, r) :: xs, o' => ∃ m, answer c o = (r, m) ∧ Conducts answer m xs o'

/-- A conversation can be cut in two. -/
theorem conducts_append {o o' : ω} {xs ys : List (κ × Except ε ρ)} :
    Conducts answer o (xs ++ ys) o' ↔
      ∃ m, Conducts answer o xs m ∧ Conducts answer m ys o' := by
  induction xs generalizing o with
  | nil => simp [Conducts]
  | cons x xs ih =>
      simp only [List.cons_append, Conducts, ih]
      constructor
      · intro h
        obtain ⟨m, hm, m', hxs, hys⟩ := h
        exact ⟨m', ⟨m, hm, hxs⟩, hys⟩
      · intro h
        obtain ⟨m', ⟨m, hm, hxs⟩, hys⟩ := h
        exact ⟨m, hm, m', hxs, hys⟩

/-- What has been done and what is left to do are the whole. -/
theorem Alone.run_eq {m : Coroutine σ κ ρ ε α} {s s' : σ} {xs : List (κ × Except ε ρ)}
    {out : Outcome σ κ ρ ε α} (h : Alone m s xs out s') {o o' : ω}
    (hans : Conducts answer o xs o') : m.run answer (s, o) = out.run answer (s', o') := by
  induction h generalizing o' with
  | start =>
      rw [Conducts] at hans
      rw [hans, run_advance]
  | @reply xs c k s' h r ih =>
      obtain ⟨p, hxs, hlast⟩ := conducts_append.mp hans
      obtain ⟨q, hq, rfl⟩ := hlast
      rw [ih hxs, ← run_advance]
      show (k (answer c p).1).run answer (s', (answer c p).2) = _
      rw [hq]

/-- A coroutine that has finished ran as it would by itself. -/
theorem Alone.run_of_finished {m : Coroutine σ κ ρ ε α} {s s' : σ}
    {xs : List (κ × Except ε ρ)} {result : Except ε α} (h : Alone m s xs (.finished result) s')
    {o o' : ω} (hans : Conducts answer o xs o') : m.run answer (s, o) = (result, (s', o')) :=
  h.run_eq hans

/-- `m` started in `s`, others may have written whenever it was suspended, and it has come to
this outcome through these exchanges. -/
inductive Interleaved (m : Coroutine σ κ ρ ε α) (s : σ) :
    List (κ × Except ε ρ) → Outcome σ κ ρ ε α → Prop where
  | start : Interleaved m s [] (m.advance s).1
  | reply {xs : List (κ × Except ε ρ)} {c : κ} {k : Except ε ρ → Coroutine σ κ ρ ε α}
      (h : Interleaved m s xs (.awaiting c k)) (r : Except ε ρ) (s' : σ) :
      Interleaved m s (xs ++ [(c, r)]) ((k r).advance s').1

/-! ## what comes after a suspension -/

/-- Writes no more, and returns only what meets `P`; without `reads` it does not look at
the state. -/
def Quiet (reads : Bool) (P : α → Prop) : Coroutine σ κ ρ ε α → Prop
  | .done (.ok a) => P a
  | .done (.error _) => True
  | .act f k => reads = true ∧ (∀ s, f s = s) ∧ ∀ s, (k s).Quiet reads P
  | .await _ k => ∀ r, (k r).Quiet reads P

/-- Is quiet from its first suspension on, and returns only what meets `P` after it. -/
def WritesFirst (reads : Bool) (P : α → Prop) : Coroutine σ κ ρ ε α → Prop
  | .done _ => True
  | .act _ k => ∀ s, (k s).WritesFirst reads P
  | .await _ k => ∀ r, (k r).Quiet reads P

/-- What is left to do is quiet. -/
def Outcome.Quiet (reads : Bool) (P : α → Prop) : Outcome σ κ ρ ε α → Prop
  | .finished _ => True
  | .awaiting _ k => ∀ r, (k r).Quiet reads P

variable {reads : Bool} {P : α → Prop} {Q : β → Prop}

/-- What writes nothing writes first. -/
theorem Quiet.writesFirst {m : Coroutine σ κ ρ ε α} (h : m.Quiet reads P) :
    m.WritesFirst reads P := by
  induction m with
  | done result => trivial
  | act f k ih => exact fun s => ih s (h.2.2 s)
  | await c k => exact h

/-- What does not even read is quiet when it may. -/
theorem Quiet.reading {m : Coroutine σ κ ρ ε α} (h : m.Quiet false P) : m.Quiet true P := by
  induction m with
  | done result => cases result <;> exact h
  | act f k => exact absurd h.1 Bool.false_ne_true
  | await c k ih => exact fun r => ih r (h r)

/-- The same of what writes first. -/
theorem WritesFirst.reading {m : Coroutine σ κ ρ ε α} (h : m.WritesFirst false P) :
    m.WritesFirst true P := by
  induction m with
  | done result => trivial
  | act f k ih => exact fun s => ih s (h s)
  | await c k => exact fun r => (h r).reading

/-- A result. -/
theorem quiet_lift {x : Except ε α} (h : ∀ a, x = .ok a → P a) :
    (lift x : Coroutine σ κ ρ ε α).Quiet reads P := by
  cases x with
  | ok a => exact h a rfl
  | error e => trivial

/-- A value. -/
theorem quiet_pure {a : α} (h : P a) : (pure a : Coroutine σ κ ρ ε α).Quiet reads P := h

/-- Reading is quiet, where it is allowed. -/
theorem quiet_query (f : σ → Except ε α) :
    (atomic (Effect.query f) : Coroutine σ κ ρ ε α).Quiet true fun _ => True := by
  refine ⟨rfl, fun _ => rfl, fun s => ?_⟩
  show (lift (f s) : Coroutine σ κ ρ ε α).Quiet true fun _ => True
  exact quiet_lift fun _ _ => trivial

/-- A call, whatever the reply. -/
theorem quiet_call (c : κ) : (call c : Coroutine σ κ ρ ε ρ).Quiet reads fun _ => True := by
  intro r
  cases r <;> trivial

/-- One after the other is quiet. -/
theorem Quiet.bind {m : Coroutine σ κ ρ ε α} {g : α → Coroutine σ κ ρ ε β}
    (hm : m.Quiet reads P) (hg : ∀ a, P a → (g a).Quiet reads Q) : (m >>= g).Quiet reads Q := by
  show (m.bind g).Quiet reads Q
  induction m with
  | done result =>
      cases result with
      | ok a => exact hg a hm
      | error e => trivial
  | act f k ih => exact ⟨hm.1, hm.2.1, fun s => ih s (hm.2.2 s)⟩
  | await c k ih => exact fun r => ih r (hm r)

/-- An exception that is caught is no write. -/
theorem Quiet.attempt {m : Coroutine σ κ ρ ε α} (h : m.Quiet reads P) :
    m.attempt.Quiet reads fun _ => True := by
  induction m with
  | done result => trivial
  | act f k ih => exact ⟨h.1, h.2.1, fun s => ih s (h.2.2 s)⟩
  | await c k ih => exact fun r => ih r (h r)

/-- Whether it is run or not. -/
theorem Quiet.when {m : Coroutine σ κ ρ ε α} (h : m.Quiet reads P) (c : Bool) :
    (m.when c).Quiet reads fun _ => True := by
  unfold Coroutine.when
  split
  · exact h.bind fun _ _ => quiet_pure trivial
  · exact quiet_pure trivial

/-- An effect suspends nowhere. -/
theorem writesFirst_atomic (m : Effect σ ε α) :
    (atomic m : Coroutine σ κ ρ ε α).WritesFirst reads P := fun _ => trivial

/-- A result. -/
theorem writesFirst_lift (x : Except ε α) :
    (lift x : Coroutine σ κ ρ ε α).WritesFirst reads P := trivial

/-- A value. -/
theorem writesFirst_pure (a : α) : (pure a : Coroutine σ κ ρ ε α).WritesFirst reads P := trivial

/-- **Sequences.**  What comes after a suspension of the first part is quiet. -/
theorem WritesFirst.bind {m : Coroutine σ κ ρ ε α} {g : α → Coroutine σ κ ρ ε β}
    (hm : m.WritesFirst reads P) (hg : ∀ a, (g a).WritesFirst reads Q)
    (hquiet : ∀ a, P a → (g a).Quiet reads Q) : (m >>= g).WritesFirst reads Q := by
  show (m.bind g).WritesFirst reads Q
  induction m with
  | done result =>
      cases result with
      | ok a => exact hg a
      | error e => trivial
  | act f k ih => exact fun s => ih s (hm s)
  | await c k => exact fun r => (hm r).bind hquiet

/-- After a part that does not suspend, anything may come. -/
theorem writesFirst_atomic_bind {m : Effect σ ε α} {g : α → Coroutine σ κ ρ ε β}
    (hg : ∀ a, (g a).WritesFirst reads Q) :
    ((atomic m : Coroutine σ κ ρ ε α) >>= g).WritesFirst reads Q :=
  (writesFirst_atomic (P := fun _ => False) m).bind hg fun _ h => h.elim

/-- What comes first does not suspend. -/
theorem writesFirst_lift_bind {x : Except ε α} {g : α → Coroutine σ κ ρ ε β}
    (hg : ∀ a, (g a).WritesFirst reads Q) :
    ((lift x : Coroutine σ κ ρ ε α) >>= g).WritesFirst reads Q :=
  (writesFirst_lift (P := fun _ => False) x).bind hg fun _ h => h.elim

/-- On both branches. -/
theorem Quiet.ite {c : Prop} [Decidable c] {m m' : Coroutine σ κ ρ ε α} (hm : m.Quiet reads P)
    (hm' : m'.Quiet reads P) : (if c then m else m').Quiet reads P := by
  split
  · exact hm
  · exact hm'

/-- On both branches. -/
theorem WritesFirst.ite {c : Prop} [Decidable c] {m m' : Coroutine σ κ ρ ε α}
    (hm : m.WritesFirst reads P) (hm' : m'.WritesFirst reads P) :
    (if c then m else m').WritesFirst reads P := by
  split
  · exact hm
  · exact hm'

/-! ## what the others cannot tell -/

/-- Once it has suspended, it will not write. -/
theorem WritesFirst.advance {m : Coroutine σ κ ρ ε α} (h : m.WritesFirst reads P) (s : σ) :
    (m.advance s).1.Quiet reads P := by
  induction m generalizing s with
  | done result => trivial
  | act f k ih => exact ih s (h s) (f s)
  | await c k => exact h

/-- A quiet coroutine leaves the state alone. -/
theorem Quiet.advance_snd {m : Coroutine σ κ ρ ε α} (h : m.Quiet reads P) (s : σ) :
    (m.advance s).2 = s := by
  induction m generalizing s with
  | done result => rfl
  | act f k ih => exact (ih s (h.2.2 s) (f s)).trans (h.2.1 s)
  | await c k => rfl

/-- One that does not read goes on alike in all states. -/
theorem Quiet.advance_fst {m : Coroutine σ κ ρ ε α} (h : m.Quiet false P) (s s' : σ) :
    (m.advance s).1 = (m.advance s').1 := by
  cases m with
  | done result => rfl
  | act f k => exact absurd h.1 Bool.false_ne_true
  | await c k => rfl

/-- Nor does running it by itself change it. -/
theorem Quiet.run_snd {m : Coroutine σ κ ρ ε α} (h : m.Quiet reads P) (s : σ × ω) :
    (m.run answer s).2.1 = s.1 := by
  induction m generalizing s with
  | done result => rfl
  | act f k ih => exact (ih s.1 (h.2.2 s.1) (f s.1, s.2)).trans (h.2.1 s.1)
  | await c k ih => exact ih _ (h _) (s.1, (answer c s.2).2)

/-- What a coroutine does to the state, it has done when it first suspends: whoever
answers it has no part in that. -/
theorem WritesFirst.run_snd {m : Coroutine σ κ ρ ε α} (h : m.WritesFirst reads P) (s : σ × ω) :
    (m.run answer s).2.1 = (m.advance s.1).2 := by
  induction m generalizing s with
  | done result => rfl
  | act f k ih => exact ih s.1 (h s.1) (f s.1, s.2)
  | await c k => exact (h (answer c s.2).1).run_snd _

/-- One that neither writes nor reads after its first suspension has done what it would have
done alone. -/
theorem Interleaved.alone {m : Coroutine σ κ ρ ε α} {s : σ} {xs : List (κ × Except ε ρ)}
    {out : Outcome σ κ ρ ε α} (h : Interleaved m s xs out) (hwrites : m.WritesFirst false P) :
    out.Quiet false P ∧ Alone m s xs out (m.advance s).2 := by
  induction h with
  | start => exact ⟨hwrites.advance s, .start⟩
  | @reply xs c k h r s' ih =>
      obtain ⟨hquiet, halone⟩ := ih
      refine ⟨(hquiet r).writesFirst.advance s', ?_⟩
      have hreply := halone.reply r
      rw [(hquiet r).advance_snd] at hreply
      rw [(hquiet r).advance_fst s' (m.advance s).2]
      exact hreply

end Coroutine
