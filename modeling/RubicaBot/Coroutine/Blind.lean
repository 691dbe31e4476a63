import RubicaBot.Coroutine

/-!
# RubicaBot.Coroutine.Blind

What a coroutine does not see.

`Blind R P m` compares two runs of `m`, up to the first suspension, from states that `R`
relates: the states stay related, and the runs come to the same outcome, or both have
settled, that is, neither will write any more, nor return anything but what meets `P`.
So what the runs do differently they do after their last write (`Blind.bind`).
-/

namespace Coroutine

variable {σ κ ρ ε α β : Type}

/-- What is left to do writes nothing and returns only what meets `P`. -/
def Outcome.Settled (P : α → Prop) : Outcome σ κ ρ ε α → Prop
  | .finished (.ok a) => P a
  | .finished (.error _) => True
  | .awaiting _ k => ∀ r, (k r).Quiet true P

/-- The two runs have come to the same, or have settled. -/
structure Alike (R : σ → σ → Prop) (P : α → Prop) (x y : Outcome σ κ ρ ε α × σ) : Prop where
  states : R x.2 y.2
  outcomes : x.1 = y.1 ∨ x.1.Settled P ∧ y.1.Settled P

/-- Related states make no difference to the coroutine, or none before its last write. -/
def Blind (R : σ → σ → Prop) (P : α → Prop) (m : Coroutine σ κ ρ ε α) : Prop :=
  ∀ s s', R s s' → Alike R P (m.advance s) (m.advance s')

variable {R : σ → σ → Prop} {P : α → Prop} {Q : β → Prop} {m : Coroutine σ κ ρ ε α}
  {g : α → Coroutine σ κ ρ ε β}

/-! ## how it comes about -/

/-- A result. -/
theorem blind_lift (x : Except ε α) : (lift x : Coroutine σ κ ρ ε α).Blind R P :=
  fun _ _ h => ⟨h, .inl rfl⟩

/-- A value. -/
theorem blind_pure (a : α) : (pure a : Coroutine σ κ ρ ε α).Blind R P := fun _ _ h => ⟨h, .inl rfl⟩

/-- An effect that does the same to related states. -/
theorem blind_atomic {e : Effect σ ε α}
    (h : ∀ s s', R s s' → (e s).1 = (e s').1 ∧ R (e s).2 (e s').2) :
    (atomic e : Coroutine σ κ ρ ε α).Blind R P := by
  intro s s' hR
  obtain ⟨hresult, hstate⟩ := h s s' hR
  exact ⟨hstate, .inl (congrArg Outcome.finished hresult)⟩

/-- What only reads has settled. -/
theorem Quiet.settled (h : m.Quiet true P) (s : σ) : (m.advance s).1.Settled P := by
  induction m generalizing s with
  | done result => cases result <;> exact h
  | act f k ih => exact ih s (h.2.2 s) (f s)
  | await c k => exact h

/-- What is quiet may look at anything. -/
theorem Quiet.blind (h : m.Quiet true P) : m.Blind R P := by
  intro s s' hR
  refine ⟨?_, .inr ⟨h.settled s, h.settled s'⟩⟩
  rw [h.advance_snd s, h.advance_snd s']
  exact hR

/-- On both branches, if the condition does not depend on the state. -/
theorem Blind.ite {c : Prop} [Decidable c] {m' : Coroutine σ κ ρ ε α} (hm : m.Blind R P)
    (hm' : m'.Blind R P) : (if c then m else m').Blind R P := by
  split
  · exact hm
  · exact hm'

/-! ## sequences -/

/-- A settled part is followed by nothing that writes. -/
theorem Outcome.Settled.continue {out : Outcome σ κ ρ ε α} (h : out.Settled P)
    (hg : ∀ a, P a → (g a).Quiet true Q) (s : σ) :
    (Outcome.continue g (out, s)).1.Settled Q ∧ (Outcome.continue g (out, s)).2 = s := by
  cases out with
  | finished result =>
      cases result with
      | ok a => exact ⟨(hg a h).settled s, (hg a h).advance_snd s⟩
      | error e => exact ⟨trivial, rfl⟩
  | awaiting c k => exact ⟨fun r => (h r).bind hg, rfl⟩

/-- If the first part has come to the same, the second is blind; if it has settled, the second
must be quiet. -/
theorem Alike.continue {x y : Outcome σ κ ρ ε α × σ} (h : Alike R P x y)
    (hg : ∀ a, (g a).Blind R Q) (hquiet : ∀ a, P a → (g a).Quiet true Q) :
    Alike R Q (Outcome.continue g x) (Outcome.continue g y) := by
  obtain ⟨out, s⟩ := x
  obtain ⟨out', s'⟩ := y
  obtain ⟨hstates, rfl | ⟨hsettled, hsettled'⟩⟩ := h
  · cases out with
    | finished result =>
        cases result with
        | ok a => exact hg a s s' hstates
        | error e => exact ⟨hstates, .inl rfl⟩
    | awaiting c k => exact ⟨hstates, .inl rfl⟩
  · obtain ⟨hout, hstate⟩ := hsettled.continue hquiet s
    obtain ⟨hout', hstate'⟩ := hsettled'.continue hquiet s'
    refine ⟨?_, .inr ⟨hout, hout'⟩⟩
    rw [hstate, hstate']
    exact hstates

/-- **Sequences.**  What follows a part must be blind, and quiet once that part has
settled. -/
theorem Blind.bind (hm : m.Blind R P) (hg : ∀ a, (g a).Blind R Q)
    (hquiet : ∀ a, P a → (g a).Quiet true Q) : (m >>= g).Blind R Q := by
  intro s s' hR
  rw [advance_bind, advance_bind]
  exact (hm s s' hR).continue hg hquiet

/-- After a part that comes to the same. -/
theorem blind_atomic_bind {e : Effect σ ε α}
    (h : ∀ s s', R s s' → (e s).1 = (e s').1 ∧ R (e s).2 (e s').2) (hg : ∀ a, (g a).Blind R Q) :
    ((atomic e : Coroutine σ κ ρ ε α) >>= g).Blind R Q :=
  (blind_atomic (P := fun _ => False) h).bind hg fun _ hfalse => hfalse.elim

/-- A result is the same in both. -/
theorem blind_lift_bind {x : Except ε α} (hg : ∀ a, (g a).Blind R Q) :
    ((lift x : Coroutine σ κ ρ ε α) >>= g).Blind R Q :=
  (blind_lift (P := fun _ => False) x).bind hg fun _ hfalse => hfalse.elim

end Coroutine
