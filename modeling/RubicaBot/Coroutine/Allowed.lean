import RubicaBot.Coroutine.Threads

/-!
# RubicaBot.Coroutine.Allowed

What a coroutine may do: which calls it makes, and how it changes the state.

* `Allowed A W m s` — `m`, started in `s`, makes only calls in `A` and changes the state
  only along `W`, whatever it is answered and whatever others do while it waits;
* `Confined A W m` — the same from every state.

A part that depends on the state it is reached in is `Allowed` there; what it leads to, it
leads to directly or after a suspension (`Allowed.bind`).  However it is interrupted, a
coroutine keeps to what it is allowed (`Interleaved.allowed`).
-/

namespace Coroutine

variable {σ κ ρ ε α β : Type}

/-- From here on, the coroutine makes only calls in `A` and changes the state only along `W`. -/
def Allowed (A : κ → Prop) (W : σ → σ → Prop) : Coroutine σ κ ρ ε α → σ → Prop
  | .done _, _ => True
  | .act f k, s => W s (f s) ∧ (k s).Allowed A W (f s)
  | .await c k, _ => A c ∧ ∀ r s, (k r).Allowed A W s

/-- The same wherever it is started. -/
def Confined (A : κ → Prop) (W : σ → σ → Prop) (m : Coroutine σ κ ρ ε α) : Prop :=
  ∀ s, m.Allowed A W s

/-- What is left to do is allowed. -/
def Outcome.Confined (A : κ → Prop) (W : σ → σ → Prop) : Outcome σ κ ρ ε α → Prop
  | .finished _ => True
  | .awaiting c k => A c ∧ ∀ r, (k r).Confined A W

variable {A A' : κ → Prop} {W W' : σ → σ → Prop} {m : Coroutine σ κ ρ ε α}
  {g : α → Coroutine σ κ ρ ε β} {s : σ}

/-- What is allowed stays so if more is. -/
theorem Allowed.mono (h : m.Allowed A W s) (hA : ∀ c, A c → A' c)
    (hW : ∀ s s', W s s' → W' s s') : m.Allowed A' W' s := by
  induction m generalizing s with
  | done result => trivial
  | act f k ih => exact ⟨hW _ _ h.1, ih s h.2⟩
  | await c k ih => exact ⟨hA c h.1, fun r s' => ih r (h.2 r s')⟩

/-! ## how it comes about -/

/-- A value. -/
theorem confined_pure (a : α) : (pure a : Coroutine σ κ ρ ε α).Confined A W := fun _ => trivial

/-- A result. -/
theorem confined_lift (x : Except ε α) : (lift x : Coroutine σ κ ρ ε α).Confined A W :=
  fun _ => trivial

/-- A call that may be made. -/
theorem confined_call {c : κ} (h : A c) : (call c : Coroutine σ κ ρ ε ρ).Confined A W :=
  fun _ => ⟨h, fun _ _ => trivial⟩

/-- An effect that changes the state along `W`. -/
theorem confined_atomic {e : Effect σ ε α} (h : ∀ s, W s (e s).2) :
    (atomic e : Coroutine σ κ ρ ε α).Confined A W := fun s => ⟨h s, trivial⟩

/-- One after the other. -/
theorem Confined.bind (hm : m.Confined A W) (hg : ∀ a, (g a).Confined A W) :
    (m >>= g).Confined A W := by
  intro s
  have h := hm s
  clear hm
  show (m.bind g).Allowed A W s
  induction m generalizing s with
  | done result =>
      cases result with
      | ok a => exact hg a s
      | error e => trivial
  | act f k ih => exact ⟨h.1, ih s _ h.2⟩
  | await c k ih => exact ⟨h.1, fun r s' => ih r s' (h.2 r s')⟩

/-- An exception that is caught. -/
theorem Confined.attempt (hm : m.Confined A W) : m.attempt.Confined A W := by
  intro s
  have h := hm s
  clear hm
  induction m generalizing s with
  | done result => trivial
  | act f k ih => exact ⟨h.1, ih s _ h.2⟩
  | await c k ih => exact ⟨h.1, fun r s' => ih r s' (h.2 r s')⟩

/-- The condition may be used on either branch. -/
theorem Confined.ite {c : Prop} [Decidable c] {m' : Coroutine σ κ ρ ε α}
    (hm : c → m.Confined A W) (hm' : ¬ c → m'.Confined A W) :
    (if c then m else m').Confined A W := by
  split
  · next h => exact hm h
  · next h => exact hm' h

/-- And here as well. -/
theorem confined_when {c : Bool} (h : c = true → m.Confined A W) : (m.when c).Confined A W := by
  unfold Coroutine.when
  exact Confined.ite (fun hc => (h hc).bind fun _ => confined_pure _) fun _ => confined_pure _

/-- What is read decides what is allowed after it. -/
theorem allowed_atomic_bind {e : Effect σ ε α} (hW : W s (e s).2)
    (hg : ∀ a, (e s).1 = .ok a → (g a).Allowed A W (e s).2) :
    ((atomic e : Coroutine σ κ ρ ε α) >>= g).Allowed A W s := by
  refine ⟨hW, ?_⟩
  show ((Coroutine.done (e s).1).bind g).Allowed A W (e s).2
  cases hresult : (e s).1 with
  | ok a => exact hg a hresult
  | error err => trivial

/-- A result does not suspend, so what follows is reached in the same state. -/
theorem allowed_lift_bind {x : Except ε α} (hg : ∀ a, x = .ok a → (g a).Allowed A W s) :
    ((lift x : Coroutine σ κ ρ ε α) >>= g).Allowed A W s := by
  show ((Coroutine.done x).bind g).Allowed A W s
  cases x with
  | ok a => exact hg a rfl
  | error err => trivial

/-- After a suspension only the results are known. -/
theorem Allowed.bind_of_quiet {reads : Bool} {P : α → Prop} (hm : m.Allowed A W s)
    (hquiet : m.Quiet reads P) (hg : ∀ a, P a → (g a).Confined A W) :
    (m >>= g).Allowed A W s := by
  show (m.bind g).Allowed A W s
  induction m generalizing s with
  | done result =>
      cases result with
      | ok a => exact hg a hquiet s
      | error e => trivial
  | act f k ih => exact ⟨hm.1, ih s hm.2 (hquiet.2.2 s)⟩
  | await c k ih => exact ⟨hm.1, fun r s' => ih r (hm.2 r s') (hquiet r)⟩

/-- **Sequences.**  What follows is reached directly, or after a suspension with a result
that meets `P`. -/
theorem Allowed.bind {reads : Bool} {P : α → Prop} (hm : m.Allowed A W s)
    (hdirect : ∀ a s', m.advance s = (.finished (.ok a), s') → (g a).Allowed A W s')
    (hwrites : m.WritesFirst reads P) (hlater : ∀ a, P a → (g a).Confined A W) :
    (m >>= g).Allowed A W s := by
  show (m.bind g).Allowed A W s
  induction m generalizing s with
  | done result =>
      cases result with
      | ok a => exact hdirect a s rfl
      | error e => trivial
  | act f k ih => exact ⟨hm.1, ih s hm.2 hdirect (hwrites s)⟩
  | await c k => exact ⟨hm.1, fun r s' => (hm.2 r s').bind_of_quiet (hwrites r) hlater⟩

/-! ## what it leads to -/

/-- Up to the first suspension the state has changed along `W`. -/
theorem Allowed.advance_snd (hrefl : ∀ s, W s s)
    (htrans : ∀ s₁ s₂ s₃, W s₁ s₂ → W s₂ s₃ → W s₁ s₃) (h : m.Allowed A W s) :
    W s (m.advance s).2 := by
  induction m generalizing s with
  | done result => exact hrefl s
  | act f k ih => exact htrans _ _ _ h.1 (ih s h.2)
  | await c k => exact hrefl s

/-- After the first suspension the state may be any. -/
theorem Allowed.advance_fst (h : m.Allowed A W s) : (m.advance s).1.Confined A W := by
  induction m generalizing s with
  | done result => trivial
  | act f k ih => exact ih s h.2
  | await c k => exact h

/-- Interruptions do not matter: what has been called is allowed, and so is what is left. -/
theorem Interleaved.allowed {xs : List (κ × Except ε ρ)} {out : Outcome σ κ ρ ε α}
    (h : Interleaved m s xs out) (hm : m.Allowed A W s) :
    (∀ x ∈ xs, A x.1) ∧ out.Confined A W := by
  induction h with
  | start => exact ⟨nofun, hm.advance_fst⟩
  | @reply xs c k h r s' ih =>
      obtain ⟨hcalls, hc, hconfined⟩ := ih
      refine ⟨fun x hx => ?_, (hconfined r s').advance_fst⟩
      obtain hx | hx := List.mem_append.mp hx
      · exact hcalls x hx
      · rw [List.mem_singleton.mp hx]
        exact hc

/-- What a thread waits for is the reply to an allowed call. -/
theorem Outcome.Confined.of_waitsFor {t : Thread σ κ ρ ε α} (h : t.outcome.Confined A W) {c : κ}
    (hc : t.waitsFor = some c) : A c := by
  unfold Thread.waitsFor at hc
  split at hc
  · next c' k houtcome =>
      cases hc
      rw [houtcome] at h
      exact h.1
  · cases hc

end Coroutine
