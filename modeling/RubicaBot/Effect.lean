/-!
# RubicaBot.Effect

Computations that read and write a state and may raise.  An exception undoes
nothing: the state is the one it was raised in.

* `Preserves I m` — `m` keeps the invariant `I`, whether it returns or raises;
* `Leaves f m` — `m` does not touch the part `f` of the state;
* `Answers I m x` — where `I` holds, `m` comes to `x` and keeps `I`.

They are closed under every way computations are put together, so a program
proves them of its own operations only.
This module depends only on the Lean 4 core library.
-/

/-- A computation over states `σ` that may raise an `ε`. -/
def Effect (σ ε α : Type) := σ → Except ε α × σ

namespace Effect

variable {σ τ ε α β : Type}

instance : Monad (Effect σ ε) where
  pure a := fun s => (.ok a, s)
  bind m k := fun s =>
    match m s with
    | (.ok a, s') => k a s'
    | (.error e, s') => (.error e, s')

/-- A computation that has already returned or raised. -/
def lift (x : Except ε α) : Effect σ ε α := fun s => (x, s)

/-- Reading the state, which may raise. -/
def query (f : σ → Except ε α) : Effect σ ε α := fun s => (f s, s)

/-- Changing the state. -/
def update (f : σ → σ) : Effect σ ε Unit := fun s => (.ok (), f s)

/-- A write that may raise, and then writes nothing. -/
def tryUpdate (f : σ → Except ε σ) : Effect σ ε Unit := fun s =>
  match f s with
  | .ok s' => (.ok (), s')
  | .error e => (.error e, s)

/-- `m` if `c` holds; what it returns is not used. -/
def when (c : Bool) (m : Effect σ ε α) : Effect σ ε Unit := do
  if c then
    let _ ← m

/-- The body of a `try`: its outcome, as a value. -/
def attempt (m : Effect σ ε α) : Effect σ ε (Except ε α) := fun s => (.ok (m s).1, (m s).2)

/-! ## running -/

@[simp] theorem pure_apply (a : α) (s : σ) : (pure a : Effect σ ε α) s = (.ok a, s) := rfl

/-- A write that succeeds. -/
theorem tryUpdate_of_ok {f : σ → Except ε σ} {s s' : σ} (h : f s = .ok s') :
    tryUpdate f s = (.ok (), s') := by
  rw [tryUpdate, h]

/-- A write that raises changes nothing. -/
theorem tryUpdate_of_error {f : σ → Except ε σ} {s : σ} {e : ε} (h : f s = .error e) :
    tryUpdate f s = (.error e, s) := by
  rw [tryUpdate, h]

/-- What follows is run in the state that is left. -/
theorem bind_apply (m : Effect σ ε α) (k : α → Effect σ ε β) (s : σ) :
    (m >>= k) s = match m s with
      | (.ok a, s') => k a s'
      | (.error e, s') => (.error e, s') := rfl

/-- It is run if the first has returned. -/
theorem bind_of_ok {m : Effect σ ε α} {k : α → Effect σ ε β} {s s' : σ} {a : α}
    (h : m s = (.ok a, s')) : (m >>= k) s = k a s' := by
  rw [bind_apply, h]

/-- And not if it has raised. -/
theorem bind_of_error {m : Effect σ ε α} {k : α → Effect σ ε β} {s s' : σ} {e : ε}
    (h : m s = (.error e, s')) : (m >>= k) s = (.error e, s') := by
  rw [bind_apply, h]

@[simp] theorem when_true (m : Effect σ ε α) : m.when true = (do let _ ← m) := rfl

/-- Returning something else after `m` does not change the state. -/
theorem bind_pure_snd (m : Effect σ ε α) (a : β) (s : σ) :
    ((do let _ ← m; pure a : Effect σ ε β) s).2 = (m s).2 := by
  rw [bind_apply]
  cases m s with
  | mk result s' => cases result <;> rfl

/-- `m` does not return `b`. -/
def Never (b : α) (m : Effect σ ε α) : Prop := ∀ s, (m s).1 ≠ .ok b

/-- A value that is not another. -/
theorem never_pure {a b : α} (h : b ≠ a) : Never b (pure a : Effect σ ε α) :=
  fun _ hb => h (Except.ok.inj hb).symm

/-- What comes last decides. -/
theorem never_bind {m : Effect σ ε α} {k : α → Effect σ ε β} {b : β} (hk : ∀ a, Never b (k a)) :
    Never b (m >>= k) := by
  intro s
  rw [bind_apply]
  cases m s with
  | mk result s' =>
      cases result with
      | ok a => exact hk a s'
      | error e => exact nofun

/-- What has not raised has returned. -/
theorem exists_of_isOk {x : Except ε α} (h : x.isOk = true) : ∃ a, x = .ok a := by
  cases x with
  | ok a => exact ⟨a, rfl⟩
  | error e => cases h

/-- What a chain of partial computations returned, its first link returned. -/
theorem exists_of_bind_eq_ok {x : Except ε α} {k : α → Except ε β} {b : β}
    (h : (x >>= k) = .ok b) : ∃ a, x = .ok a ∧ k a = .ok b := by
  cases x with
  | error e => cases h
  | ok a => exact ⟨a, rfl, h⟩

/-- Both have to return. -/
theorem bind_eq_ok_iff {x : Except ε α} {k : α → Except ε β} {b : β} :
    (x >>= k) = .ok b ↔ ∃ a, x = .ok a ∧ k a = .ok b := by
  constructor
  · exact exists_of_bind_eq_ok
  · intro h
    obtain ⟨a, hx, hk⟩ := h
    rw [hx]
    exact hk

/-- One of them has raised. -/
theorem bind_eq_error_iff {x : Except ε α} {k : α → Except ε β} {e : ε} :
    (x >>= k) = .error e ↔ x = .error e ∨ ∃ a, x = .ok a ∧ k a = .error e := by
  cases x with
  | error e' => simp [bind, Except.bind]
  | ok a => simp [bind, Except.bind]

/-- A function cannot make an exception of a value. -/
theorem map_eq_ok_iff {x : Except ε α} {f : α → β} {b : β} :
    x.map f = .ok b ↔ ∃ a, x = .ok a ∧ f a = b := by
  cases x <;> simp [Except.map]

/-- Nor a value of an exception. -/
theorem map_eq_error_iff {x : Except ε α} {f : α → β} {e : ε} :
    x.map f = .error e ↔ x = .error e := by
  cases x <;> simp [Except.map]

/-- A partial map that returns at every element returns what it returns there. -/
theorem mapM_eq_ok_filterMap {f : α → Except ε β} {g : α → Option β} {as : List α}
    (h : ∀ a ∈ as, ∃ b, f a = .ok b ∧ g a = some b) : as.mapM f = .ok (as.filterMap g) := by
  induction as with
  | nil => rfl
  | cons a as ih =>
      obtain ⟨b, hf, hg⟩ := h a List.mem_cons_self
      rw [List.mapM_cons, hf, ih fun a' ha' => h a' (List.mem_cons_of_mem _ ha'),
        List.filterMap_cons_some hg]
      rfl

/-- A search that gives up unless `c` found something: `c` held. -/
theorem ite_none_eq_some_iff {c : Prop} [Decidable c] {x : Except ε (Option α)} {a : α} :
    (if c then x else pure none) = .ok (some a) ↔ c ∧ x = .ok (some a) := by
  split <;> simp_all [pure, Except.pure]

/-- A guard that returns early has been passed. -/
theorem ite_not_none_eq_some_iff {c : Prop} [Decidable c] {x : Except ε (Option α)} {a : α} :
    (if c then pure none else x) = .ok (some a) ↔ ¬ c ∧ x = .ok (some a) := by
  split <;> simp_all [pure, Except.pure]

/-! ## invariants -/

/-- `m` keeps the invariant. -/
def Preserves (I : σ → Prop) (m : Effect σ ε α) : Prop := ∀ s, I s → I (m s).2

/-- What holds after `m`, returned or raised, and is kept by what follows. -/
theorem bind_of_preserves {I : σ → Prop} {m : Effect σ ε α} {k : α → Effect σ ε β} {s : σ}
    (hm : I (m s).2) (hk : ∀ a, Preserves I (k a)) : I ((m >>= k) s).2 := by
  rw [bind_apply]
  cases h : m s with
  | mk result s' =>
      rw [h] at hm
      cases result with
      | ok a => exact hk a s' hm
      | error e => exact hm

/-- One after the other keeps it. -/
theorem Preserves.bind {I : σ → Prop} {m : Effect σ ε α} {k : α → Effect σ ε β}
    (hm : Preserves I m) (hk : ∀ a, Preserves I (k a)) : Preserves I (m >>= k) :=
  fun s hs => bind_of_preserves (hm s hs) hk

/-- A value keeps everything. -/
theorem preserves_pure (I : σ → Prop) (a : α) : Preserves I (pure a : Effect σ ε α) :=
  fun _ hs => hs

/-- It is kept whether the computation is run or not. -/
theorem Preserves.when {I : σ → Prop} {m : Effect σ ε α} (hm : Preserves I m) (c : Bool) :
    Preserves I (m.when c) := by
  unfold Effect.when
  split
  · exact hm.bind fun _ => preserves_pure I _
  · exact preserves_pure I _

/-! ## frames -/

/-- `m` does not touch `f`. -/
def Leaves (f : σ → τ) (m : Effect σ ε α) : Prop := ∀ s, f (m s).2 = f s

/-- An invariant of the part that is left alone is kept. -/
theorem Leaves.preserves {f : σ → τ} {m : Effect σ ε α} (h : Leaves f m) {I : σ → Prop}
    (hI : ∀ s s', f s' = f s → I s → I s') : Preserves I m :=
  fun s hs => hI s (m s).2 (h s) hs

/-- Leaving `f` alone is keeping each value that it has. -/
theorem leaves_iff_preserves {f : σ → τ} {m : Effect σ ε α} :
    Leaves f m ↔ ∀ v, Preserves (fun s => f s = v) m := by
  constructor
  · intro h v s hs
    exact (h s).trans hs
  · intro h s
    exact h (f s) s rfl

/-- A value leaves everything alone. -/
theorem leaves_pure (f : σ → τ) (a : α) : Leaves f (pure a : Effect σ ε α) := fun _ => rfl

/-- So does a result. -/
theorem leaves_lift (f : σ → τ) (x : Except ε α) : Leaves f (lift x : Effect σ ε α) := fun _ => rfl

/-- And so does reading. -/
theorem leaves_query (f : σ → τ) (g : σ → Except ε α) : Leaves f (query g) := fun _ => rfl

/-- A change leaves alone what does not depend on it. -/
theorem leaves_update {f : σ → τ} {g : σ → σ} (h : ∀ s, f (g s) = f s) :
    Leaves f (update g : Effect σ ε Unit) := h

/-- And so does one that may raise. -/
theorem leaves_tryUpdate {f : σ → τ} {g : σ → Except ε σ} (h : ∀ s s', g s = .ok s' → f s' = f s) :
    Leaves f (tryUpdate g) := by
  intro s
  cases hg : g s with
  | ok s' =>
      rw [tryUpdate_of_ok hg]
      exact h s s' hg
  | error e => rw [tryUpdate_of_error hg]

/-- One after the other leaves it alone. -/
theorem Leaves.bind {f : σ → τ} {m : Effect σ ε α} {k : α → Effect σ ε β} (hm : Leaves f m)
    (hk : ∀ a, Leaves f (k a)) : Leaves f (m >>= k) :=
  leaves_iff_preserves.mpr fun v =>
    (leaves_iff_preserves.mp hm v).bind fun a => leaves_iff_preserves.mp (hk a) v

/-- An exception that is caught leaves it alone as well. -/
theorem Leaves.attempt {f : σ → τ} {m : Effect σ ε α} (hm : Leaves f m) : Leaves f m.attempt := hm

/-- Whether the computation is run or not. -/
theorem Leaves.when {f : σ → τ} {m : Effect σ ε α} (hm : Leaves f m) (c : Bool) :
    Leaves f (m.when c) :=
  leaves_iff_preserves.mpr fun v => (leaves_iff_preserves.mp hm v).when c

/-- On both branches. -/
theorem Leaves.ite {f : σ → τ} {c : Prop} [Decidable c] {m m' : Effect σ ε α} (hm : Leaves f m)
    (hm' : Leaves f m') : Leaves f (if c then m else m') := by
  split
  · exact hm
  · exact hm'

/-! ## answers -/

/-- Where the invariant holds, `m` returns or raises `x`, and keeps it. -/
def Answers (I : σ → Prop) (m : Effect σ ε α) (x : Except ε α) : Prop :=
  ∀ s, I s → (m s).1 = x ∧ I (m s).2

variable {I : σ → Prop}

/-- A value. -/
theorem answers_pure (a : α) : Answers I (pure a : Effect σ ε α) (pure a) := fun _ hs => ⟨rfl, hs⟩

/-- A result. -/
theorem answers_lift (x : Except ε α) : Answers I (lift x : Effect σ ε α) x := fun _ hs => ⟨rfl, hs⟩

/-- Reading what the invariant fixes. -/
theorem answers_query {f : σ → Except ε α} {x : Except ε α} (h : ∀ s, I s → f s = x) :
    Answers I (query f) x := fun s hs => ⟨h s hs, hs⟩

/-- The answer is used in the next computation. -/
theorem Answers.bind {m : Effect σ ε α} {x : Except ε α} {k : α → Effect σ ε β}
    {h : α → Except ε β} (hm : Answers I m x) (hk : ∀ a, x = .ok a → Answers I (k a) (h a)) :
    Answers I (m >>= k) (x >>= h) := by
  intro s hs
  obtain ⟨hresult, hstate⟩ := hm s hs
  cases hrun : m s with
  | mk result s' =>
      rw [hrun] at hresult hstate
      cases hresult
      cases result with
      | ok a =>
          rw [bind_of_ok hrun]
          exact hk a rfl s' hstate
      | error e =>
          rw [bind_of_error hrun]
          exact ⟨rfl, hstate⟩

/-- The branch is the same. -/
theorem Answers.ite {c : Prop} [Decidable c] {m m' : Effect σ ε α} {x x' : Except ε α}
    (hm : c → Answers I m x) (hm' : ¬ c → Answers I m' x') :
    Answers I (if c then m else m') (if c then x else x') := by
  split
  · next h => exact hm h
  · next h => exact hm' h

end Effect
