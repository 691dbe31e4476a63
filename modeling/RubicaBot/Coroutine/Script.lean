import RubicaBot.Coroutine.Threads

/-!
# RubicaBot.Coroutine.Script

Coroutines that know their calls in advance.

* `Recites P cs m` — `m` makes the calls `cs`, one after another, whatever the replies are,
  and then returns something that meets `P`; an exception ends it;
* `Follows P cs xs out` — this is how far such a coroutine has come.

A coroutine may come to its script only after it has read the state, so what recites is
where it comes to (`Outcome.Recites`).  From there on nobody can make it do anything else
(`Interleaved.follows`).
-/

namespace Coroutine

variable {σ κ ρ ε α β : Type}

/-- The coroutine makes these calls in this order; a call that raises is the last. -/
inductive Recites (P : α → Prop) : List κ → Coroutine σ κ ρ ε α → Prop where
  | returns {a : α} (h : P a) : Recites P [] (.done (.ok a))
  | calls {c : κ} {cs : List κ} {k : Except ε ρ → Coroutine σ κ ρ ε α}
      (hraised : ∀ e, k (.error e) = .done (.error e)) (hgoesOn : ∀ r, Recites P cs (k (.ok r))) :
      Recites P (c :: cs) (.await c k)

/-- What is left to do recites. -/
def Outcome.Recites (P : α → Prop) (cs : List κ) : Outcome σ κ ρ ε α → Prop
  | .finished result => Coroutine.Recites P cs (.done result : Coroutine σ κ ρ ε α)
  | .awaiting c k => Coroutine.Recites P cs (.await c k)

/-- The calls have been made as far as the replies allow. -/
inductive Follows (P : α → Prop) (cs : List κ) :
    List (κ × Except ε ρ) → Outcome σ κ ρ ε α → Prop where
  | onTrack {xs : List (κ × Except ε ρ)} {rest : List κ} {out : Outcome σ κ ρ ε α}
      (hcalls : xs.map Prod.fst ++ rest = cs) (hreplies : ∀ x ∈ xs, x.2.isOk)
      (hrest : out.Recites P rest) : Follows P cs xs out
  | raised {xs : List (κ × Except ε ρ)} {rest : List κ} {c : κ} {e : ε}
      (hcalls : xs.map Prod.fst ++ c :: rest = cs) (hreplies : ∀ x ∈ xs, x.2.isOk) :
      Follows P cs (xs ++ [(c, .error e)]) (.finished (.error e))

variable {P : α → Prop} {Q : β → Prop} {cs cs' : List κ} {m : Coroutine σ κ ρ ε α}
  {g : α → Coroutine σ κ ρ ε β}

/-! ## how it comes about -/

/-- There is nothing to call. -/
theorem recites_pure {a : α} (h : P a) : (pure a : Coroutine σ κ ρ ε α).Recites P [] := .returns h

/-- A single call. -/
theorem recites_call (c : κ) : (call c : Coroutine σ κ ρ ε ρ).Recites (fun _ => True) [c] :=
  .calls (fun _ => rfl) fun _ => .returns trivial

/-- Scripts are put together. -/
theorem Recites.bind (hm : m.Recites P cs) (hg : ∀ a, P a → (g a).Recites Q cs') :
    (m >>= g).Recites Q (cs ++ cs') := by
  show (m.bind g).Recites Q (cs ++ cs')
  induction hm with
  | returns h => exact hg _ h
  | @calls c cs k hraised hgoesOn ih =>
      refine .calls (fun e => ?_) ih
      rw [hraised]
      rfl

/-- The calls are made, or none is. -/
theorem Recites.when (hm : m.Recites P cs) (c : Bool) :
    (m.when c).Recites (fun _ => True) (if c then cs else []) := by
  cases c with
  | false => exact recites_pure trivial
  | true =>
      rw [if_pos rfl, ← List.append_nil cs]
      exact hm.bind fun _ _ => recites_pure trivial

/-- What recites has nothing to do before its first call. -/
theorem Recites.advance (hm : m.Recites P cs) (s : σ) : (m.advance s).1.Recites P cs := by
  cases hm with
  | returns h => exact Recites.returns h
  | calls hraised hgoesOn => exact Recites.calls hraised hgoesOn

/-- What follows a part that has come to its script. -/
theorem recites_advance_bind {s : σ} (hm : (m.advance s).1.Recites P cs)
    (hg : ∀ a, P a → (g a).Recites Q cs') : ((m >>= g).advance s).1.Recites Q (cs ++ cs') := by
  rw [advance_bind]
  generalize m.advance s = x at hm ⊢
  obtain ⟨out, s'⟩ := x
  cases out with
  | finished result =>
      cases hm with
      | returns h => exact (hg _ h).advance s'
  | awaiting c k => exact hm.bind hg

/-- A part that returns before it suspends has no calls in the script. -/
theorem advance_bind_of_finished {s s' : σ} {a : α} (h : m.advance s = (.finished (.ok a), s')) :
    (m >>= g).advance s = (g a).advance s' := by
  rw [advance_bind, h]
  rfl

/-! ## what it leads to -/

/-- **The script is kept to**, however the coroutine is interrupted. -/
theorem Interleaved.follows {s : σ} {xs : List (κ × Except ε ρ)} {out : Outcome σ κ ρ ε α}
    (h : Interleaved m s xs out) (hm : (m.advance s).1.Recites P cs) : Follows P cs xs out := by
  induction h with
  | start => exact .onTrack rfl nofun hm
  | @reply xs c k h r s' ih =>
      cases ih with
      | onTrack hcalls hreplies hrest =>
          cases hrest with
          | @calls _ rest _ hraised hgoesOn =>
              cases r with
              | error e =>
                  -- nothing catches it, so this exchange is the last
                  rw [hraised]
                  exact .raised hcalls hreplies
              | ok r =>
                  have hmade : (xs ++ [(c, Except.ok r)]).map Prod.fst ++ rest = cs := by
                    rw [List.map_append, List.append_assoc]
                    exact hcalls
                  refine .onTrack hmade (fun x hx => ?_) ((hgoesOn r).advance s')
                  obtain hx | hx := List.mem_append.mp hx
                  · exact hreplies x hx
                  · rw [List.mem_singleton.mp hx]
                    rfl

end Coroutine

namespace Thread

variable {σ κ ρ ε α : Type}

/-- The calls that a thread has made, answered or not. -/
def calls (t : Thread σ κ ρ ε α) : List κ := t.exchanges.map Prod.fst ++ t.waitsFor.toList

/-- The thread makes these calls, one after another, until it is told an exception. -/
structure Executes (t : Thread σ κ ρ ε α) (cs : List κ) : Prop where
  inOrder : t.calls <+: cs
  answered : (∀ e, t.result ≠ some (.error e)) → ∀ x ∈ t.exchanges, x.2.isOk
  returned : ∀ a, t.result = some (.ok a) → t.calls = cs
  raised : ∀ e, t.result = some (.error e) →
    ∃ xs c, t.exchanges = xs ++ [(c, .error e)] ∧ ∀ x ∈ xs, x.2.isOk

/-- A thread executes what its program follows. -/
theorem Executes.of_follows {t : Thread σ κ ρ ε α} {P : α → Prop} {cs : List κ}
    (h : Coroutine.Follows P cs t.exchanges t.outcome) : t.Executes cs := by
  obtain ⟨program, startedIn, exchanges, outcome⟩ := t
  cases h with
  | onTrack hcalls hreplies hrest =>
      subst hcalls
      cases outcome with
      | finished result =>
          cases hrest with
          | returns h => exact ⟨List.prefix_rfl, fun _ => hreplies, fun _ _ => rfl, nofun⟩
      | awaiting c k =>
          cases hrest with
          | @calls _ rest _ hraised hgoesOn =>
              refine ⟨⟨rest, ?_⟩, fun _ => hreplies, nofun, nofun⟩
              exact List.append_assoc _ [c] rest
  | @raised xs rest c e hcalls hreplies =>
      subst hcalls
      refine ⟨⟨rest, ?_⟩, fun hnone => absurd rfl (hnone e), nofun, fun e' he => ?_⟩
      · show List.map Prod.fst (xs ++ [(c, .error e)]) ++ [] ++ rest = _
        rw [List.map_append, List.append_nil, List.append_assoc]
        rfl
      · cases he
        exact ⟨xs, c, rfl, hreplies⟩

end Thread
