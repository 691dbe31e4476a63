import RubicaBot.Coroutine
import RubicaBot.Transition

/-!
# RubicaBot.Coroutine.Threads

Any number of coroutines on one state, and any interleaving of them: a coroutine may be
started at any time, and one that awaits something may be answered, at any time and with
anything.

If all of them write first, the state is the one that starting them leaves, one after
another in the order in which they were started (`step_serial`).  What a single one has
been through is a run of it with interruptions (`step_traced`).
-/

open Transition

/-- A coroutine that has been started: where, and what has come of it. -/
structure Thread (σ κ ρ ε α : Type) where
  program : Coroutine σ κ ρ ε α
  startedIn : σ
  exchanges : List (κ × Except ε ρ) := []
  outcome : Coroutine.Outcome σ κ ρ ε α

/-- What a thread waits for, if it does. -/
def Thread.waitsFor {σ κ ρ ε α : Type} (t : Thread σ κ ρ ε α) : Option κ :=
  match t.outcome with
  | .awaiting c _ => some c
  | .finished _ => none

/-- What a thread has returned or raised, if it has. -/
def Thread.result {σ κ ρ ε α : Type} (t : Thread σ κ ρ ε α) : Option (Except ε α) :=
  match t.outcome with
  | .awaiting _ _ => none
  | .finished result => some result

/-- The thread has had a reply, and has come to `outcome`. -/
def Thread.answered {σ κ ρ ε α : Type} (t : Thread σ κ ρ ε α) (c : κ) (r : Except ε ρ)
    (outcome : Coroutine.Outcome σ κ ρ ε α) : Thread σ κ ρ ε α :=
  { t with exchanges := t.exchanges ++ [(c, r)], outcome := outcome }

/-- The state and the threads, the newest first. -/
structure Threads (σ κ ρ ε α : Type) where
  shared : σ
  threads : List (Thread σ κ ρ ε α) := []

namespace Threads

variable {σ κ ρ ε α : Type}

/-- What happens next: a thread is started, or one that waits is answered. -/
inductive Label (σ κ ρ ε α : Type) where
  | start (m : Coroutine σ κ ρ ε α)
  /-- What the `n`-th thread awaits is answered. -/
  | reply (n : Nat) (r : Except ε ρ)

/-- `m` runs up to its first suspension. -/
def start (s : Threads σ κ ρ ε α) (m : Coroutine σ κ ρ ε α) : Threads σ κ ρ ε α where
  shared := (m.advance s.shared).2
  threads := ⟨m, s.shared, [], (m.advance s.shared).1⟩ :: s.threads

/-- The thread that is answered runs on to its next suspension; one that is over cannot be
answered. -/
def step (s : Threads σ κ ρ ε α) : Label σ κ ρ ε α → Option (Threads σ κ ρ ε α)
  | .start m => some (s.start m)
  | .reply n r =>
      match s.threads[n]? with
      | some t =>
          match t.outcome with
          | .awaiting c k =>
              some {
                shared := ((k r).advance s.shared).2
                threads := s.threads.set n (t.answered c r ((k r).advance s.shared).1) }
          | .finished _ => none
      | none => none

/-- The branches of `step`. -/
inductive Step (s : Threads σ κ ρ ε α) : Label σ κ ρ ε α → Threads σ κ ρ ε α → Prop where
  | start (m : Coroutine σ κ ρ ε α) : Step s (.start m) (s.start m)
  | reply (n : Nat) (r : Except ε ρ) (t : Thread σ κ ρ ε α) (c : κ)
      (k : Except ε ρ → Coroutine σ κ ρ ε α) (hthread : s.threads[n]? = some t)
      (hawaiting : t.outcome = .awaiting c k) :
      Step s (.reply n r)
        { shared := ((k r).advance s.shared).2
          threads := s.threads.set n (t.answered c r ((k r).advance s.shared).1) }

/-- **Inversion.** -/
theorem Step.of_step {s s' : Threads σ κ ρ ε α} {l : Label σ κ ρ ε α}
    (h : s.step l = some s') : Step s l s' := by
  cases l with
  | start m =>
      cases h
      exact .start m
  | reply n r =>
      simp only [step] at h
      split at h
      · next t hthread =>
          split at h
          · next c k hawaiting =>
              cases h
              exact .reply n r t c k hthread hawaiting
          · cases h
      · cases h

/-- What a thread runs does not change. -/
theorem programs_of_reply {s s' : Threads σ κ ρ ε α} {n : Nat} {r : Except ε ρ}
    (h : s.step (.reply n r) = some s') :
    s'.threads.map Thread.program = s.threads.map Thread.program := by
  cases Step.of_step h with
  | reply n r t c k hthread hawaiting =>
      have hsame : (t.answered c r ((k r).advance s.shared).1).program = t.program := rfl
      rw [List.map_set, hsame]
      refine List.ext_getElem? fun m => ?_
      rw [List.getElem?_set]
      split
      · next hnm =>
          subst hnm
          rw [List.getElem?_map, hthread]
          simp [(List.getElem?_eq_some_iff.mp hthread).1]
      · rfl

/-- The label starts only coroutines that meet `P`. -/
def Starts (P : Coroutine σ κ ρ ε α → Prop) : Label σ κ ρ ε α → Prop
  | .start m => P m
  | .reply _ _ => True

/-! ## the order of the starts -/

/-- The state the threads leave behind that are started one after another, the newest
last. -/
def serial (s₀ : σ) : List (Thread σ κ ρ ε α) → σ
  | [] => s₀
  | t :: ts => (t.program.advance (serial s₀ ts)).2

/-- Each thread was started where those before it left the state. -/
def InOrder (s₀ : σ) : List (Thread σ κ ρ ε α) → Prop
  | [] => True
  | t :: ts => t.startedIn = serial s₀ ts ∧ InOrder s₀ ts

/-- What a thread was started with does not change. -/
theorem serial_answered {s₀ : σ} {ts : List (Thread σ κ ρ ε α)} {n : Nat}
    {t : Thread σ κ ρ ε α} (h : ts[n]? = some t) (c : κ) (r : Except ε ρ)
    (outcome : Coroutine.Outcome σ κ ρ ε α) :
    serial s₀ (ts.set n (t.answered c r outcome)) = serial s₀ ts := by
  induction ts generalizing n with
  | nil => rfl
  | cons x xs ih =>
      cases n with
      | zero =>
          cases h
          rfl
      | succ n => rw [List.set_cons_succ, serial, serial, ih h]

/-- An answer changes no start. -/
theorem inOrder_answered {s₀ : σ} {ts : List (Thread σ κ ρ ε α)} {n : Nat}
    {t : Thread σ κ ρ ε α} (h : ts[n]? = some t) (c : κ) (r : Except ε ρ)
    (outcome : Coroutine.Outcome σ κ ρ ε α) (ho : InOrder s₀ ts) :
    InOrder s₀ (ts.set n (t.answered c r outcome)) := by
  induction ts generalizing n with
  | nil => exact ho
  | cons x xs ih =>
      cases n with
      | zero =>
          cases h
          exact ho
      | succ n =>
          rw [List.getElem?_cons_succ] at h
          exact ⟨ho.1.trans (serial_answered h c r outcome).symm, ih h ho.2⟩

/-- Each thread has started on what the older ones make. -/
theorem InOrder.startedIn {s₀ : σ} {ts : List (Thread σ κ ρ ε α)} (h : InOrder s₀ ts) {n : Nat}
    {t : Thread σ κ ρ ε α} (ht : ts[n]? = some t) : t.startedIn = serial s₀ (ts.drop (n + 1)) := by
  induction ts generalizing n with
  | nil => cases ht
  | cons x xs ih =>
      cases n with
      | zero =>
          cases ht
          exact h.1
      | succ n => exact ih h.2 ht

variable {P : α → Prop} {s₀ : σ}

/-- The invariant: the state is that of the starts in order, and whoever awaits something
is quiet. -/
structure Serial (P : α → Prop) (s₀ : σ) (s : Threads σ κ ρ ε α) : Prop where
  shared : s.shared = serial s₀ s.threads
  inOrder : InOrder s₀ s.threads
  quiet : ∀ t ∈ s.threads, t.outcome.Quiet true P

/-- **Step lemma.** -/
theorem step_serial {s s' : Threads σ κ ρ ε α} {l : Label σ κ ρ ε α} (hs : s.Serial P s₀)
    (hl : Starts (·.WritesFirst true P) l) (h : s.step l = some s') : s'.Serial P s₀ := by
  cases Step.of_step h with
  | start m =>
      refine ⟨?_, ⟨hs.shared, hs.inOrder⟩, ?_⟩
      · show (m.advance s.shared).2 = (m.advance (serial s₀ s.threads)).2
        rw [hs.shared]
      · intro t ht
        obtain rfl | ht := List.mem_cons.mp ht
        · exact Coroutine.WritesFirst.advance hl s.shared
        · exact hs.quiet t ht
  | reply n r t c k hthread hawaiting =>
      have hquiet := hs.quiet t (List.mem_of_getElem? hthread)
      rw [hawaiting] at hquiet
      refine ⟨?_, inOrder_answered hthread c r _ hs.inOrder, ?_⟩
      · rw [serial_answered hthread, ← hs.shared]
        exact (hquiet r).advance_snd s.shared
      · intro t' ht'
        rcases List.mem_or_eq_of_mem_set ht' with ht' | rfl
        · exact hs.quiet t' ht'
        · exact (hquiet r).writesFirst.advance s.shared

/-- There are no threads yet. -/
theorem serial_init (s₀ : σ) :
    (⟨s₀, []⟩ : Threads σ κ ρ ε α).Serial P s₀ := ⟨rfl, trivial, nofun⟩

/-! ## what a thread has done -/

/-- The thread has come to where it is from where it was started. -/
def Traced (t : Thread σ κ ρ ε α) : Prop :=
  Coroutine.Interleaved t.program t.startedIn t.exchanges t.outcome

/-- **Step lemma.** -/
theorem step_traced {s s' : Threads σ κ ρ ε α} {l : Label σ κ ρ ε α}
    (hs : ∀ t ∈ s.threads, Traced t) (h : s.step l = some s') : ∀ t ∈ s'.threads, Traced t := by
  intro t ht
  cases Step.of_step h with
  | start m =>
      obtain rfl | ht := List.mem_cons.mp ht
      · exact .start
      · exact hs t ht
  | reply n r t' c k hthread hawaiting =>
      rcases List.mem_or_eq_of_mem_set ht with ht | rfl
      · exact hs t ht
      · have htraced := hs t' (List.mem_of_getElem? hthread)
        rw [Traced, hawaiting] at htraced
        exact htraced.reply r s.shared

end Threads
