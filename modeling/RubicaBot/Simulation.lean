import Mathlib.Data.Set.Basic
import RubicaBot.Transition

/-!
# RubicaBot.Simulation

Machines that answer: `call s i` is the answer to the input `i` in state `s`
together with the state afterwards, or `none` when the call cannot be made.
Two machines are compared by what a client sees, the answers of a whole run.

A relation `R` between the states *simulates* when related states answer alike
and stay related (`Simulates`); the runs of machines started in related states
then have the same answers (`outputs_eq`) and lead to related states
(`run_related`).  Every machine is also a transition system (`next`), so the run
rules of `RubicaBot.Transition` apply to it.
-/

namespace Transition

section Machine

variable {σ ι ω : Type} (call : σ → ι → Option (ω × σ))

/-- The transition system of a machine. -/
def next (s : σ) (i : ι) : Option σ := (call s i).map Prod.snd

/-- The answer of one call. -/
def answer (s : σ) (i : ι) : List ω := ((call s i).map Prod.fst).toList

/-- The answers of a run, in order, up to the first call that cannot be made. -/
def outputs : σ → List ι → List ω := gather (next call) (answer call)

/-- The calls of a run, each with its answer. -/
def transcript : σ → List ι → List (ι × ω) :=
  gather (next call) fun s i => (answer call s i).map fun a => (i, a)

variable {call}

/-- The next state is that of an answer. -/
theorem next_eq_some {s s' : σ} {i : ι} :
    next call s i = some s' ↔ ∃ a, call s i = some (a, s') := by
  simp [next]

/-- The answer of a call that is made. -/
theorem answer_of_call {s s' : σ} {i : ι} {a : ω} (h : call s i = some (a, s')) :
    answer call s i = [a] := by
  simp [answer, h]

/-- The first answer, and then the others. -/
theorem outputs_cons {s s' : σ} {i : ι} {a : ω} (h : call s i = some (a, s')) (is : List ι) :
    outputs call s (i :: is) = a :: outputs call s' is := by
  have hnext : next call s i = some s' := next_eq_some.mpr ⟨a, h⟩
  rw [outputs, gather_cons _ hnext, answer_of_call h]
  rfl

/-- A call that cannot be made ends the run. -/
theorem outputs_cons_none {s : σ} {i : ι} (h : call s i = none) (is : List ι) :
    outputs call s (i :: is) = [] := by
  simp [outputs, gather, next, answer, h]

/-- The transcript pairs the calls with the answers. -/
theorem transcript_eq_zip (s : σ) (is : List ι) :
    transcript call s is = is.zip (outputs call s is) := by
  induction is generalizing s with
  | nil => rfl
  | cons i is ih =>
      cases h : call s i with
      | none =>
          rw [outputs_cons_none h]
          simp [transcript, gather, next, answer, h]
      | some x =>
          obtain ⟨a, s'⟩ := x
          have hnext : next call s i = some s' := next_eq_some.mpr ⟨a, h⟩
          rw [outputs_cons h, List.zip_cons_cons, ← ih, transcript, gather_cons _ hnext,
            answer_of_call h]
          rfl

@[simp] theorem transcript_nil (s : σ) : transcript call s [] = [] := rfl

/-- The first call with its answer, and then the others. -/
theorem transcript_cons {s s' : σ} {i : ι} {a : ω} (h : call s i = some (a, s')) (is : List ι) :
    transcript call s (i :: is) = (i, a) :: transcript call s' is := by
  rw [transcript_eq_zip, transcript_eq_zip, outputs_cons h, List.zip_cons_cons]

/-- A transcript goes on from the state that the run has led to. -/
theorem transcript_append {s m : σ} {is : List ι} (h : run (next call) s is = some m)
    (js : List ι) :
    transcript call s (is ++ js) = transcript call s is ++ transcript call m js := by
  induction is generalizing s with
  | nil =>
      rw [run_nil, Option.some.injEq] at h
      subst h
      rfl
  | cons i is ih =>
      obtain ⟨k, hk, hrun⟩ := run_cons_eq_some.mp h
      obtain ⟨a, hs⟩ := next_eq_some.mp hk
      rw [List.cons_append, transcript_cons hs, transcript_cons hs, ih hrun, List.cons_append]

/-- The answers to the calls of one party. -/
def answersTo (call : σ → ι → Option (ω × σ)) (own : ι → Bool) (s : σ) (is : List ι) : List ω :=
  ((transcript call s is).filter fun c => own c.1).map Prod.snd

/-- **Unwinding.**  If related states answer the party's calls alike and stay related,
and the calls `Q` of others keep a state related to what it was, then the party gets
the answers it would get without the others. -/
theorem answersTo_eq_outputs {own : ι → Bool} {Q : ι → Prop} {R : σ → σ → Prop}
    (hown : ∀ s t i, R s t → own i →
      ∃ a s' t', call s i = some (a, s') ∧ call t i = some (a, t') ∧ R s' t')
    (hother : ∀ s t i, R s t → own i = false → Q i → ∃ a s', call s i = some (a, s') ∧ R s' t)
    {s t : σ} (h : R s t) {is : List ι} (hQ : ∀ i ∈ is, own i = false → Q i) :
    answersTo call own s is = outputs call t (is.filter own) := by
  induction is generalizing s t with
  | nil => rfl
  | cons i is ih =>
      have hrest : ∀ i ∈ is, own i = false → Q i := fun i hi => hQ i (List.mem_cons_of_mem _ hi)
      cases hi : own i with
      | true =>
          obtain ⟨a, s', t', hs, ht, hR⟩ := hown s t i h hi
          have hcons : answersTo call own s (i :: is) = a :: answersTo call own s' is := by
            simp [answersTo, transcript_cons hs, hi]
          rw [hcons, List.filter_cons_of_pos hi, outputs_cons ht, ih hR hrest]
      | false =>
          obtain ⟨a, s', hs, hR⟩ := hother s t i h hi (hQ i List.mem_cons_self hi)
          have hcons : answersTo call own s (i :: is) = answersTo call own s' is := by
            simp [answersTo, transcript_cons hs, hi]
          rw [hcons, List.filter_cons_of_neg (by simp [hi]), ih hR hrest]

end Machine

/-! ## related options -/

section Related

variable {α β : Type} {R : α → β → Prop} {a : α} {b : β} {x : Option α} {y : Option β}

/-- Only nothing is related to nothing. -/
theorem rel_none_iff : Option.Rel R none y ↔ y = none := by
  constructor
  · rintro ⟨⟩
    rfl
  · rintro rfl
    exact .none

/-- And only something to something. -/
theorem rel_some_iff : Option.Rel R (some a) y ↔ ∃ b, y = some b ∧ R a b := by
  constructor
  · intro h
    cases h with
    | some h => exact ⟨_, rfl, h⟩
  · rintro ⟨b, rfl, h⟩
    exact .some h

/-- The same from the other side. -/
theorem rel_some_right_iff : Option.Rel R x (some b) ↔ ∃ a, x = some a ∧ R a b := by
  constructor
  · intro h
    cases h with
    | some h => exact ⟨_, rfl, h⟩
  · rintro ⟨a, rfl, h⟩
    exact .some h

end Related

/-! ## simulations -/

section Simulates

variable {σ τ ι ω : Type}

/-- Related states answer every call alike and stay related. -/
def Simulates (call : σ → ι → Option (ω × σ)) (call' : τ → ι → Option (ω × τ))
    (R : σ → τ → Prop) : Prop :=
  ∀ s t i, R s t → Option.Rel (fun x y => x.1 = y.1 ∧ R x.2 y.2) (call s i) (call' t i)

variable {call : σ → ι → Option (ω × σ)} {call' : τ → ι → Option (ω × τ)} {R : σ → τ → Prop}

/-- Related states answer the calls of a set alike and stay related. -/
def SimulatesOn (Q : Set ι) (call : σ → ι → Option (ω × σ)) (call' : τ → ι → Option (ω × τ))
    (R : σ → τ → Prop) : Prop :=
  ∀ s t, ∀ i ∈ Q, R s t → Option.Rel (fun x y => x.1 = y.1 ∧ R x.2 y.2) (call s i) (call' t i)

/-- Machines in related states give the same answers, as long as the calls are
of the set. -/
theorem outputs_eq_on {Q : Set ι} (hR : SimulatesOn Q call call' R) {s : σ} {t : τ} (h : R s t)
    {is : List ι} (hQ : ∀ i ∈ is, i ∈ Q) : outputs call s is = outputs call' t is := by
  induction is generalizing s t with
  | nil => rfl
  | cons i is ih =>
      have hrel := hR s t i (hQ i List.mem_cons_self) h
      have hrest : ∀ i ∈ is, i ∈ Q := fun i hi => hQ i (List.mem_cons_of_mem _ hi)
      cases hs : call s i with
      | none =>
          rw [hs, rel_none_iff] at hrel
          rw [outputs_cons_none hs, outputs_cons_none hrel]
      | some x =>
          obtain ⟨a, s'⟩ := x
          rw [hs, rel_some_iff] at hrel
          obtain ⟨⟨b, t'⟩, ht, hab, hR'⟩ := hrel
          have hab : a = b := hab
          rw [outputs_cons hs, outputs_cons ht, ih hR' hrest, hab]

/-- Machines in related states give the same answers for ever. -/
theorem outputs_eq (hR : Simulates call call' R) {s : σ} {t : τ} (h : R s t) (is : List ι) :
    outputs call s is = outputs call' t is :=
  outputs_eq_on (fun s t i (_ : i ∈ Set.univ) => hR s t i) h fun i _ => Set.mem_univ i

/-- The two cannot be told apart by what they answer. -/
theorem transcript_eq (hR : Simulates call call' R) {s : σ} {t : τ} (h : R s t) (is : List ι) :
    transcript call s is = transcript call' t is := by
  rw [transcript_eq_zip, transcript_eq_zip, outputs_eq hR h]

/-- A run of one machine is matched by a run of the other. -/
theorem run_related (hR : Simulates call call' R) {s s' : σ} {t : τ} {is : List ι} (h : R s t)
    (hrun : run (next call) s is = some s') : ∃ t', run (next call') t is = some t' ∧ R s' t' := by
  induction is generalizing s t with
  | nil =>
      rw [run_nil, Option.some.injEq] at hrun
      exact ⟨t, rfl, hrun ▸ h⟩
  | cons i is ih =>
      obtain ⟨m, hm, hrest⟩ := run_cons_eq_some.mp hrun
      obtain ⟨a, hs⟩ := next_eq_some.mp hm
      have hrel := hR s t i h
      rw [hs, rel_some_iff] at hrel
      obtain ⟨⟨b, k⟩, ht, -, hmk⟩ := hrel
      obtain ⟨t', hrun', hR'⟩ := ih hmk hrest
      have hk : next call' t i = some k := next_eq_some.mpr ⟨b, ht⟩
      exact ⟨t', run_cons_eq_some.mpr ⟨k, hk, hrun'⟩, hR'⟩

/-! ## without answers -/

/-- If each step of one system on a label of the set is matched by one of the other, so is
each run. -/
theorem run_matched {step : σ → ι → Option σ} {step' : τ → ι → Option τ} {Q : Set ι}
    (hstep : ∀ s t, ∀ i ∈ Q, R s t → ∀ s', step s i = some s' →
      ∃ t', step' t i = some t' ∧ R s' t')
    {s s' : σ} {t : τ} {is : List ι} (h : R s t) (hQ : ∀ i ∈ is, i ∈ Q)
    (hrun : run step s is = some s') : ∃ t', run step' t is = some t' ∧ R s' t' := by
  induction is generalizing s t with
  | nil =>
      rw [run_nil, Option.some.injEq] at hrun
      exact ⟨t, rfl, hrun ▸ h⟩
  | cons i is ih =>
      obtain ⟨m, hm, hrest⟩ := run_cons_eq_some.mp hrun
      obtain ⟨k, hk, hR⟩ := hstep s t i (hQ i List.mem_cons_self) h m hm
      obtain ⟨t', hrun', hR'⟩ := ih hR (fun j hj => hQ j (List.mem_cons_of_mem _ hj)) hrest
      exact ⟨t', run_cons_eq_some.mpr ⟨k, hk, hrun'⟩, hR'⟩

end Simulates

end Transition
