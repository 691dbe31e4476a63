/-!
# RubicaBot.Transition

Executable transition systems: a step function `step : σ → ι → Option σ` over
an arbitrary state and label type, where `none` says that the label is not
enabled.  Runs are lists of labels, so an interleaving of concurrent parties is
one list and every claim about "every run" is a claim about every list.

Three notions are developed here, each with its induction rule:

* `run` — the state a list of labels leads to;
* `Along P` — every step taken on the way meets `P`, a condition on the label
  and on the state *before* the step;
* `gather f` — what the steps produce, collected in order.

The induction over a run is done once, in `run_invariant` and `run_gather`; a
system only supplies its step lemma.
This module depends only on the Lean 4 core library.
-/

namespace Transition

variable {σ ι α : Type} (step : σ → ι → Option σ)

/-! ## runs -/

/-- The state reached from `s` by performing the labels in order, if each of
them is enabled when its turn comes. -/
def run : σ → List ι → Option σ
  | s, [] => some s
  | s, l :: ls => (step s l).bind fun s' => run s' ls

/-- Every step of the run from `s` meets `P`. -/
def Along (P : σ → ι → Prop) : σ → List ι → Prop
  | _, [] => True
  | s, l :: ls => P s l ∧ ∀ s', step s l = some s' → Along P s' ls

/-- What the steps of the run from `s` produce, in order. -/
def gather (f : σ → ι → List α) : σ → List ι → List α
  | _, [] => []
  | s, l :: ls => f s l ++ match step s l with
    | some s' => gather f s' ls
    | none => []

variable {step}

@[simp] theorem run_nil (s : σ) : run step s [] = some s := rfl

/-- A run starts with its first step. -/
theorem run_cons (s : σ) (l : ι) (ls : List ι) :
    run step s (l :: ls) = (step s l).bind fun s' => run step s' ls := rfl

/-- A run that starts with `l` takes that step and runs on from there. -/
theorem run_cons_eq_some {s s' : σ} {l : ι} {ls : List ι} :
    run step s (l :: ls) = some s' ↔ ∃ m, step s l = some m ∧ run step m ls = some s' := by
  rw [run_cons, Option.bind_eq_some_iff]

/-- A run goes on from the state it has led to. -/
theorem run_append (s : σ) (ls ms : List ι) :
    run step s (ls ++ ms) = (run step s ls).bind fun m => run step m ms := by
  induction ls generalizing s with
  | nil => rfl
  | cons l ls ih =>
      rw [List.cons_append, run_cons, run_cons, Option.bind_assoc]
      exact congrArg _ (funext ih)

@[simp] theorem along_nil (P : σ → ι → Prop) (s : σ) : Along step P s [] := trivial

/-- Along a run it holds at the first step, and along the rest. -/
theorem along_cons (P : σ → ι → Prop) {s m : σ} {l : ι} {ls : List ι} (h : step s l = some m) :
    Along step P s (l :: ls) ↔ P s l ∧ Along step P m ls := by
  simp only [Along, h, Option.some.injEq, forall_eq']

/-- A decidable condition on steps can be checked along a run. -/
instance Along.decidable {P : σ → ι → Prop} [∀ s l, Decidable (P s l)] :
    (s : σ) → (ls : List ι) → Decidable (Along step P s ls)
  | _, [] => isTrue trivial
  | s, l :: ls =>
      match h : step s l with
      | none => decidable_of_iff (P s l) (by simp [Along, h])
      | some m =>
          have := Along.decidable (P := P) m ls
          decidable_of_iff (P s l ∧ Along step P m ls) (along_cons P h).symm

/-- What holds of every step holds along every run. -/
theorem along_of_forall {P : σ → ι → Prop} (h : ∀ s l, P s l) (s : σ) (ls : List ι) :
    Along step P s ls := by
  induction ls generalizing s with
  | nil => trivial
  | cons l ls ih => exact ⟨h s l, fun s' _ => ih s'⟩

/-- What holds of every step with one of its labels holds along the run. -/
theorem along_of_mem {P : σ → ι → Prop} {ls : List ι} (h : ∀ l ∈ ls, ∀ s, P s l) {s : σ} :
    Along step P s ls := by
  induction ls generalizing s with
  | nil => trivial
  | cons l ls ih =>
      exact ⟨h l List.mem_cons_self s, fun s' _ => ih fun l hl => h l (List.mem_cons_of_mem _ hl)⟩

/-- A weaker condition is met along the same run. -/
theorem Along.mono {P Q : σ → ι → Prop} (hPQ : ∀ s l, P s l → Q s l) {s : σ} {ls : List ι}
    (h : Along step P s ls) : Along step Q s ls := by
  induction ls generalizing s with
  | nil => trivial
  | cons l ls ih => exact ⟨hPQ s l h.1, fun s' hs => ih (h.2 s' hs)⟩

/-- Conditions that agree on enabled steps agree along a completed run. -/
theorem along_congr {P Q : σ → ι → Prop} (hPQ : ∀ s l s', step s l = some s' → (P s l ↔ Q s l))
    {s s' : σ} {ls : List ι} (h : run step s ls = some s') :
    Along step P s ls ↔ Along step Q s ls := by
  induction ls generalizing s with
  | nil => simp
  | cons l ls ih =>
      obtain ⟨m, hm, hrun⟩ := run_cons_eq_some.mp h
      rw [along_cons P hm, along_cons Q hm, hPQ s l m hm, ih hrun]

/-- The condition along a run splits at any state the run passes through. -/
theorem along_append (P : σ → ι → Prop) {s m : σ} {ls ms : List ι} (h : run step s ls = some m) :
    Along step P s (ls ++ ms) ↔ Along step P s ls ∧ Along step P m ms := by
  induction ls generalizing s with
  | nil =>
      rw [run_nil, Option.some.injEq] at h
      subst h
      simp
  | cons l ls ih =>
      obtain ⟨k, hk, hrun⟩ := run_cons_eq_some.mp h
      rw [List.cons_append, along_cons P hk, along_cons P hk, ih hrun, and_assoc]

/-- A run can be cut before any of its labels. -/
theorem run_split {s s' : σ} {before after : List ι} {l : ι}
    (h : run step s (before ++ l :: after) = some s') :
    ∃ m m', run step s before = some m ∧ step m l = some m' ∧ run step m' after = some s' := by
  rw [run_append, Option.bind_eq_some_iff] at h
  obtain ⟨m, hm, hrest⟩ := h
  obtain ⟨m', hm', hafter⟩ := run_cons_eq_some.mp hrest
  exact ⟨m, m', hm, hm', hafter⟩

/-- A condition that holds wherever a run can be cut holds along it. -/
theorem along_of_splits {P : σ → ι → Prop} {s : σ} {ls : List ι}
    (h : ∀ before l after m, ls = before ++ l :: after → run step s before = some m → P m l) :
    Along step P s ls := by
  induction ls generalizing s with
  | nil => trivial
  | cons l ls ih =>
      refine ⟨h [] l ls s rfl rfl, fun s' hs' => ih fun before l' after m hls hrun => ?_⟩
      refine h (l :: before) l' after m (by rw [hls, List.cons_append]) ?_
      exact run_cons_eq_some.mpr ⟨s', hs', hrun⟩

/-! ## invariants of runs -/

/-- **Run rule.**  What holds at the start and is preserved by every step that
meets `P` holds wherever a run of such steps leads. -/
theorem run_invariant {P : σ → ι → Prop} {I : σ → Prop}
    (hstep : ∀ s l s', I s → P s l → step s l = some s' → I s')
    {s s' : σ} {ls : List ι} (h₀ : I s) (hP : Along step P s ls) (h : run step s ls = some s') :
    I s' := by
  induction ls generalizing s with
  | nil =>
      rw [run_nil, Option.some.injEq] at h
      exact h ▸ h₀
  | cons l ls ih =>
      obtain ⟨m, hm, hrun⟩ := run_cons_eq_some.mp h
      rw [along_cons P hm] at hP
      exact ih (hstep s l m h₀ hP.1 hm) hP.2 hrun

/-- The run rule for an invariant that every step preserves. -/
theorem run_invariant_of_step {I : σ → Prop}
    (hstep : ∀ s l s', I s → step s l = some s' → I s')
    {s s' : σ} {ls : List ι} (h₀ : I s) (h : run step s ls = some s') : I s' := by
  induction ls generalizing s with
  | nil =>
      rw [run_nil, Option.some.injEq] at h
      exact h ▸ h₀
  | cons l ls ih =>
      obtain ⟨m, hm, hrun⟩ := run_cons_eq_some.mp h
      exact ih (hstep s l m h₀ hm) hrun

/-- A per-step fact that follows from the invariant holds along the run. -/
theorem along_of_invariant {P Q : σ → ι → Prop} {I : σ → Prop}
    (hstep : ∀ s l s', I s → P s l → step s l = some s' → I s')
    (hQ : ∀ s l, I s → P s l → Q s l)
    {s : σ} {ls : List ι} (h₀ : I s) (hP : Along step P s ls) : Along step Q s ls := by
  induction ls generalizing s with
  | nil => trivial
  | cons l ls ih =>
      exact ⟨hQ s l h₀ hP.1, fun s' hs => ih (hstep s l s' h₀ hP.1 hs) (hP.2 s' hs)⟩

/-- **Run rule for a potential.**  If every step that meets `P` lowers the potential, a run
of such steps is no longer than it. -/
theorem run_potential {P : ι → Prop} {I : σ → Nat → Prop}
    (hstep : ∀ s l s' n, I s n → P l → step s l = some s' → ∃ m < n, I s' m)
    {s s' : σ} {ls : List ι} {n : Nat} (h₀ : I s n) (hP : ∀ l ∈ ls, P l)
    (h : run step s ls = some s') : ls.length ≤ n := by
  induction ls generalizing s n with
  | nil => exact Nat.zero_le n
  | cons l ls ih =>
      obtain ⟨m, hm, hrun⟩ := run_cons_eq_some.mp h
      obtain ⟨n', hlt, hI⟩ := hstep s l m n h₀ (hP l List.mem_cons_self) hm
      have hle := ih hI (fun l' hl' => hP l' (List.mem_cons_of_mem _ hl')) hrun
      exact Nat.le_trans (Nat.succ_le_succ hle) hlt

/-- So such steps lead to a state that allows none of them. -/
theorem exists_maximal_run {P : ι → Prop} {I : σ → Nat → Prop}
    (hstep : ∀ s l s' n, I s n → P l → step s l = some s' → ∃ m < n, I s' m)
    {s : σ} {n : Nat} (h₀ : I s n) : ∃ ls s', (∀ l ∈ ls, P l) ∧ run step s ls = some s' ∧
      ∀ l, P l → step s' l = none := by
  induction n using Nat.strongRecOn generalizing s with
  | ind n ih =>
      by_cases hmore : ∃ l m, P l ∧ step s l = some m
      · obtain ⟨l, m, hl, hm⟩ := hmore
        obtain ⟨k, hk, hI⟩ := hstep s l m n h₀ hl hm
        obtain ⟨ls, s', hls, hrun, hmax⟩ := ih k hk hI
        exact ⟨l :: ls, s', List.forall_mem_cons.mpr ⟨hl, hls⟩,
          run_cons_eq_some.mpr ⟨m, hm, hrun⟩, hmax⟩
      · refine ⟨[], s, nofun, run_nil s, fun l hl => ?_⟩
        cases hnext : step s l with
        | none => rfl
        | some m => exact absurd ⟨l, m, hl, hnext⟩ hmore

/-! ## what the steps of a run produce -/

/-- What a run gathers, the first step first. -/
theorem gather_cons (f : σ → ι → List α) {s m : σ} {l : ι} {ls : List ι}
    (h : step s l = some m) : gather step f s (l :: ls) = f s l ++ gather step f m ls := by
  simp only [gather, h]

/-- A completed run produces nothing exactly when none of its steps does. -/
theorem gather_eq_nil_iff (f : σ → ι → List α) {s s' : σ} {ls : List ι}
    (h : run step s ls = some s') :
    gather step f s ls = [] ↔ Along step (fun s l => f s l = []) s ls := by
  induction ls generalizing s with
  | nil => simp [gather]
  | cons l ls ih =>
      obtain ⟨m, hm, hrun⟩ := run_cons_eq_some.mp h
      rw [gather_cons f hm, along_cons _ hm, List.append_eq_nil_iff, ih hrun]

/-- **Run rule with a history.**  An invariant that speaks of what has been
produced so far, and that each step carries over to its own product, holds of
everything the run produced. -/
theorem run_gather {f : σ → ι → List α} {I : σ → List α → Prop}
    (hstep : ∀ s l s' as, I s as → step s l = some s' → I s' (as ++ f s l))
    {s s' : σ} {ls : List ι} {as : List α} (h₀ : I s as) (h : run step s ls = some s') :
    I s' (as ++ gather step f s ls) := by
  induction ls generalizing s as with
  | nil =>
      rw [run_nil, Option.some.injEq] at h
      subst h
      simpa [gather] using h₀
  | cons l ls ih =>
      obtain ⟨m, hm, hrun⟩ := run_cons_eq_some.mp h
      rw [gather_cons f hm, ← List.append_assoc]
      exact ih (hstep s l m as h₀ hm) hrun

end Transition
