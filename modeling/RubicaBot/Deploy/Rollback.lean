import RubicaBot.Deploy

/-!
# RubicaBot.Deploy.Rollback

Rolling back after failed attempts.

There is one backup, and every attempt overwrites it: `deploy` with whatever it finds at
the target, which after a failed attempt is the tree that failed.  `DeploySpares` and
`UpdateSpares` say, of the state in which an attempt starts, when it does not cost the
tree that works; a rollback restores that tree after each attempt exactly when all of
them spare it.
-/

namespace RubicaBot

open Transition

variable {σ τ δ : Type}

/-- The target and the backup are two trees, and each holds what was put there last. -/
structure Places.Lawful (P : Places σ τ) : Prop where
  target_setTarget : ∀ t s, P.target (P.setTarget t s) = t
  backup_setTarget : ∀ t s, P.backup (P.setTarget t s) = P.backup s
  target_setBackup : ∀ b s, P.target (P.setBackup b s) = P.target s
  backup_setBackup : ∀ b s, P.backup (P.setBackup b s) = b

/-- A failed attempt of a command. -/
def failed (command : δ → Step σ) (s : σ) (d : δ) : Option σ :=
  if (command d s).1 then none else some (command d s).2

/-- An attempt that has failed, and what it left. -/
theorem failed_eq_some {command : δ → Step σ} {s s' : σ} {d : δ} :
    failed command s d = some s' ↔ command d s = (false, s') := by
  unfold failed
  cases hrun : command d s with
  | mk ok s₁ => cases ok <;> simp

namespace Places

/-! ## what a rollback restores -/

/-- What is at the target after a rollback. -/
def restored (P : Places σ τ) (s : σ) : Option τ := (P.backup s).or (P.target s)

variable {P : Places σ τ}

/-- A rollback restores the backup, if there is one. -/
theorem target_rollback (h : P.Lawful) (s : σ) :
    P.target (P.rollback {} s).2 = P.restored s := by
  unfold rollback restored
  cases hb : P.backup s with
  | none => rfl
  | some b =>
      cases ht : P.target s <;>
        simp [Step.inOrder, Step.andThen, clearTarget, moveBack, ht, hb, h.backup_setTarget,
          h.target_setTarget]

/-- Likewise. -/
theorem target_updateRollback (h : P.Lawful) (s : σ) :
    P.target (P.updateRollback {} s).2 = P.restored s := by
  unfold updateRollback
  cases hb : P.backup s with
  | none => simp [restored, hb]
  | some b => exact target_rollback h s

/-! ## one attempt -/

/-- An attempt to deploy that starts here does not cost the tree `T`: one that fails to
remove the old backup leaves `T` there; any other finds `T` at the target, or nothing
there and `T` in the backup. -/
def DeploySpares (P : Places σ τ) (T : τ) (s : σ) (d : DeploySteps τ) : Prop :=
  match P.target s, P.backup s, d.removeBackup with
  | some _, some _, some left => left = T
  | some t, _, _ => t = T
  | none, b, _ => b = some T

/-- Making a new backup leaves `T` there if it fails half way, and otherwise finds `T` at
the target. -/
def CopySpares (P : Places σ τ) (T : τ) (s : σ) (copy : Except (Option τ) Unit) : Prop :=
  match P.target s, copy with
  | some _, .error (some left) => left = T
  | t, _ => t = some T

/-- An attempt to update that starts here does not cost the tree `T`: one that fails to
remove the old backup leaves `T` there, and so does the copy that replaces it. -/
def UpdateSpares (P : Places σ τ) (T : τ) (s : σ) (u : UpdateSteps τ) : Prop :=
  match P.backup s, u.removeBackup with
  | some _, some left => left = T
  | _, _ => P.CopySpares T s u.copyBackup

/-- Programs work on the target. -/
theorem leaves_program {α : Type} {f : σ → α} (h : ∀ t s, f (P.setTarget t s) = f s)
    (p : Except τ τ) : Step.Leaves f (P.program p) := by
  cases p with
  | error left => exact h _
  | ok left => exact h _

/-- The copy goes to the target. -/
theorem leaves_copySource {α : Type} {f : σ → α} (h : ∀ t s, f (P.setTarget t s) = f s)
    (copy : Except (Option τ) τ) : Step.Leaves f (P.copySource copy) := by
  intro s
  unfold copySource
  split
  · rfl
  · exact h _ s
  · exact h _ s

/-- What the copy and the programs of `deploy` do does not concern the backup. -/
theorem leaves_install (h : P.Lawful) (d : DeploySteps τ) :
    Step.Leaves P.backup (Step.inOrder
      [P.copySource d.copy, P.program d.pip, P.program d.tests, P.program d.restart]) := by
  refine Step.Leaves.inOrder fun step hstep => ?_
  simp only [List.mem_cons, List.not_mem_nil, or_false] at hstep
  obtain rfl | rfl | rfl | rfl := hstep
  · exact leaves_copySource h.backup_setTarget _
  all_goals exact leaves_program h.backup_setTarget _

/-- All that `update` runs are programs. -/
theorem exists_program_of_mem {u : UpdateSteps τ} {step : Step σ}
    (hstep : step ∈ P.updatePrograms u) : ∃ p, step = P.program p := by
  unfold updatePrograms at hstep
  split at hstep
  · split at hstep <;>
      simp only [List.mem_append, List.mem_cons, List.not_mem_nil, or_false] at hstep
    · obtain (rfl | rfl | rfl) | rfl := hstep <;> exact ⟨_, rfl⟩
    · obtain (rfl | rfl) | rfl := hstep <;> exact ⟨_, rfl⟩
  · simp only [List.mem_append, List.mem_cons, List.not_mem_nil, or_false] at hstep
    obtain rfl | rfl := hstep <;> exact ⟨_, rfl⟩

/-- They do not know of the backup. -/
theorem leaves_updatePrograms (h : P.Lawful) (u : UpdateSteps τ) :
    Step.Leaves P.backup (Step.inOrder (P.updatePrograms u)) := by
  refine Step.Leaves.inOrder fun step hstep => ?_
  obtain ⟨p, rfl⟩ := exists_program_of_mem hstep
  exact leaves_program h.backup_setTarget p

/-- The old backup is out of the way, or what is left of it is the backup. -/
theorem clearBackup_cases (h : P.Lawful) (left : Option τ) (s : σ) :
    (∃ b r, P.backup s = some b ∧ left = some r ∧
        P.clearBackup left s = (false, P.setBackup (some r) s)) ∨
      ((P.backup s = none ∨ left = none) ∧ ∃ s', P.clearBackup left s = (true, s') ∧
        P.target s' = P.target s ∧ P.backup s' = none) := by
  unfold clearBackup
  cases hb : P.backup s with
  | none => exact .inr ⟨.inl rfl, s, by simp [hb]⟩
  | some b =>
      cases left with
      | some r => exact .inl ⟨b, r, rfl, rfl, rfl⟩
      | none =>
          exact .inr ⟨.inr rfl, P.setBackup none s, rfl, h.target_setBackup _ s,
            h.backup_setBackup _ s⟩

/-- The backup is restored. -/
theorem restored_eq_backup {s : σ} {b : τ} (h : P.backup s = some b) : P.restored s = some b := by
  rw [restored, h, Option.some_or]

/-- A target is moved, or stays. -/
theorem moveToBackup_of_some {s : σ} {t : τ} (ht : P.target s = some t) (fails : Bool) :
    P.moveToBackup fails s =
      if fails then (false, s) else (true, P.setBackup (some t) (P.setTarget none s)) := by
  unfold moveToBackup
  rw [ht]

/-- **One attempt to deploy.** -/
theorem restored_deploy (h : P.Lawful) {T : τ} {s s' : σ} {d : DeploySteps τ}
    (hsome : (P.restored s).isSome) (hrun : P.deploy d s = (false, s')) :
    (P.restored s').isSome ∧ (P.restored s' = some T ↔ P.DeploySpares T s d) := by
  unfold deploy at hrun
  cases ht : P.target s with
  | none =>
      obtain ⟨b, hb⟩ := Option.isSome_iff_exists.mp hsome
      rw [restored, ht, Option.or_none] at hb
      rw [ht] at hrun
      have hbackup := leaves_install h d s
      simp only [Option.isSome_none, Bool.false_eq_true, if_false, List.nil_append] at hrun
      rw [hrun] at hbackup
      rw [restored_eq_backup (hbackup.trans hb), DeploySpares, ht, hb]
      simp
  | some t =>
      rw [ht] at hrun
      simp only [Option.isSome_some, if_true, List.cons_append, List.nil_append] at hrun
      obtain ⟨b, r, hb, hr, hclear⟩ | ⟨hnone, s₁, hclear, htarget, hbackup⟩ :=
        clearBackup_cases h d.removeBackup s
      · rw [Step.inOrder_of_fails hclear] at hrun
        cases hrun
        rw [restored_eq_backup (h.backup_setBackup _ s), DeploySpares, ht, hb, hr]
        simp
      · -- what the rollback restores is what the attempt found
        have hrestored : P.restored s' = some t := by
          rw [Step.inOrder_of_done hclear] at hrun
          have hmove := moveToBackup_of_some (htarget.trans ht) d.moveFails
          cases hfails : d.moveFails with
          | true =>
              rw [hfails] at hmove hrun
              rw [Step.inOrder_of_fails hmove] at hrun
              cases hrun
              rw [restored, hbackup, htarget, ht, Option.none_or]
          | false =>
              rw [hfails] at hmove hrun
              rw [Step.inOrder_of_done hmove] at hrun
              have hleaves := leaves_install h d (P.setBackup (some t) (P.setTarget none s₁))
              rw [hrun, h.backup_setBackup] at hleaves
              exact restored_eq_backup hleaves
        rw [hrestored, DeploySpares, ht]
        refine ⟨rfl, ?_⟩
        obtain hb | hr := hnone
        · rw [hb]
          simp
        · rw [hr]
          cases P.backup s <;> simp

/-- **One attempt to update.** -/
theorem restored_update (h : P.Lawful) {T : τ} {s s' : σ} {u : UpdateSteps τ}
    (hrun : P.update u s = (false, s')) :
    P.restored s' = some T ↔ P.UpdateSpares T s u := by
  unfold update at hrun
  simp only [List.cons_append, List.nil_append] at hrun
  obtain ⟨b, r, hb, hr, hclear⟩ | ⟨hnone, s₁, hclear, htarget, hbackup⟩ :=
    clearBackup_cases h u.removeBackup s
  · rw [Step.inOrder_of_fails hclear] at hrun
    cases hrun
    rw [restored_eq_backup (h.backup_setBackup _ s), UpdateSpares, hb, hr]
    simp
  · rw [Step.inOrder_of_done hclear] at hrun
    have hspares : P.UpdateSpares T s u ↔ P.CopySpares T s u.copyBackup := by
      unfold UpdateSpares
      obtain hb | hr := hnone
      · rw [hb]
      · rw [hr]
        cases P.backup s <;> rfl
    rw [hspares, restored]
    unfold CopySpares
    cases ht : P.target s with
    | none =>
        have hcopy : P.copyToBackup u.copyBackup s₁ = (false, s₁) := by
          unfold copyToBackup
          rw [htarget, ht]
        rw [Step.inOrder_of_fails hcopy] at hrun
        cases hrun
        rw [hbackup, htarget, ht]
        simp
    | some t =>
        cases hcopy : u.copyBackup with
        | error left =>
            have hfails : P.copyToBackup u.copyBackup s₁ = (false, P.setBackup left s₁) := by
              unfold copyToBackup
              rw [htarget, ht, hbackup, hcopy]
            rw [Step.inOrder_of_fails hfails] at hrun
            cases hrun
            rw [h.backup_setBackup, h.target_setBackup, htarget, ht]
            cases left <;> simp
        | ok _ =>
            have hdone : P.copyToBackup u.copyBackup s₁ = (true, P.setBackup (some t) s₁) := by
              unfold copyToBackup
              rw [htarget, ht, hbackup, hcopy]
            rw [Step.inOrder_of_done hdone] at hrun
            have hleaves := leaves_updatePrograms h u (P.setBackup (some t) s₁)
            rw [hrun, h.backup_setBackup] at hleaves
            rw [hleaves]
            simp

/-! ## a run of failed attempts -/

/-- A rollback after any of the attempts leaves `T` at the target. -/
def Restores (P : Places σ τ) (command : δ → Step σ) (rollback : Step σ) (T : τ) (s : σ)
    (attempts : List δ) : Prop :=
  ∀ made s', made ≠ [] → made <+: attempts → run (failed command) s made = some s' →
    P.target (rollback s').2 = some T

/-- What each attempt leaves is what the rollback after it restores. -/
theorem restores_iff {command : δ → Step σ} {rollback : Step σ} {T : τ} {I : σ → Prop}
    {Spares : σ → δ → Prop}
    (hstep : ∀ s d s', I s → failed command s d = some s' →
      I s' ∧ (P.target (rollback s').2 = some T ↔ Spares s d))
    {s s' : σ} (h₀ : I s) {attempts : List δ} (hrun : run (failed command) s attempts = some s') :
    P.Restores command rollback T s attempts ↔ Along (failed command) Spares s attempts := by
  induction attempts generalizing s with
  | nil => exact iff_of_true (fun made s' hne hpre => absurd (List.prefix_nil.mp hpre) hne) trivial
  | cons d ds ih =>
      obtain ⟨m, hm, hrest⟩ := run_cons_eq_some.mp hrun
      obtain ⟨hI, hspares⟩ := hstep s d m h₀ hm
      rw [along_cons _ hm, ← hspares, ← ih hI hrest]
      constructor
      · intro hall
        refine ⟨hall [d] m (by simp) ⟨ds, rfl⟩ (run_cons_eq_some.mpr ⟨m, hm, rfl⟩), ?_⟩
        intro made s₁ _ hpre hmade
        exact hall (d :: made) s₁ (by simp) (List.cons_prefix_cons.mpr ⟨rfl, hpre⟩)
          (run_cons_eq_some.mpr ⟨m, hm, hmade⟩)
      · rintro ⟨hfirst, hrests⟩ made s₁ hne hpre hmade
        cases made with
        | nil => exact absurd rfl hne
        | cons d' made =>
            obtain ⟨heq, htail⟩ := List.cons_prefix_cons.mp hpre
            subst heq
            obtain ⟨m', hm', hmade⟩ := run_cons_eq_some.mp hmade
            obtain rfl : m = m' := Option.some_inj.mp (hm.symm.trans hm')
            cases made with
            | nil =>
                rw [run_nil, Option.some.injEq] at hmade
                exact hmade ▸ hfirst
            | cons d' made => exact hrests (d' :: made) s₁ (by simp) htail hmade

theorem deploy_restores_iff (h : P.Lawful) {T : τ} {s s' : σ} (hstart : P.target s = some T)
    {attempts : List (DeploySteps τ)} (hrun : run (failed P.deploy) s attempts = some s') :
    P.Restores P.deploy (P.rollback {}) T s attempts ↔
      Along (failed P.deploy) (P.DeploySpares T) s attempts := by
  refine restores_iff (I := fun s => (P.restored s).isSome) (fun s d s' hI hstep => ?_) ?_ hrun
  · rw [target_rollback h]
    exact restored_deploy h hI (failed_eq_some.mp hstep)
  · rw [restored, hstart]
    cases P.backup s <;> rfl

theorem update_restores_iff (h : P.Lawful) {T : τ} {s s' : σ}
    {attempts : List (UpdateSteps τ)} (hrun : run (failed P.update) s attempts = some s') :
    P.Restores P.update (P.updateRollback {}) T s attempts ↔
      Along (failed P.update) (P.UpdateSpares T) s attempts := by
  refine restores_iff (I := fun _ => True) (fun s u s' _ hstep => ⟨trivial, ?_⟩) trivial hrun
  rw [target_updateRollback h]
  exact restored_update h (failed_eq_some.mp hstep)

end Places

/-! ## a pair of trees -/

/-- The target and its backup as optional trees. -/
@[ext]
structure Deployment (τ : Type) where
  target : Option τ
  backup : Option τ := none
  deriving DecidableEq

/-- The two trees are all there is. -/
def Deployment.places (τ : Type) : Places (Deployment τ) τ where
  target := Deployment.target
  backup := Deployment.backup
  setTarget t s := { s with target := t }
  setBackup b s := { s with backup := b }

/-- The two places of a record are apart. -/
theorem Deployment.lawful (τ : Type) : (Deployment.places τ).Lawful :=
  ⟨fun _ _ => rfl, fun _ _ => rfl, fun _ _ => rfl, fun _ _ => rfl⟩

/-- **Rolling back after failed attempts.**  Started from a working tree, with or without
an old backup, a rollback restores that tree after each of a sequence of failed attempts to
deploy, or to update, exactly when every attempt spares it. -/
theorem rollback_restores_iff {T : τ} {backup : Option τ} :
    (∀ attempts s', run (failed (Deployment.places τ).deploy) ⟨some T, backup⟩ attempts = some s' →
      ((Deployment.places τ).Restores (Deployment.places τ).deploy
          ((Deployment.places τ).rollback {}) T ⟨some T, backup⟩ attempts ↔
        Along (failed (Deployment.places τ).deploy) ((Deployment.places τ).DeploySpares T)
          ⟨some T, backup⟩ attempts)) ∧
    (∀ attempts s', run (failed (Deployment.places τ).update) ⟨some T, backup⟩ attempts = some s' →
      ((Deployment.places τ).Restores (Deployment.places τ).update
          ((Deployment.places τ).updateRollback {}) T ⟨some T, backup⟩ attempts ↔
        Along (failed (Deployment.places τ).update) ((Deployment.places τ).UpdateSpares T)
          ⟨some T, backup⟩ attempts)) :=
  ⟨fun _ _ hrun => Places.deploy_restores_iff (Deployment.lawful τ) rfl hrun,
    fun _ _ hrun => Places.update_restores_iff (Deployment.lawful τ) hrun⟩

/-- The tests fail on what has been copied. -/
def testsFail (source : Nat) : DeploySteps Nat where
  copy := .ok source
  pip := .ok source
  tests := .error source
  restart := .ok source

/-- The tests fail on what has been pulled. -/
def updateTestsFail (source : Nat) : UpdateSteps Nat where
  pull := .ok source
  pythonExists := true
  runTests := true
  pip := .ok source
  tests := .error source
  restart := .ok source

/-- After one attempt the tree is still in the backup. -/
theorem rollback_restores_once :
    (Deployment.places Nat).Restores (Deployment.places Nat).deploy
      ((Deployment.places Nat).rollback {}) 0 ⟨some 0, none⟩ [testsFail 1] :=
  ((@rollback_restores_iff Nat 0 none).1 _ _ rfl).mpr ⟨rfl, fun _ _ => trivial⟩

/-- The second attempt overwrites it with the first. -/
theorem rollback_restores_failed :
    (∃ s, run (failed (Deployment.places Nat).deploy) ⟨some 0, none⟩ [testsFail 1, testsFail 2] =
        some s ∧
      ((Deployment.places Nat).rollback {} s).2.target = some 1) ∧
    ∃ s, run (failed (Deployment.places Nat).update) ⟨some 0, none⟩
        [updateTestsFail 1, updateTestsFail 2] = some s ∧
      ((Deployment.places Nat).updateRollback {} s).2.target = some 1 :=
  ⟨⟨_, rfl, rfl⟩, ⟨_, rfl, rfl⟩⟩

end RubicaBot
