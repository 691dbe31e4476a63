import RubicaBot.Transition

/-!
# RubicaBot.Deploy

`botctl deploy` and `rollback`, `rubikactl update` and `rollback`, and
`prepare_install_path` of `install.py`.

A command is a sequence of steps, and the first that fails ends it.  What the steps leave
behind is not up to the program: it comes with each step (`DeploySteps`, `UpdateSteps`,
`RollbackSteps`), also when the step fails half way.

All that the commands know of the file system is the tree at the target path and the one
at the backup path, so they are written over any state that has these two (`Places`).  The
plainest is a pair of optional trees (`Deployment`); the file system is another.
-/

namespace RubicaBot

/-- A step of a command: whether it is done, and the state it leaves. -/
abbrev Step (σ : Type) := σ → Bool × σ

namespace Step

variable {σ : Type}

/-- A failure ends the command. -/
def andThen (step next : Step σ) : Step σ := fun s =>
  if (step s).1 then next (step s).2 else step s

/-- One step after another. -/
def inOrder : List (Step σ) → Step σ
  | [] => fun s => (true, s)
  | step :: steps => step.andThen (inOrder steps)

/-- A step that fails is the last. -/
theorem inOrder_of_fails {step : Step σ} {s s' : σ} (h : step s = (false, s'))
    (steps : List (Step σ)) : inOrder (step :: steps) s = (false, s') := by
  rw [inOrder, andThen, h]
  rfl

/-- One that does not is followed by the others. -/
theorem inOrder_of_done {step : Step σ} {s s' : σ} (h : step s = (true, s'))
    (steps : List (Step σ)) : inOrder (step :: steps) s = inOrder steps s' := by
  rw [inOrder, andThen, h]
  rfl

/-- The step does not change what `f` shows. -/
def Leaves {α : Type} (f : σ → α) (step : Step σ) : Prop := ∀ s, f (step s).2 = f s

/-- One step after the other. -/
theorem Leaves.andThen {α : Type} {f : σ → α} {step next : Step σ} (h : Leaves f step)
    (hnext : Leaves f next) : Leaves f (step.andThen next) := by
  intro s
  unfold Step.andThen
  split
  · rw [hnext, h]
  · exact h s

/-- All of them. -/
theorem Leaves.inOrder {α : Type} {f : σ → α} {steps : List (Step σ)}
    (h : ∀ step ∈ steps, Leaves f step) : Leaves f (inOrder steps) := by
  induction steps with
  | nil => exact fun _ => rfl
  | cons step steps ih =>
      obtain ⟨hstep, hsteps⟩ := List.forall_mem_cons.mp h
      exact hstep.andThen (ih hsteps)

end Step

/-- The tree at the target path and the one at the backup path. -/
structure Places (σ τ : Type) where
  target : σ → Option τ
  backup : σ → Option τ
  setTarget : Option τ → σ → σ
  setBackup : Option τ → σ → σ

/-- What the steps of `deploy` do: what a failing `rmtree` leaves of the old backup,
whether `move` fails, what `copytree` makes of the source, and the target after each of
the programs that are run. -/
structure DeploySteps (τ : Type) where
  removeBackup : Option τ := none
  moveFails : Bool := false
  copy : Except (Option τ) τ
  pip : Except τ τ
  tests : Except τ τ
  restart : Except τ τ

/-- What the steps of `update` do.  `pip` and the tests are run only if the virtual
environment is there. -/
structure UpdateSteps (τ : Type) where
  removeBackup : Option τ := none
  copyBackup : Except (Option τ) Unit := .ok ()
  pull : Except τ τ
  pythonExists : Bool
  runTests : Bool
  pip : Except τ τ
  tests : Except τ τ
  restart : Except τ τ

/-- What the steps of a rollback do. -/
structure RollbackSteps (τ : Type) where
  removeTarget : Option τ := none
  moveFails : Bool := false
  restartFails : Bool := false

/-- What the user chooses for a directory that is not empty. -/
inductive InstallAction where
  | backup
  | remove
  | abort

namespace Places

variable {σ τ : Type} (P : Places σ τ)

/-! ## the steps -/

/-- `if backup.exists(): shutil.rmtree(backup)`. -/
def clearBackup (left : Option τ) : Step σ := fun s =>
  if (P.backup s).isSome then (left.isNone, P.setBackup left s) else (true, s)

/-- `if target.exists(): shutil.rmtree(target)`. -/
def clearTarget (left : Option τ) : Step σ := fun s =>
  if (P.target s).isSome then (left.isNone, P.setTarget left s) else (true, s)

/-- `shutil.move(target, backup)`.  The two are siblings, so a move is a rename, and one that
fails moves nothing. -/
def moveToBackup (fails : Bool) : Step σ := fun s =>
  match P.target s with
  | none => (false, s)
  | some t => if fails then (false, s) else (true, P.setBackup (some t) (P.setTarget none s))

/-- `shutil.move(backup, target)`, a rename as well. -/
def moveBack (fails : Bool) : Step σ := fun s =>
  match P.backup s with
  | none => (false, s)
  | some b => if fails then (false, s) else (true, P.setTarget (some b) (P.setBackup none s))

/-- `shutil.copytree(source, target)`. -/
def copySource (copy : Except (Option τ) τ) : Step σ := fun s =>
  match P.target s, copy with
  | some _, _ => (false, s)
  | none, .error left => (false, P.setTarget left s)
  | none, .ok t => (true, P.setTarget (some t) s)

/-- `shutil.copytree(target, backup)`. -/
def copyToBackup (copy : Except (Option τ) Unit) : Step σ := fun s =>
  match P.target s, P.backup s, copy with
  | none, _, _ => (false, s)
  | _, some _, _ => (false, s)
  | some _, none, .error left => (false, P.setBackup left s)
  | some t, none, .ok () => (true, P.setBackup (some t) s)

/-- A program that works on the target. -/
def program : Except τ τ → Step σ
  | .error left => fun s => (false, P.setTarget (some left) s)
  | .ok left => fun s => (true, P.setTarget (some left) s)

/-! ## the commands -/

/-- `deploy`. -/
def deploy (d : DeploySteps τ) : Step σ := fun s =>
  Step.inOrder
    ((if (P.target s).isSome then [P.clearBackup d.removeBackup, P.moveToBackup d.moveFails]
      else []) ++
      [P.copySource d.copy, P.program d.pip, P.program d.tests, P.program d.restart]) s

/-- `rollback` of `botctl`. -/
def rollback (r : RollbackSteps τ) : Step σ := fun s =>
  if (P.backup s).isSome then
    Step.inOrder [P.clearTarget r.removeTarget, P.moveBack r.moveFails,
      fun s => (!r.restartFails, s)] s
  else (true, s)

/-- The programs that `update` runs. -/
def updatePrograms (u : UpdateSteps τ) : List (Step σ) :=
  [P.program u.pull] ++
    (if u.pythonExists then
      [P.program u.pip] ++ (if u.runTests then [P.program u.tests] else [])
    else []) ++
    [P.program u.restart]

/-- `update`; `--backup` is on, and there is no option to turn it off. -/
def update (u : UpdateSteps τ) : Step σ :=
  Step.inOrder
    ([P.clearBackup u.removeBackup, P.copyToBackup u.copyBackup] ++ P.updatePrograms u)

/-- `rollback` of `rubikactl`: without a backup it raises. -/
def updateRollback (r : RollbackSteps τ) : Step σ := fun s =>
  if (P.backup s).isSome then P.rollback r s else (false, s)

/-- `prepare_install_path`, with the action that is chosen. -/
def prepareInstallPath (hasEntries : τ → Bool) (chosen : InstallAction) (left : Option τ)
    (moveFails : Bool) : Step σ := fun s =>
  match P.target s with
  | none => (true, s)
  | some t =>
      if hasEntries t then
        match chosen with
        | .backup => Step.inOrder [P.clearBackup left, P.moveToBackup moveFails] s
        | .remove => P.clearTarget left s
        | .abort => (false, s)
      else (true, s)

end Places

end RubicaBot
