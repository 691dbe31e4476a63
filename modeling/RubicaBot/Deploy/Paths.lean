import Mathlib.Data.List.DropRight
import Mathlib.Data.List.Infix
import RubicaBot.Deploy.Rollback

/-!
# RubicaBot.Deploy.Paths

Deployments at two paths of one file system.

Whatever a command on the path `p` does, it writes at `p` and at its backup path only
(`Places.Avoids.step`); the programs that it runs are taken to work in the target.  The
backup path is `p.with_suffix(".bak")`, and that replaces the suffix of the name: a name
that ends in `.bak` is its own backup, and names that differ in the suffix only share one.
-/

namespace RubicaBot

/-! ## paths -/

/-- The components of an absolute path. -/
abbrev Path := List String

/-- `PurePath.stem`: the name without its suffix.  A dot at either end of the name does not
begin one. -/
def stem (name : String) : String :=
  let cs := name.toList
  if 1 < (cs.rdropWhile (· ≠ '.')).length ∧ cs.rtakeWhile (· ≠ '.') ≠ [] then
    String.ofList (cs.rdropWhile (· ≠ '.')).dropLast
  else name

/-- A path that has a name. -/
structure TargetPath where
  parent : Path
  name : String
  deriving DecidableEq

namespace TargetPath

/-- The path itself. -/
def path (p : TargetPath) : Path := p.parent ++ [p.name]

/-- `path.with_suffix(".bak")`. -/
def backup (p : TargetPath) : Path := p.parent ++ [stem p.name ++ ".bak"]

end TargetPath

/-- Neither path is the other or inside it. -/
def Apart (x y : Path) : Prop := ¬ x <+: y ∧ ¬ y <+: x

instance (x y : Path) : Decidable (Apart x y) := inferInstanceAs (Decidable (_ ∧ _))

/-- Neither comes first. -/
theorem Apart.symm {x y : Path} (h : Apart x y) : Apart y x := ⟨h.2, h.1⟩

/-! ## the file system -/

/-- A directory, or a file with its content. -/
inductive Entry where
  | directory
  | file (content : String)

/-- What there is at a path. -/
abbrev FileSystem := Path → Option Entry

/-- A file or a directory with all that is in it, by the paths from there. -/
abbrev Tree := { f : FileSystem // (f []).isSome }

namespace FileSystem

/-- All that is at a path and below. -/
def below (fs : FileSystem) (x : Path) : FileSystem := fun rest => fs (x ++ rest)

/-- The tree at a path that exists. -/
def treeAt (x : Path) (fs : FileSystem) : Option Tree :=
  if h : (fs x).isSome then
    some ⟨fs.below x, by rwa [below, List.append_nil]⟩
  else none

/-- The tree at the path is this one, or there is none. -/
def put (x : Path) (t : Option Tree) (fs : FileSystem) : FileSystem := fun y =>
  if x <+: y then t.bind fun t => t.1 (y.drop x.length) else fs y

/-- What is put is found below the path. -/
theorem put_append (x : Path) (t : Option Tree) (fs : FileSystem) (rest : Path) :
    put x t fs (x ++ rest) = t.bind fun t => t.1 rest := by
  rw [put, if_pos (List.prefix_append x rest), List.drop_left]

/-- And nothing of it elsewhere. -/
theorem below_put_of_apart {x y : Path} (h : Apart x y) (t : Option Tree) (fs : FileSystem) :
    (put x t fs).below y = fs.below y := by
  funext rest
  refine if_neg fun hpre => ?_
  exact (List.prefix_or_prefix_of_prefix hpre (List.prefix_append y rest)).elim h.1 h.2

/-- The tree is all there is below the path. -/
theorem treeAt_congr {x : Path} {fs fs' : FileSystem} (h : fs.below x = fs'.below x) :
    treeAt x fs = treeAt x fs' := by
  have hroot : fs x = fs' x := by simpa [below] using congrFun h []
  unfold treeAt
  simp only [hroot, h]

/-- What is put at a path is there. -/
theorem treeAt_put_self (x : Path) (t : Option Tree) (fs : FileSystem) :
    treeAt x (put x t fs) = t := by
  have hbelow : (put x t fs).below x = fun rest => t.bind fun t => t.1 rest :=
    funext (put_append x t fs)
  have hroot : put x t fs x = t.bind fun t => t.1 [] := by
    simpa [below] using congrFun hbelow []
  unfold treeAt
  cases t with
  | none => exact dif_neg (by simp [hroot])
  | some t =>
      rw [dif_pos (by simpa [hroot] using t.2)]
      exact congrArg some (Subtype.ext hbelow)

/-- What is at a path, from the tree there. -/
theorem apply_of_treeAt {x : Path} {fs : FileSystem} {t : Option Tree} (h : treeAt x fs = t) :
    fs x = t.bind fun t => t.1 [] := by
  subst h
  unfold treeAt
  split
  · simp [below]
  · next hnone => simpa using hnone

/-- The tree that is there. -/
theorem below_of_treeAt {x : Path} {fs : FileSystem} {t : Tree} (h : treeAt x fs = some t) :
    fs.below x = t.1 := by
  unfold treeAt at h
  split at h
  · cases h
    rfl
  · cases h

end FileSystem

open FileSystem

/-- The places of the commands on a path. -/
def TargetPath.places (p : TargetPath) : Places FileSystem Tree where
  target := treeAt p.path
  backup := treeAt p.backup
  setTarget := put p.path
  setBackup := put p.backup

/-- A backup with another name is a sibling. -/
theorem TargetPath.apart_backup {p : TargetPath} (h : p.backup ≠ p.path) :
    Apart p.backup p.path := by
  have hlength : p.backup.length = p.path.length := by simp [backup, path]
  exact ⟨fun hpre => h (hpre.eq_of_length hlength),
    fun hpre => h (hpre.eq_of_length hlength.symm).symm⟩

/-- So the two places are apart. -/
theorem TargetPath.lawful {p : TargetPath} (h : p.backup ≠ p.path) : p.places.Lawful where
  target_setTarget := treeAt_put_self p.path
  backup_setBackup := treeAt_put_self p.backup
  backup_setTarget := fun t fs =>
    treeAt_congr (below_put_of_apart (apart_backup h).symm t fs)
  target_setBackup := fun b fs => treeAt_congr (below_put_of_apart (apart_backup h) b fs)

/-- What is said of a pair of trees is true of the two paths, if they are two. -/
theorem TargetPath.deploy_restores_iff {p : TargetPath} (h : p.backup ≠ p.path) {T : Tree}
    {fs fs' : FileSystem} (hstart : treeAt p.path fs = some T)
    {attempts : List (DeploySteps Tree)}
    (hrun : Transition.run (failed p.places.deploy) fs attempts = some fs') :
    p.places.Restores p.places.deploy (p.places.rollback {}) T fs attempts ↔
      Transition.Along (failed p.places.deploy) (p.places.DeploySpares T) fs attempts :=
  Places.deploy_restores_iff (lawful h) hstart hrun

/-! ## what a command leaves alone -/

/-- The commands on a path, each with what its steps do. -/
inductive PathCommand (τ : Type) where
  | deploy (d : DeploySteps τ)
  | rollback (r : RollbackSteps τ)
  | update (u : UpdateSteps τ)
  | updateRollback (r : RollbackSteps τ)
  | prepareInstallPath (hasEntries : τ → Bool) (chosen : InstallAction) (left : Option τ)
      (moveFails : Bool)

namespace Places

variable {σ τ α : Type}

/-- What a command does at its two places. -/
def step (P : Places σ τ) : PathCommand τ → Step σ
  | .deploy d => P.deploy d
  | .rollback r => P.rollback r
  | .update u => P.update u
  | .updateRollback r => P.updateRollback r
  | .prepareInstallPath hasEntries chosen left moveFails =>
      P.prepareInstallPath hasEntries chosen left moveFails

/-- The state after the commands, whether they fail or not. -/
def after (P : Places σ τ) (s : σ) (commands : List (PathCommand τ)) : σ :=
  commands.foldl (fun s c => (P.step c s).2) s

/-- What `f` shows is at neither place. -/
structure Avoids (P : Places σ τ) (f : σ → α) : Prop where
  setTarget : ∀ t s, f (P.setTarget t s) = f s
  setBackup : ∀ b s, f (P.setBackup b s) = f s

namespace Avoids

variable {P : Places σ τ} {f : σ → α}

/-- Clearing the backup. -/
theorem clearBackup (h : P.Avoids f) (left : Option τ) : Step.Leaves f (P.clearBackup left) := by
  intro s
  unfold Places.clearBackup
  split
  · exact h.setBackup _ s
  · rfl

/-- Clearing the target. -/
theorem clearTarget (h : P.Avoids f) (left : Option τ) : Step.Leaves f (P.clearTarget left) := by
  intro s
  unfold Places.clearTarget
  split
  · exact h.setTarget _ s
  · rfl

/-- Moving the target away. -/
theorem moveToBackup (h : P.Avoids f) (fails : Bool) : Step.Leaves f (P.moveToBackup fails) := by
  intro s
  unfold Places.moveToBackup
  split
  · rfl
  · split
    · rfl
    · exact (h.setBackup _ _).trans (h.setTarget _ s)

/-- Moving the backup back. -/
theorem moveBack (h : P.Avoids f) (fails : Bool) : Step.Leaves f (P.moveBack fails) := by
  intro s
  unfold Places.moveBack
  split
  · rfl
  · split
    · rfl
    · exact (h.setTarget _ _).trans (h.setBackup _ s)

/-- Copying the target. -/
theorem copyToBackup (h : P.Avoids f) (copy : Except (Option τ) Unit) :
    Step.Leaves f (P.copyToBackup copy) := by
  intro s
  unfold Places.copyToBackup
  split
  · rfl
  · rfl
  · exact h.setBackup _ s
  · exact h.setBackup _ s

/-- The old backup goes, and the target takes its place. -/
theorem makeBackup (h : P.Avoids f) (left : Option τ) (fails : Bool) :
    ∀ step ∈ [P.clearBackup left, P.moveToBackup fails], Step.Leaves f step :=
  List.forall_mem_cons.mpr
    ⟨h.clearBackup left, List.forall_mem_singleton.mpr (h.moveToBackup fails)⟩

/-- `deploy` leaves alone what neither place is part of. -/
theorem deploy (h : P.Avoids f) (d : DeploySteps τ) : Step.Leaves f (P.deploy d) := by
  intro s
  refine Step.Leaves.inOrder (fun step hstep => ?_) s
  obtain hstep | hstep := List.mem_append.mp hstep
  · split at hstep
    · exact h.makeBackup _ _ step hstep
    · exact absurd hstep List.not_mem_nil
  · simp only [List.mem_cons, List.not_mem_nil, or_false] at hstep
    obtain rfl | rfl | rfl | rfl := hstep
    · exact leaves_copySource h.setTarget _
    all_goals exact leaves_program h.setTarget _

/-- So does `rollback`. -/
theorem rollback (h : P.Avoids f) (r : RollbackSteps τ) : Step.Leaves f (P.rollback r) := by
  intro s
  unfold Places.rollback
  split
  · refine Step.Leaves.inOrder (fun step hstep => ?_) s
    simp only [List.mem_cons, List.not_mem_nil, or_false] at hstep
    obtain rfl | rfl | rfl := hstep
    · exact h.clearTarget _
    · exact h.moveBack _
    · exact fun _ => rfl
  · rfl

/-- And `update`. -/
theorem update (h : P.Avoids f) (u : UpdateSteps τ) : Step.Leaves f (P.update u) := by
  refine Step.Leaves.inOrder fun step hstep => ?_
  obtain hstep | hstep := List.mem_append.mp hstep
  · simp only [List.mem_cons, List.not_mem_nil, or_false] at hstep
    obtain rfl | rfl := hstep
    · exact h.clearBackup _
    · exact h.copyToBackup _
  · obtain ⟨p, rfl⟩ := exists_program_of_mem hstep
    exact leaves_program h.setTarget p

/-- And its rollback. -/
theorem updateRollback (h : P.Avoids f) (r : RollbackSteps τ) :
    Step.Leaves f (P.updateRollback r) := by
  intro s
  unfold Places.updateRollback
  split
  · exact h.rollback r s
  · rfl

/-- And the installer. -/
theorem prepareInstallPath (h : P.Avoids f) (hasEntries : τ → Bool) (chosen : InstallAction)
    (left : Option τ) (moveFails : Bool) :
    Step.Leaves f (P.prepareInstallPath hasEntries chosen left moveFails) := by
  intro s
  unfold Places.prepareInstallPath
  split
  · rfl
  · split
    · cases chosen with
      | backup => exact Step.Leaves.inOrder (h.makeBackup left moveFails) s
      | remove => exact h.clearTarget _ s
      | abort => rfl
    · rfl

/-- **No command writes anywhere but at its two places.** -/
theorem step (h : P.Avoids f) (c : PathCommand τ) : Step.Leaves f (P.step c) := by
  cases c with
  | deploy d => exact h.deploy d
  | rollback r => exact h.rollback r
  | update u => exact h.update u
  | updateRollback r => exact h.updateRollback r
  | prepareInstallPath hasEntries chosen left moveFails =>
      exact h.prepareInstallPath hasEntries chosen left moveFails

/-- And any sequence of these. -/
theorem after (h : P.Avoids f) (s : σ) (commands : List (PathCommand τ)) :
    f (P.after s commands) = f s := by
  induction commands generalizing s with
  | nil => rfl
  | cons c commands ih => exact (ih _).trans (h.step c s)

end Avoids

end Places

/-! ## two paths -/

/-- A path apart from both is avoided. -/
theorem TargetPath.avoids {p : TargetPath} {x : Path} (hpath : Apart p.path x)
    (hbackup : Apart p.backup x) : p.places.Avoids fun fs => fs.below x where
  setTarget := below_put_of_apart hpath
  setBackup := below_put_of_apart hbackup

/-- A path that is not above `p` is above the backup of `p` only if it is that. -/
theorem TargetPath.prefix_backup_iff {p : TargetPath} {x : Path} (h : ¬ x <+: p.path) :
    x <+: p.backup ↔ x = p.backup := by
  rw [backup, List.prefix_concat_iff]
  exact or_iff_left fun hparent => h (hparent.trans (List.prefix_append _ _))

/-- The commands on `p` do not show at `q`, nor at the backup of `q`. -/
def Undisturbed (p q : TargetPath) : Prop :=
  ∀ (fs : FileSystem) (commands : List (PathCommand Tree)),
    (p.places.after fs commands).below q.path = fs.below q.path ∧
      (p.places.after fs commands).below q.backup = fs.below q.backup

/-- The backup path of `p` has nothing to do with `q`, nor that of `q` with `p`. -/
def BackupsApart (p q : TargetPath) : Prop :=
  p.backup ≠ p.path ∧ p.backup ≠ q.backup ∧ ¬ p.backup <+: q.path ∧ ¬ q.backup <+: p.path

instance (p q : TargetPath) : Decidable (BackupsApart p q) :=
  inferInstanceAs (Decidable (_ ∧ _ ∧ _ ∧ _))

/-- If all four places are apart, neither bot disturbs the other. -/
theorem BackupsApart.undisturbed {p q : TargetPath} (hpq : Apart p.path q.path)
    (h : BackupsApart p q) : Undisturbed p q := by
  obtain ⟨-, hne, hp, hq⟩ := h
  have hbackup : Apart p.backup q.path :=
    ⟨hp, fun hpre => hp ((TargetPath.prefix_backup_iff hpq.2).mp hpre ▸ List.prefix_rfl)⟩
  have hpath : Apart p.path q.backup :=
    ⟨fun hpre => hq ((TargetPath.prefix_backup_iff hpq.1).mp hpre ▸ List.prefix_rfl), hq⟩
  have hbackups : Apart p.backup q.backup :=
    ⟨fun hpre => hne ((TargetPath.prefix_backup_iff hp).mp hpre),
      fun hpre => hne ((TargetPath.prefix_backup_iff hq).mp hpre).symm⟩
  exact fun fs commands => ⟨(TargetPath.avoids hpq hbackup).after fs commands,
    (TargetPath.avoids hpath hbackups).after fs commands⟩

/-- The source cannot be copied. -/
def copyFails : DeploySteps Tree where
  copy := .error none
  pip := .error ⟨fun _ => some .directory, rfl⟩
  tests := .error ⟨fun _ => some .directory, rfl⟩
  restart := .error ⟨fun _ => some .directory, rfl⟩

/-- The deployment stops when the target has been moved. -/
theorem deploy_copyFails {P : Places FileSystem Tree} (h : P.Lawful) {fs : FileSystem} {t : Tree}
    (ht : P.target fs = some t) : P.target (P.deploy copyFails fs).2 = none ∧
      P.backup (P.deploy copyFails fs).2 = some t := by
  unfold Places.deploy
  cases hb : P.backup fs <;>
    simp [ht, hb, Step.inOrder, Step.andThen, Places.clearBackup, Places.moveToBackup,
      Places.copySource, copyFails, h.target_setTarget, h.target_setBackup, h.backup_setBackup,
      h.backup_setTarget]

/-- There are directories everywhere, but nothing in that at `x`. -/
def emptyAt (x : Path) : FileSystem := fun y =>
  if x <+: y ∧ x ≠ y then none else some .directory

/-- A deployment at `p` shows wherever the backup of `p` is above, or that of `q` is above
`p`. -/
theorem not_undisturbed {p q : TargetPath} (hpq : Apart p.path q.path)
    (hself : p.backup ≠ p.path)
    (h : p.backup <+: q.path ∧ p.backup ≠ q.path ∨ q.backup <+: p.path) : ¬ Undisturbed p q := by
  intro hundisturbed
  have hlawful := TargetPath.lawful hself
  have hroot : emptyAt p.path p.path = some .directory := if_neg fun h => h.2 rfl
  obtain ⟨t, ht⟩ : ∃ t, p.places.target (emptyAt p.path) = some t :=
    ⟨_, dif_pos (by rw [hroot]; rfl)⟩
  obtain ⟨htarget, hbackup⟩ := deploy_copyFails hlawful ht
  obtain ⟨hq, hqbackup⟩ := hundisturbed (emptyAt p.path) [.deploy copyFails]
  have hafter : p.places.after (emptyAt p.path) [.deploy copyFails] =
      (p.places.deploy copyFails (emptyAt p.path)).2 := rfl
  rw [hafter] at hq hqbackup
  obtain ⟨⟨rest, hrest⟩, hne⟩ | ⟨rest, hrest⟩ := h
  · -- the backup is the empty target
    have hne' : rest ≠ [] := fun hnil => hne (by rw [← hrest, hnil, List.append_nil])
    have hempty : t.1 rest = none := by
      rw [← below_of_treeAt ht]
      exact if_pos ⟨List.prefix_append _ _, fun heq => hne' (List.self_eq_append_right.mp heq)⟩
    have hbefore : emptyAt p.path q.path = some .directory := if_neg fun hin => hpq.1 hin.1
    have hnow := congrFun (below_of_treeAt hbackup) rest
    have hsame := congrFun hq []
    rw [below, below, List.append_nil, hbefore, ← hrest] at hsame
    rw [below, hsame, hempty] at hnow
    cases hnow
  · -- the target is gone
    have hgone := apply_of_treeAt htarget
    have hsame := congrFun hqbackup rest
    rw [below, below, hrest, hroot, hgone] at hsame
    cases hsame

/-- **Deployments at different paths.**  For two paths neither of which is inside the
other, no commands on one show at the other or at its backup, and its backup path is a path
of its own, exactly when the backup paths are apart. -/
theorem undisturbed_iff {p q : TargetPath} (hpq : Apart p.path q.path) :
    (p.backup ≠ p.path ∧ p.backup ≠ q.path ∧ p.backup ≠ q.backup ∧ Undisturbed p q) ↔
      BackupsApart p q := by
  constructor
  · rintro ⟨hself, hq, hbackups, hundisturbed⟩
    refine ⟨hself, hbackups, fun hpre => ?_, fun hpre => ?_⟩
    · exact not_undisturbed hpq hself (.inl ⟨hpre, hq⟩) hundisturbed
    · exact not_undisturbed hpq hself (.inr hpre) hundisturbed
  · intro h
    exact ⟨h.1, fun heq => h.2.2.1 (heq ▸ List.prefix_rfl), h.2.1, h.undisturbed hpq⟩

/-- A name with a suffix. -/
def namedV1 : TargetPath := ⟨["opt"], "bot.v1"⟩

/-- A name with the same stem. -/
def namedV2 : TargetPath := ⟨["opt"], "bot.v2"⟩

/-- A name with the suffix of a backup. -/
def namedBak : TargetPath := ⟨["opt"], "bot.bak"⟩

/-- Two versions side by side share the backup path, and a directory that is named like a
backup is its own. -/
theorem backup_namedV1 : Apart namedV1.path namedV2.path ∧ namedV1.backup = namedV2.backup ∧
    namedBak.backup = namedBak.path := by decide

/-- Two bots whose names have no suffix. -/
theorem undisturbed_botA_botB :
    Undisturbed ⟨["opt"], "bot-a"⟩ ⟨["opt"], "bot-b"⟩ :=
  ((undisturbed_iff (by decide)).mpr (by decide)).2.2.2

end RubicaBot
