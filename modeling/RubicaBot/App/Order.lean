import RubicaBot.App.Concurrency
import RubicaBot.Queue.Order

/-!
# RubicaBot.App.Order

The order in which the accepted jobs get to the workers.

Within a priority nothing overtakes in the queue (`InLine`).  A job that has left it can be
overtaken only while a suspended `get` holds it, and a worker that handles a job has no
suspended `get`.
-/

namespace RubicaBot

open Py Transition

/-- Of two lists in step, no two entries of which count at the same place. -/
theorem countP_add_length_flatMap_le {α β γ : Type} {f : α → Bool} {g : β → List γ}
    {xs : List α} {ys : List β} (hlength : xs.length = ys.length)
    (h : ∀ (i : Nat) x y, xs[i]? = some x → ys[i]? = some y → (f x).toNat + (g y).length ≤ 1) :
    xs.countP f + (ys.flatMap g).length ≤ ys.length := by
  induction xs generalizing ys with
  | nil =>
      obtain rfl := List.length_eq_zero_iff.mp hlength.symm
      exact Nat.le_refl 0
  | cons x xs ih =>
      cases ys with
      | nil => cases hlength
      | cons y ys =>
          have hhead := h 0 x y rfl rfl
          have htail := ih (Nat.succ.inj hlength) fun i x' y' hx' hy' => h (i + 1) x' y' hx' hy'
          have hcount : (x :: xs).countP f = xs.countP f + (f x).toNat := by
            rw [List.countP_cons]
            cases f x <;> rfl
          rw [hcount, List.flatMap_cons, List.length_append, List.length_cons]
          omega

namespace WorkerPool

theorem step_inLine {s s' : WorkerPool} {lab : Label} (hs : s.loop.InLine)
    (h : s.step lab = some s') : s'.loop.InLine :=
  step_lift (A := fun _ => True) (fun _ _ _ _ hs h => Loop.step_inLine hs h)
    (fun _ _ _ hq hs => hs.of_suffix rfl fun p => by rw [hq p])
    (fun _ _ => trivial) (fun _ _ => trivial) hs h

/-- A worker in its handler has no suspended `get`. -/
theorem Sound.heldFrom_le {s : WorkerPool} (hs : s.Sound) (p : JobPriority) :
    s.loop.heldFrom p + s.handling.length ≤ s.workers.length := by
  refine countP_add_length_flatMap_le hs.tasks fun i g w hg hw => ?_
  by_cases hlooping : w.phase = .looping
  · rw [hlooping]
    exact Bool.toNat_le _
  · have hidle : g.phase = .idle := hs.idle i w hw hlooping g hg
    rw [hidle, GetPhase.holdsFrom_idle]
    cases w.phase <;> simp [WorkerPhase.jobs]

end WorkerPool

namespace App

variable {d : AppSettings} {t₀ : Tables} {s s' : App}

/-- **Step lemma.** -/
theorem step_inLine (hs : s.pool.loop.InLine) {lab : Label} (h : s.step d lab = some s') :
    s'.pool.loop.InLine := by
  cases Step.of_step h with
  | turnedAway | resumed | janitor => exact hs
  | enqueue r limiter call hcall pool hpool => exact WorkerPool.step_inLine hs hpool
  | pool lab hlab l hown hcall pool hpool => exact WorkerPool.step_inLine hs hpool
  | waits l env stats i ql hown pool hpool => exact WorkerPool.step_inLine hs hpool
  | dispatch l env stats i ql hown pool hpool => exact WorkerPool.step_inLine hs hpool

/-- Nobody has come to a new process. -/
theorem init_inLine (d : AppSettings) (t₀ : Tables) : (init d t₀).pool.loop.InLine :=
  (Loop.init_inLine (max 1 d.concurrency).toNat d.queueMaxSize d.queueFullPolicy
    d.dedupTtl).of_suffix rfl fun p => by cases p <;> exact List.suffix_refl _

/-- **Run lemma.** -/
theorem run_inLine {ls : List Label} (h : run (step d) (init d t₀) ls = some s) :
    s.pool.loop.InLine :=
  run_invariant_of_step (I := fun s : App => s.pool.loop.InLine)
    (fun _ _ _ hs hstep => step_inLine hs hstep) (init_inLine d t₀) h

/-- What has left queue `p`, where everything put is accounted for. -/
theorem gone_perm {loop : Loop} {lost : List (Option Job)} (hc : loop.Conserved lost)
    {p : JobPriority} (hbelongs : ∀ p, ∀ item ∈ (loop.queue.queue p).items, Belongs p item)
    {front : List (Option Job)}
    (hfront : front ++ (loop.queue.queue p).items = (ofClass p loop.puts).reverse) :
    front.Perm (ofClass p
      (loop.returned ++ (loop.held ++ loop.evicted ++ loop.drained ++ lost))) := by
  have hwaiting : ofClass p loop.queue.waiting = (loop.queue.queue p).items := by
    have hhigh := hbelongs .high
    have hnormal := hbelongs .normal
    rw [JobQueue.waiting, ofClass_append]
    cases p with
    | high =>
        have hne : JobPriority.normal ≠ .high := by decide
        exact congrArg₂ (· ++ ·) (ofClass_eq_self hhigh) (ofClass_eq_nil hne hnormal) |>.trans
          (List.append_nil _)
    | normal =>
        have hne : JobPriority.high ≠ .normal := by decide
        exact congrArg₂ (· ++ ·) (ofClass_eq_nil hne hhigh) (ofClass_eq_self hnormal)
  have hplaces : (loop.places ++ lost).Perm (loop.queue.waiting ++
      (loop.returned ++ (loop.held ++ loop.evicted ++ loop.drained ++ lost))) := by
    rw [Loop.places]
    classical
    refine List.perm_iff_count.mpr fun item => ?_
    simp only [List.count_append]
    omega
  have hputs : (ofClass p loop.puts).Perm _ := (hc.trans hplaces).filter _
  rw [List.filter_append] at hputs
  refine (List.perm_append_right_iff (loop.queue.queue p).items).mp ?_
  rw [hfront, ← hwaiting]
  exact (List.reverse_perm _).trans (hputs.trans List.perm_append_comm)

/-- **No overtaking.**  The accepted jobs of each priority, in the order of acceptance, are
those that have left the queue followed by those that wait in it.  Those that have left have
been started, evicted, drained or thrown away, or are held by the suspended `get` of a
worker; and these are no more than the workers that handle no job. -/
theorem no_overtaking {ls : List Label} (h : run (step d) (init d t₀) ls = some s)
    (p : JobPriority) : ∃ gone : List Job,
      (s.pool.loop.acceptedJobs.filter (·.priority == p)).reverse =
        gone ++ (s.pool.loop.queue.queue p).items.reduceOption ∧
      gone.Perm ((s.starts.filterMap Start.job? ++
        (s.pool.loop.held ++ s.pool.loop.evicted ++ s.pool.loop.drained ++
          gather (step d) discarded (init d t₀) ls).reduceOption).filter (·.priority == p)) ∧
      (s.pool.loop.held.reduceOption.filter (·.priority == p)).length +
        s.pool.handling.length ≤ (max 1 d.concurrency).toNat := by
  have hs := run_sound h
  obtain ⟨front, hfront⟩ := run_inLine h p
  have hgone := gone_perm (run_accounted h).conserved hs.pool.covers.queue.belongs hfront
  refine ⟨front.reduceOption, ?_, ?_, ?_⟩
  · rw [← List.reduceOption_append, hfront, ← hs.supplied.accepted, ← ofClass_reduceOption]
    exact (List.filterMap_reverse ..).symm
  · have hjobs : front.reduceOption.Perm (ofClass p _).reduceOption := hgone.filterMap id
    rwa [ofClass_reduceOption, List.reduceOption_append, hs.pool.passed, ← hs.passed] at hjobs
  · have hheld := hs.pool.heldFrom_le p
    rw [← Loop.length_held hs.pool.covers, (run_serving h).staffed] at hheld
    have hjobs := List.reduceOption_length_le (ofClass p s.pool.loop.held)
    rw [ofClass_reduceOption] at hjobs
    omega

theorem no_overtaking_ping :
    ∃ (s : App) (gone : List Job),
      run (step pingSettings) (init pingSettings { rules := {} }) pingRun = some s ∧
        (s.pool.loop.acceptedJobs.filter (·.priority == .normal)).reverse =
          gone ++ s.pool.loop.queue.normalQueue.items.reduceOption := by
  have hrun := (Option.some_get pingRun_isSome).symm
  obtain ⟨gone, hgone, -, -⟩ := no_overtaking hrun .normal
  exact ⟨_, gone, hrun, hgone⟩

end App

end RubicaBot
