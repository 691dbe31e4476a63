import RubicaBot.Queue.Interleaving

/-!
# RubicaBot.Queue.Conservation

Where the items put into a `JobQueue` are.

`Accounted` says that they are, as a multiset, the items waiting in the two
FIFOs, held by child tasks of suspended calls of `get`, returned by `get`,
evicted by `_drop_oldest` and removed by `drain`.  Every branch of the step
function moves items between these places, with one exception: a `get` that
resumes with *both* child tasks done returns the result of one and forgets the
other.  `discarded` is that item, and `run_conserves` accounts for every run
including what its steps discarded.
-/

namespace RubicaBot

open Transition

/-- What the child task that is not `winner` holds. -/
def GetPhase.loser : GetPhase → JobPriority → List (Option Job)
  | .idle, _ => []
  | .waiting _ normalTask, .high => normalTask.held
  | .waiting highTask _, .normal => highTask.held

/-- Both child tasks have completed. -/
def GetPhase.bothDone : GetPhase → Bool
  | .waiting (.done _) (.done _) => true
  | _ => false

/-- The winner's item and the loser's are what the suspended `get` holds. -/
theorem GetPhase.held_perm_loser {phase : GetPhase} {winner : JobPriority} {item : Option Job}
    (h : phase.task winner = some (.done item)) :
    phase.held.Perm (item :: phase.loser winner) := by
  cases phase with
  | idle => simp [task] at h
  | waiting highTask normalTask =>
      cases winner with
      | high =>
          simp only [task, Option.some.injEq] at h
          simp [held, loser, h, ChildTask.held]
      | normal =>
          simp only [task, Option.some.injEq] at h
          simp only [held, loser, h, ChildTask.held]
          exact List.perm_append_singleton _ _

namespace Loop

/-- The places an item can be in. -/
def places (s : Loop) : List (Option Job) :=
  s.queue.waiting ++ s.held ++ s.returned ++ s.evicted ++ s.drained

/-- Every item that was put is in exactly one place. -/
def Accounted (s : Loop) : Prop := s.puts.Perm s.places

/-- What a step takes out of every place: the loser's item when `get` resumes. -/
def discarded (s : Loop) : Label → List (Option Job)
  | .resume i winner =>
      match s.getters[i]? with
      | some g => g.phase.loser winner
      | none => []
  | _ => []

/-- The step is not a `get` resuming with both of its child tasks done. -/
def NoDoubleTake (s : Loop) : Label → Prop
  | .resume i _ => ∀ g ∈ s.getters[i]?, g.phase.bothDone = false
  | _ => True

/-- The put items are those in some place and the `lost` ones. -/
def Conserved (s : Loop) (lost : List (Option Job)) : Prop := s.puts.Perm (s.places ++ lost)

/-! ## counting -/

/-- Conservation, counted for one predicate on items at a time. -/
theorem conserved_iff (s : Loop) (lost : List (Option Job)) :
    s.Conserved lost ↔ ∀ f : Option Job → Bool,
      s.puts.countP f = s.queue.waiting.countP f + s.held.countP f + s.returned.countP f +
        s.evicted.countP f + s.drained.countP f + lost.countP f := by
  constructor
  · intro h f
    have hcount := h.countP_eq f
    simpa only [places, List.countP_append] using hcount
  · intro h
    classical
    refine List.perm_iff_count.mpr fun item => ?_
    have hcount := h (· == item)
    simpa only [Conserved, places, List.count, List.countP_append] using hcount

/-- What `enqueueLocked` puts and evicts is the change of the FIFOs. -/
theorem countP_enqueueLocked (q : JobQueue) (job : Job) (f : Option Job → Bool) :
    (q.enqueueLocked job).2.waiting.countP f +
        ((q.enqueueEvents job).filterMap Event.evicted?).countP f =
      q.waiting.countP f + ((q.enqueueEvents job).filterMap Event.put?).countP f := by
  have hput (q : JobQueue) := (q.waiting_put job).countP_eq f
  unfold JobQueue.enqueueLocked JobQueue.enqueueEvents
  by_cases hfull : q.isFull
  · by_cases hpolicy : q.fullPolicy = "drop_oldest"
    · have hdrop := q.dropOldest_spec
      simp only [hfull, hpolicy, if_true, JobQueue.waiting_counted, hput]
      cases hv : q.victim with
      | some item =>
          rw [hv] at hdrop
          have hcount := hdrop.1.countP_eq f
          simp only [Option.toList_some, List.map_cons, List.map_nil, List.filterMap_cons,
            List.filterMap_nil, Event.evicted?, Event.put?, List.countP_cons,
            List.countP_nil] at hcount ⊢
          omega
      | none =>
          rw [hv] at hdrop
          simp [hdrop.2, Event.evicted?, Event.put?, List.countP_cons]
    · simp [hfull, hpolicy]
  · simp [hfull, hput, Event.evicted?, Event.put?, List.countP_cons]

/-! ## one step, one run -/

/-- **Step lemma.**  A step keeps the account, up to what it discards. -/
theorem step_conserves {s s' : Loop} {l : Label} {lost : List (Option Job)}
    (hc : s.Conserved lost) (h : s.step l = some s') : s'.Conserved (lost ++ s.discarded l) := by
  rw [conserved_iff] at hc ⊢
  intro f
  have hf := hc f
  cases Step.of_step h with
  | duplicate job now q hclock hseen =>
      obtain ⟨-, -, hw, -⟩ := JobQueue.seenCheck_spec hseen
      simpa [puts, held, returned, evicted, drained, discarded, hw, List.filterMap_cons, Event.put?,
        Event.returned?, Event.evicted?, Event.drained?] using hf
  | fresh job now q hclock hseen =>
      obtain ⟨-, -, hw, -⟩ := JobQueue.seenCheck_spec hseen
      simpa [puts, held, returned, evicted, drained, discarded, hw] using hf
  | locked i call hcall =>
      have hcount := countP_enqueueLocked s.queue call.job f
      simp only [puts, held, returned, evicted, drained, discarded, List.filterMap_cons,
        List.filterMap_append, Event.put?, Event.returned?, Event.evicted?, Event.drained?,
        JobQueue.enqueueEvents_returned, JobQueue.enqueueEvents_drained, List.nil_append,
        List.append_nil, List.countP_append] at hf ⊢
      omega
  | putRaw =>
      have hcount := (s.queue.waiting_putRaw none).countP_eq f
      simp only [puts, held, returned, evicted, drained, discarded, List.filterMap_cons,
        Event.put?, Event.returned?, Event.evicted?, Event.drained?, List.append_nil,
        List.countP_cons] at hf hcount ⊢
      omega
  | dropOldest =>
      have hdrop := s.queue.dropOldest_spec
      simp only [puts, held, returned, evicted, drained, discarded, List.filterMap_append,
        Event.put_evicted, Event.returned_evicted, Event.evicted_evicted, Event.drained_evicted,
        List.nil_append, List.append_nil, List.countP_append] at hf ⊢
      cases hv : s.queue.victim with
      | some item =>
          rw [hv] at hdrop
          have hcount := hdrop.1.countP_eq f
          simp only [Option.toList_some, List.countP_cons, List.countP_nil] at hcount ⊢
          omega
      | none =>
          rw [hv] at hdrop
          simp only [hdrop.2, Option.toList_none, List.countP_nil]
          omega
  | drain =>
      simp only [puts, held, returned, evicted, drained, discarded, List.filterMap_append,
        Event.put_drained, Event.returned_drained, Event.evicted_drained, Event.drained_drained,
        List.nil_append, List.append_nil, List.countP_append, List.countP_nil,
        JobQueue.waiting_drain] at hf ⊢
      omega
  | getReady i lastQueue item p q hgetter hready =>
      obtain ⟨m, htake, rfl, -⟩ := JobQueue.getReady_eq_some hready
      have hcount := (JobQueue.waiting_takeFrom htake).countP_eq f
      have hset := countP_flatMap_set f (fun g : Getter => g.phase.held) (y := ⟨.idle, some p⟩)
        hgetter
      simp only [puts, held, returned, evicted, drained, discarded, List.filterMap_cons,
        Event.put?, Event.returned?, Event.evicted?, Event.drained?, List.append_nil,
        GetPhase.held, List.countP_nil, List.countP_cons, JobQueue.waiting_decremented]
        at hf hcount hset ⊢
      omega
  | getWait i lastQueue hgetter hready =>
      have hset := countP_flatMap_set f (fun g : Getter => g.phase.held)
        (y := ⟨.waiting .pending .pending, lastQueue⟩) hgetter
      simp only [puts, held, returned, evicted, drained, discarded, List.append_nil,
        GetPhase.held, ChildTask.held, List.countP_nil] at hf hset ⊢
      omega
  | childTakes i p phase lastQueue item q hgetter htask htake =>
      have hcount := (JobQueue.waiting_takeFrom htake).countP_eq f
      have hcomplete := (GetPhase.held_complete item htask).countP_eq f
      have hset := countP_flatMap_set f (fun g : Getter => g.phase.held)
        (y := ⟨phase.complete p item, lastQueue⟩) hgetter
      simp only [puts, held, returned, evicted, drained, discarded, List.append_nil,
        List.countP_cons] at hf hcount hcomplete hset ⊢
      omega
  | resume i winner phase lastQueue item hgetter htask =>
      have hloser := (GetPhase.held_perm_loser htask).countP_eq f
      have hset := countP_flatMap_set f (fun g : Getter => g.phase.held)
        (y := ⟨.idle, some winner⟩) hgetter
      simp only [puts, held, returned, evicted, drained, discarded, hgetter, List.filterMap_cons,
        Event.put?, Event.returned?, Event.evicted?, Event.drained?, GetPhase.held,
        List.countP_nil, List.countP_cons, List.countP_append, JobQueue.waiting_decremented]
        at hf hloser hset ⊢
      omega
  | taskDone i job getter hgetter =>
      simpa [puts, held, returned, evicted, drained, discarded] using hf

/-- A queue that has just been made holds nothing. -/
theorem init_conserved (n : Nat) (maxSize : Int) (fullPolicy : String) (ttl : ℚ) :
    (init n maxSize fullPolicy ttl).Conserved [] := by
  rw [Conserved, places, held_init, waiting_init]
  exact List.Perm.refl _

/-- **Conservation.**  After any run the items put are those in some place and
those its steps discarded. -/
theorem run_conserves {n : Nat} {maxSize : Int} {fullPolicy : String} {ttl : ℚ} {ls : List Label}
    {s : Loop} (h : run step (init n maxSize fullPolicy ttl) ls = some s) :
    s.Conserved (gather step discarded (init n maxSize fullPolicy ttl) ls) := by
  have hrun := run_gather (f := discarded) (I := Conserved)
    (fun _ _ _ _ hc hstep => step_conserves hc hstep)
    (init_conserved n maxSize fullPolicy ttl) h
  rwa [List.nil_append] at hrun

/-- An enabled step discards something exactly when `get` resumes with both
child tasks done. -/
theorem discarded_eq_nil_iff {s s' : Loop} {l : Label} (h : s.step l = some s') :
    s.discarded l = [] ↔ s.NoDoubleTake l := by
  cases Step.of_step h with
  | resume i winner phase lastQueue item hgetter htask =>
      simp only [discarded, hgetter, NoDoubleTake, Option.mem_def, Option.some.injEq, forall_eq']
      cases phase with
      | idle => simp [GetPhase.task] at htask
      | waiting highTask normalTask =>
          cases winner with
          | high =>
              simp only [GetPhase.task, Option.some.injEq] at htask
              subst htask
              cases normalTask <;> simp [GetPhase.loser, GetPhase.bothDone, ChildTask.held]
          | normal =>
              simp only [GetPhase.task, Option.some.injEq] at htask
              subst htask
              cases highTask <;> simp [GetPhase.loser, GetPhase.bothDone, ChildTask.held]
  | _ => simp [discarded, NoDoubleTake]

/-- **Exact accounting.**  In every run, of any number of tasks and under any
parameters, every item put is in exactly one place in the end if and only if no
`get` on the way resumed with both of its child tasks done. -/
theorem accounted_iff_no_double_take {n : Nat} {maxSize : Int} {fullPolicy : String} {ttl : ℚ}
    {ls : List Label} {s : Loop} (h : run step (init n maxSize fullPolicy ttl) ls = some s) :
    s.Accounted ↔ Along step NoDoubleTake (init n maxSize fullPolicy ttl) ls := by
  have hc := run_conserves h
  rw [← along_congr (fun _ _ _ hstep => discarded_eq_nil_iff hstep) h, ← gather_eq_nil_iff _ h]
  constructor
  · intro hacc
    have hlen := (hacc.symm.trans hc).length_eq
    rw [List.length_append] at hlen
    exact List.length_eq_zero_iff.mp (by omega)
  · intro hnil
    rwa [hnil, Conserved, List.append_nil] at hc

/-! ### a high and a normal put while one `get` is suspended -/

/-- One task parks in `get`; a high and a normal job are put in the same turn of
the event loop; both child tasks complete before `get` resumes. -/
def doubleTakeRun : List Label :=
  [.get 0,
    .enqueue { jobId := "high", receivedAt := 0, priority := .high } 0, .lockAcquired 0,
    .enqueue { jobId := "normal", receivedAt := 0 } 0, .lockAcquired 0,
    .childTakes 0 .high, .childTakes 0 .normal, .resume 0 .high]

theorem doubleTakeRun_isSome : (run step (init 1 10 "reject" 60) doubleTakeRun).isSome := by
  decide +kernel

/-- The normal job is in no place any more. -/
theorem doubleTakeRun_loses_item :
    ∃ s, run step (init 1 10 "reject" 60) doubleTakeRun = some s ∧ ¬ s.Accounted := by
  refine ⟨_, (Option.some_get doubleTakeRun_isSome).symm, ?_⟩
  intro hacc
  have hlen := hacc.length_eq
  revert hlen
  decide +kernel

/-- So that run contains a `get` that resumes with both of its tasks done. -/
theorem doubleTakeRun_double_takes :
    ∃ s, run step (init 1 10 "reject" 60) doubleTakeRun = some s ∧
      ¬ Along step NoDoubleTake (init 1 10 "reject" 60) doubleTakeRun := by
  have hrun := (Option.some_get doubleTakeRun_isSome).symm
  refine ⟨_, hrun, ?_⟩
  intro hno
  have hlen := ((accounted_iff_no_double_take hrun).mpr hno).length_eq
  revert hlen
  decide +kernel

end Loop

end RubicaBot
