import RubicaBot.Queue.Interleaving

/-!
# RubicaBot.Queue.Size

The counter `_size` against the jobs that really wait.

`enqueue` counts a job when it puts it, and `get` uncounts *an item* when it
returns, so between the two the counter also covers the jobs a suspended `get`
has already taken.  `Exact` is that invariant.  Four branches of the code do not
fit it — a sentinel that `get` uncounts although `put_raw` never counted it, the
same for a sentinel evicted by `_drop_oldest`, a `get` that resumes with two
jobs and uncounts one, a `drain` that resets the counter under a suspended `get`
— and `Counted` is the condition that none of them is taken.
`exact_step_iff` says that it is the exact one.
-/

namespace RubicaBot

open Transition

/-- Jobs in a list of items, sentinels excluded. -/
def jobs (items : List (Option Job)) : Nat := items.countP Option.isSome

@[simp] theorem jobs_nil : jobs [] = 0 := rfl

@[simp] theorem jobs_cons_some (job : Job) (items : List (Option Job)) :
    jobs (some job :: items) = jobs items + 1 := by simp [jobs]

@[simp] theorem jobs_cons_none (items : List (Option Job)) : jobs (none :: items) = jobs items := by
  simp [jobs]

/-- The order does not matter. -/
theorem jobs_of_perm {xs ys : List (Option Job)} (h : xs.Perm ys) : jobs xs = jobs ys :=
  h.countP_eq _

namespace JobQueue

/-- `_drop_oldest` would evict a stop sentinel. -/
def evictsSentinel (q : JobQueue) : Bool :=
  match q.victim with
  | some none => true
  | _ => false

/-- `get` would return a stop sentinel without waiting. -/
def getsSentinel (q : JobQueue) : Bool :=
  match q.getReady with
  | some (none, _, _) => true
  | _ => false

/-- `_drop_oldest` on the counter and on the jobs that wait. -/
theorem dropOldest_count (q : JobQueue) :
    (q.victim = none ∧ q.dropOldest = q ∧ q.waiting = []) ∨
    (∃ job, q.victim = some (some job) ∧ q.dropOldest.size = q.size - 1 ∧
      jobs q.waiting = jobs q.dropOldest.waiting + 1) ∨
    (q.victim = some none ∧ q.dropOldest.size = q.size - 1 ∧
      jobs q.waiting = jobs q.dropOldest.waiting) := by
  have hspec := q.dropOldest_spec
  cases hv : q.victim with
  | none =>
      rw [hv] at hspec
      exact .inl ⟨rfl, hspec.2, hspec.1⟩
  | some item =>
      rw [hv] at hspec
      have hjobs := jobs_of_perm hspec.1
      cases item with
      | none => exact .inr (.inr ⟨rfl, hspec.2, by rw [hjobs, jobs_cons_none]⟩)
      | some job => exact .inr (.inl ⟨job, rfl, hspec.2, by rw [hjobs, jobs_cons_some]⟩)

/-- The critical section of `enqueue` on the counter and on the jobs that wait. -/
theorem enqueueLocked_count (q : JobQueue) (job : Job) :
    (q.isFull = false ∧ (q.enqueueLocked job).2.size = q.size + 1 ∧
      jobs (q.enqueueLocked job).2.waiting = jobs q.waiting + 1) ∨
    (q.isFull = true ∧ q.fullPolicy = "drop_oldest" ∧
      (q.enqueueLocked job).2.size = q.dropOldest.size + 1 ∧
      jobs (q.enqueueLocked job).2.waiting = jobs q.dropOldest.waiting + 1) ∨
    (q.isFull = true ∧ q.fullPolicy ≠ "drop_oldest" ∧
      (q.enqueueLocked job).2.size = q.size ∧
      jobs (q.enqueueLocked job).2.waiting = jobs q.waiting) := by
  have hput (q : JobQueue) : jobs (q.put job).waiting = jobs q.waiting + 1 := by
    rw [jobs_of_perm (q.waiting_put job), jobs_cons_some]
  have hsize (q : JobQueue) : (q.put job).counted.size = q.size + 1 := by
    simp [counted, record, put]
  unfold enqueueLocked
  by_cases hfull : q.isFull
  · by_cases hpolicy : q.fullPolicy = "drop_oldest"
    · simp only [hfull, hpolicy, if_true]
      exact .inr (.inl ⟨trivial, trivial, hsize _, hput _⟩)
    · simp only [hfull, hpolicy, if_true, if_false]
      exact .inr (.inr ⟨trivial, hpolicy, rfl, rfl⟩)
  · simp only [hfull]
    exact .inl ⟨by simp, hsize _, hput _⟩

variable {held : Nat} {q : JobQueue}

/-- `_drop_oldest` keeps the counter exact unless it uncounts a sentinel. -/
theorem dropOldest_exact_iff (hsize : q.size = jobs q.waiting + held)
    (hbound : (jobs q.waiting : Int) ≤ q.maxSize) :
    (q.dropOldest.size = jobs q.dropOldest.waiting + held ∧
        (jobs q.dropOldest.waiting : Int) ≤ q.maxSize) ↔
      (q.evictsSentinel = true → q.size = 0) := by
  simp only [evictsSentinel]
  rcases q.dropOldest_count with ⟨hv, hdrop, -⟩ | ⟨job, hv, hds, hdw⟩ | ⟨hv, hds, hdw⟩
  · simp only [hv, hdrop, Bool.false_eq_true, false_imp_iff, iff_true]
    exact ⟨hsize, hbound⟩
  · simp only [hv, hds, Bool.false_eq_true, false_imp_iff, iff_true]
    omega
  · simp only [hv, hds, forall_const]
    omega

/-- The critical section of `enqueue` keeps it exact unless it evicts a counted sentinel. -/
theorem enqueueLocked_exact_iff (job : Job) (hsize : q.size = jobs q.waiting + held)
    (hbound : (jobs q.waiting : Int) ≤ q.maxSize) (hmax : 1 ≤ q.maxSize) :
    ((q.enqueueLocked job).2.size = jobs (q.enqueueLocked job).2.waiting + held ∧
        (jobs (q.enqueueLocked job).2.waiting : Int) ≤ q.maxSize) ↔
      (q.isFull = true → q.fullPolicy = "drop_oldest" → q.evictsSentinel = true → q.size = 0) := by
  rcases q.enqueueLocked_count job with
    ⟨hfull, hs, hw⟩ | ⟨hfull, hpolicy, hs, hw⟩ | ⟨hfull, hpolicy, hs, hw⟩
  · simp only [isFull, decide_eq_false_iff_not] at hfull
    simp only [hs, hw, isFull, decide_eq_true_eq]
    omega
  · have hfull' := hfull
    simp only [isFull, decide_eq_true_eq] at hfull'
    simp only [hs, hw, hfull, hpolicy, forall_const, evictsSentinel]
    rcases q.dropOldest_count with ⟨hv, hdrop, hnil⟩ | ⟨job, hv, hds, hdw⟩ | ⟨hv, hds, hdw⟩
    · simp only [hv, hdrop, hnil, jobs_nil] at hsize ⊢
      simp
      omega
    · simp only [hv, hds, Bool.false_eq_true, false_imp_iff, iff_true]
      omega
    · simp only [hv, hds, forall_const]
      omega
  · simp only [hs, hw, hpolicy, false_imp_iff, implies_true, iff_true]
    exact ⟨hsize, hbound⟩

end JobQueue

namespace Loop

/-- No `get` is suspended between a child's removal of an item and its own
decrement. -/
def Quiescent (s : Loop) : Prop := s.held = []

/-- The counter covers the jobs that wait and those already taken by a suspended
`get`, and no more than `max_size` wait. -/
structure Exact (s : Loop) : Prop where
  size : s.queue.size = jobs s.queue.waiting + jobs s.held
  bound : (jobs s.queue.waiting : Int) ≤ s.queue.maxSize

/-- The step uncounts what was counted. -/
def Counted (s : Loop) : Label → Prop
  | .get _ => s.queue.getsSentinel = true → s.queue.size = 0
  | .resume i _ => ∀ g ∈ s.getters[i]?,
      jobs g.phase.held = 1 ∨ (jobs g.phase.held = 0 ∧ s.queue.size = 0)
  | .drain => jobs s.held = 0
  | .dropOldest => s.queue.evictsSentinel = true → s.queue.size = 0
  | .lockAcquired _ =>
      s.queue.isFull = true → s.queue.fullPolicy = "drop_oldest" →
        s.queue.evictsSentinel = true → s.queue.size = 0
  | _ => True

instance Counted.decidable (s : Loop) : (l : Label) → Decidable (s.Counted l)
  | .get _ => inferInstanceAs (Decidable (_ → _))
  | .resume i _ => inferInstanceAs (Decidable (∀ g ∈ s.getters[i]?, _))
  | .drain => inferInstanceAs (Decidable (_ = 0))
  | .dropOldest => inferInstanceAs (Decidable (_ → _))
  | .lockAcquired _ => inferInstanceAs (Decidable (_ → _))
  | .enqueue _ _ => .isTrue trivial
  | .putRaw => .isTrue trivial
  | .childTakes _ _ => .isTrue trivial
  | .taskDone _ _ => .isTrue trivial

/-! ## one step, one run -/

/-- One task changes, and with it the jobs it holds. -/
theorem jobs_held_set {s : Loop} {i : Nat} {phase : GetPhase} {last : Option JobPriority}
    (h : s.getters[i]? = some ⟨phase, last⟩) (phase' : GetPhase) (last' : Option JobPriority) :
    jobs ((s.getters.set i ⟨phase', last'⟩).flatMap fun g => g.phase.held) + jobs phase.held =
      jobs s.held + jobs phase'.held :=
  countP_flatMap_set Option.isSome (fun g : Getter => g.phase.held) h

@[simp] theorem jobs_held_idle : jobs GetPhase.idle.held = 0 := rfl

@[simp] theorem jobs_held_parked : jobs (GetPhase.waiting .pending .pending).held = 0 := rfl

/-- What one suspended `get` holds is part of what all of them hold. -/
theorem jobs_held_le {s : Loop} {i : Nat} {phase : GetPhase} {last : Option JobPriority}
    (h : s.getters[i]? = some ⟨phase, last⟩) : jobs phase.held ≤ jobs s.held := by
  have hset := jobs_held_set h .idle none
  rw [jobs_held_idle] at hset
  omega

/-- No operation changes `max_size`. -/
theorem step_maxSize {s s' : Loop} {l : Label} (h : s.step l = some s') :
    s'.queue.maxSize = s.queue.maxSize := by
  by_cases hl : ∃ job now, l = .enqueue job now
  · obtain ⟨job, now, rfl⟩ := hl
    cases Step.of_step h with
    | duplicate _ _ q hclock hseen => exact (JobQueue.seenCheck_spec hseen).2.2.2.2
    | fresh _ _ q hclock hseen => exact (JobQueue.seenCheck_spec hseen).2.2.2.2
  · exact JobQueue.maxSize_eq_of_frame
      (step_frame (fun job now heq => hl ⟨job, now, heq⟩) h)

/-- **Step lemma, both ways.**  From a state where the counter is exact, an
enabled step keeps it exact if and only if it uncounts what was counted. -/
theorem exact_step_iff {s s' : Loop} {l : Label} (he : s.Exact) (hmax : 1 ≤ s.queue.maxSize)
    (h : s.step l = some s') : s'.Exact ↔ s.Counted l := by
  obtain ⟨hsize, hbound⟩ := he
  have hconfig := step_maxSize h
  have hiff (w d : Nat) (hw : jobs s'.queue.waiting = w) (hd : jobs s'.held = d) :
      s'.Exact ↔ s'.queue.size = w + d ∧ (w : Int) ≤ s.queue.maxSize := by
    rw [← hw, ← hd, ← hconfig]
    exact ⟨fun he => ⟨he.size, he.bound⟩, fun he => ⟨he.1, he.2⟩⟩
  cases Step.of_step h with
  | duplicate job now q hclock hseen =>
      obtain ⟨-, -, hw, hs, -⟩ := JobQueue.seenCheck_spec hseen
      rw [hiff _ _ (congrArg jobs hw) rfl]
      simp only [Counted, hs, iff_true]
      exact ⟨hsize, hbound⟩
  | fresh job now q hclock hseen =>
      obtain ⟨-, -, hw, hs, -⟩ := JobQueue.seenCheck_spec hseen
      rw [hiff _ _ (congrArg jobs hw) rfl]
      simp only [Counted, hs, iff_true]
      exact ⟨hsize, hbound⟩
  | locked i call hcall =>
      rw [hiff _ _ rfl rfl]
      exact JobQueue.enqueueLocked_exact_iff call.job hsize hbound hmax
  | putRaw =>
      have hw := jobs_of_perm (s.queue.waiting_putRaw none)
      rw [jobs_cons_none] at hw
      rw [hiff _ _ hw rfl]
      simp only [Counted, iff_true]
      exact ⟨hsize, hbound⟩
  | dropOldest =>
      rw [hiff _ _ rfl rfl]
      exact JobQueue.dropOldest_exact_iff hsize hbound
  | drain =>
      rw [hiff 0 _ (by simp) rfl]
      simp only [Counted, JobQueue.size_drain]
      change _ = _ + jobs s.held ∧ _ ↔ _
      omega
  | getReady i lastQueue item p q hgetter hready =>
      have hcond : s.Counted (.get i) ↔ (item = none → s.queue.size = 0) := by
        cases item <;> simp [Counted, JobQueue.getsSentinel, hready]
      obtain ⟨m, htake, rfl, -⟩ := JobQueue.getReady_eq_some hready
      obtain ⟨a, -, rfl⟩ := JobQueue.takeFrom_eq_some htake
      have hw := jobs_of_perm (JobQueue.waiting_takeFrom htake)
      have hset := jobs_held_set hgetter .idle (some p)
      simp only [jobs_held_idle, Nat.add_zero] at hset
      rw [hiff _ _ rfl hset, hcond]
      simp only [JobQueue.waiting_decremented, JobQueue.size_decremented, JobQueue.size_setQueue]
      cases item with
      | none =>
          rw [jobs_cons_none] at hw
          simp only [forall_const]
          omega
      | some job =>
          rw [jobs_cons_some] at hw
          simp only [reduceCtorEq, false_imp_iff, iff_true]
          omega
  | getWait i lastQueue hgetter hready =>
      have hset := jobs_held_set hgetter (.waiting .pending .pending) lastQueue
      simp only [jobs_held_idle, jobs_held_parked, Nat.add_zero] at hset
      rw [hiff _ _ rfl hset]
      simp only [Counted, JobQueue.getsSentinel, hready, Bool.false_eq_true, false_imp_iff,
        iff_true]
      exact ⟨hsize, hbound⟩
  | childTakes i p phase lastQueue item q hgetter htask htake =>
      obtain ⟨a, -, rfl⟩ := JobQueue.takeFrom_eq_some htake
      have hw := jobs_of_perm (JobQueue.waiting_takeFrom htake)
      have hset := jobs_held_set hgetter (phase.complete p item) lastQueue
      have hcomplete := jobs_of_perm (GetPhase.held_complete item htask)
      rw [hiff _ _ rfl rfl]
      simp only [Counted, iff_true, JobQueue.size_setQueue]
      change _ = _ + jobs ((s.getters.set i _).flatMap _) ∧ _
      cases item with
      | none =>
          rw [jobs_cons_none] at hw hcomplete
          omega
      | some job =>
          rw [jobs_cons_some] at hw hcomplete
          omega
  | resume i winner phase lastQueue item hgetter htask =>
      have hset := jobs_held_set hgetter .idle (some winner)
      have hle := jobs_held_le hgetter
      have hcond : s.Counted (.resume i winner) ↔
          jobs phase.held = 1 ∨ (jobs phase.held = 0 ∧ s.queue.size = 0) := by
        simp [Counted, hgetter]
      rw [jobs_held_idle] at hset
      rw [hiff _ _ rfl rfl, hcond]
      simp only [JobQueue.waiting_decremented, JobQueue.size_decremented]
      change _ = _ + jobs ((s.getters.set i _).flatMap _) ∧ _ ↔ _
      omega
  | taskDone i job getter hgetter =>
      have hs : (s.queue.taskDone job getter.lastQueue).size = s.queue.size := by
        simp only [JobQueue.taskDone]
        split <;> simp
      rw [hiff _ _ (congrArg jobs (JobQueue.waiting_taskDone _ _ _)) rfl]
      simp only [Counted, hs, iff_true]
      exact ⟨hsize, hbound⟩

/-- **The counter in a run.**  In every run whose steps all uncount what was
counted, the counter is exact in every state reached. -/
theorem run_exact {n : Nat} {maxSize : Int} {fullPolicy : String} {ttl : ℚ} {ls : List Label}
    {s : Loop} (hmax : 1 ≤ maxSize)
    (hcounted : Along step Counted (init n maxSize fullPolicy ttl) ls)
    (h : run step (init n maxSize fullPolicy ttl) ls = some s) :
    s.Exact ∧ s.queue.maxSize = maxSize := by
  refine run_invariant (I := fun s => s.Exact ∧ s.queue.maxSize = maxSize) ?_ ?_ hcounted h
  · intro s l s' hI hcond hstep
    exact ⟨(exact_step_iff hI.1 (hI.2 ▸ hmax) hstep).mpr hcond, (step_maxSize hstep).trans hI.2⟩
  · refine ⟨⟨?_, ?_⟩, rfl⟩
    · rw [waiting_init, held_init]
      rfl
    · rw [waiting_init, jobs_nil]
      exact Int.le_trans (by decide) hmax

/-- **The size counter.**  In every such run, in every state in which no `get` is
suspended between a child's removal of an item and its own decrement, `size()`
is the number of jobs that wait, at most `max_size`, and a queue that counts as
full has `max_size` jobs waiting. -/
theorem size_eq_jobs_of_counted {n : Nat} {maxSize : Int} {fullPolicy : String} {ttl : ℚ}
    {ls : List Label} {s : Loop} (hmax : 1 ≤ maxSize)
    (hcounted : Along step Counted (init n maxSize fullPolicy ttl) ls)
    (h : run step (init n maxSize fullPolicy ttl) ls = some s) (hq : s.Quiescent) :
    s.queue.size = jobs s.queue.waiting ∧ (jobs s.queue.waiting : Int) ≤ maxSize ∧
      (s.queue.isFull = true → (jobs s.queue.waiting : Int) = maxSize) := by
  obtain ⟨⟨hsize, hbound⟩, hconfig⟩ := run_exact hmax hcounted h
  rw [hq, jobs_nil, Nat.add_zero] at hsize
  rw [hconfig] at hbound
  refine ⟨hsize, hbound, fun hfull => ?_⟩
  simp only [JobQueue.isFull, decide_eq_true_eq, hconfig] at hfull
  omega

/-! ### a sentinel overtakes a waiting job -/

/-- A task handles one normal job; a second one is accepted; `stop` puts its
sentinel; the task calls `get` again and the sentinel comes first. -/
def overtakingRun : List Label :=
  [.get 0, .enqueue { jobId := "first", receivedAt := 0 } 0, .lockAcquired 0,
    .childTakes 0 .normal, .resume 0 .normal,
    .enqueue { jobId := "second", receivedAt := 0 } 0, .lockAcquired 0, .putRaw, .get 0]

theorem overtakingRun_isSome : (run step (init 1 10 "reject" 60) overtakingRun).isSome := by
  decide +kernel

/-- Nothing is suspended, one job waits and the counter says zero. -/
theorem overtakingRun_miscounts :
    ∃ s, run step (init 1 10 "reject" 60) overtakingRun = some s ∧ s.Quiescent ∧
      s.queue.size ≠ jobs s.queue.waiting := by
  refine ⟨_, (Option.some_get overtakingRun_isSome).symm, ?_, ?_⟩
  · exact List.length_eq_zero_iff.mp (by decide +kernel)
  · decide +kernel

theorem beforeStop_isSome :
    (run step (init 1 10 "reject" 60) (overtakingRun.take 7)).isSome := by decide +kernel

/-- Without the sentinel the counter is exact. -/
theorem beforeStop_size_eq_jobs :
    ∃ s, run step (init 1 10 "reject" 60) (overtakingRun.take 7) = some s ∧
      s.queue.size = jobs s.queue.waiting ∧ (jobs s.queue.waiting : Int) ≤ 10 ∧
      (s.queue.isFull = true → (jobs s.queue.waiting : Int) = 10) := by
  have hrun := (Option.some_get beforeStop_isSome).symm
  refine ⟨_, hrun, size_eq_jobs_of_counted (by decide) (by decide +kernel) hrun ?_⟩
  exact List.length_eq_zero_iff.mp (by decide +kernel)

end Loop

end RubicaBot
