import RubicaBot.Queue.Backlog

/-!
# RubicaBot.Queue.Unfinished

`asyncio.Queue.task_done()` raises `ValueError` when it is called more often
than items were put.  `_drop_oldest`, `drain` and the workers all call it.

`Covers` says that the unfinished count of each queue is at least the items in
it, the items a child task took from it, and the calls its callers still owe
(`owed`, one entry per item `get` has returned and not yet been told is done).
So no call raises.
-/

namespace RubicaBot

open Transition

namespace AsyncQueue

variable {α : Type}

/-- As many items wait as are unfinished, at most, and `task_done` has not
raised. -/
def Sound (q : AsyncQueue α) (owed : Nat) : Prop :=
  q.items.length + owed ≤ q.unfinished ∧ q.overrun = false

/-- With less owed, the queue is sound all the more. -/
theorem Sound.mono {q : AsyncQueue α} {owed owed' : Nat} (h : q.Sound owed)
    (hle : owed' ≤ owed) : q.Sound owed' := ⟨by have := h.1; omega, h.2⟩

/-- An item that is put is counted. -/
theorem Sound.put {q : AsyncQueue α} {owed : Nat} (h : q.Sound owed) (item : α) :
    (q.put item).Sound owed := by
  refine ⟨?_, h.2⟩
  have hle := h.1
  simp only [AsyncQueue.put, List.length_append, List.length_singleton]
  omega

/-- One that is taken is owed a `task_done`. -/
theorem Sound.getNowait {q q' : AsyncQueue α} {item : α} {owed : Nat} (h : q.Sound owed)
    (hget : q.getNowait = some (item, q')) : q'.Sound (owed + 1) := by
  unfold AsyncQueue.getNowait at hget
  split at hget
  · contradiction
  · next hitems =>
      simp only [Option.some.injEq, Prod.mk.injEq] at hget
      obtain ⟨rfl, rfl⟩ := hget
      refine ⟨?_, h.2⟩
      have hle := h.1
      rw [hitems, List.length_cons] at hle
      simp only
      omega

/-- Which pays for one that is owed. -/
theorem Sound.taskDone {q : AsyncQueue α} {owed : Nat} (h : q.Sound (owed + 1)) :
    q.taskDone.Sound owed := by
  have hle := h.1
  refine ⟨?_, ?_⟩
  · simp only [AsyncQueue.taskDone]
    omega
  · have hpos : q.unfinished ≠ 0 := by omega
    simp [AsyncQueue.taskDone, h.2, hpos]

/-- One that is discarded is paid for at once. -/
theorem Sound.discardOldest {q q' : AsyncQueue α} {item : α} {owed : Nat} (h : q.Sound owed)
    (hd : q.discardOldest = some (item, q')) : q'.Sound owed := by
  obtain ⟨⟨item', r⟩, hr, heq⟩ := Option.map_eq_some_iff.mp hd
  simp only [Prod.mk.injEq] at heq
  obtain ⟨rfl, rfl⟩ := heq
  exact (h.getNowait hr).taskDone

/-- And so is each that is drained. -/
theorem Sound.drainLoop (fuel : Nat) {q : AsyncQueue α} {owed : Nat} (h : q.Sound owed)
    (drained : Nat) : (AsyncQueue.drainLoop fuel q drained).1.Sound owed := by
  induction fuel generalizing q drained with
  | zero => exact h
  | succ fuel ih =>
      unfold AsyncQueue.drainLoop
      split
      · next q' hd => exact ih (h.discardOldest hd) _
      · exact h

end AsyncQueue

namespace JobQueue

/-- Each queue holds its own items, and its unfinished count covers them and the
`owed` calls. -/
structure Covered (q : JobQueue) (owed : JobPriority → Nat) : Prop where
  belongs : ∀ p, ∀ item ∈ (q.queue p).items, Belongs p item
  sound : ∀ p, (q.queue p).Sound (owed p)

/-- The queues decide. -/
theorem Covered.of_queue_eq {q q' : JobQueue} {owed : JobPriority → Nat} (h : q.Covered owed)
    (hq : ∀ p, q'.queue p = q.queue p) : q'.Covered owed :=
  ⟨fun p item hitem => h.belongs p item (hq p ▸ hitem), fun p => hq p ▸ h.sound p⟩

/-- What covers more covers less. -/
theorem Covered.mono {q : JobQueue} {owed owed' : JobPriority → Nat} (h : q.Covered owed)
    (hle : ∀ p, owed' p ≤ owed p) : q.Covered owed' :=
  ⟨h.belongs, fun p => (h.sound p).mono (hle p)⟩

/-- Exchanging one queue for another that holds its own items too. -/
theorem Covered.setQueue {q : JobQueue} {owed owed' : JobPriority → Nat} {p : JobPriority}
    {a : AsyncQueue (Option Job)} (h : q.Covered owed)
    (hbelongs : ∀ item ∈ a.items, Belongs p item) (hsound : a.Sound (owed' p))
    (hother : ∀ p', p' ≠ p → owed' p' ≤ owed p') : (q.setQueue p a).Covered owed' := by
  constructor
  · intro p' item hitem
    by_cases hp : p' = p
    · subst hp
      rw [queue_setQueue_same] at hitem
      exact hbelongs item hitem
    · rw [queue_setQueue_ne _ hp] at hitem
      exact h.belongs p' item hitem
  · intro p'
    by_cases hp : p' = p
    · subst hp
      rw [queue_setQueue_same]
      exact hsound
    · rw [queue_setQueue_ne _ hp]
      exact (h.sound p').mono (hother p' hp)

/-- `_put` covers the job. -/
theorem Covered.put {q : JobQueue} {owed : JobPriority → Nat} (h : q.Covered owed) (job : Job) :
    (q.put job).Covered owed := by
  refine h.setQueue (fun item hitem => ?_) ((h.sound _).put _) fun _ _ => le_refl _
  rw [AsyncQueue.items_put, List.mem_append, List.mem_singleton] at hitem
  rcases hitem with hitem | rfl
  · exact h.belongs _ item hitem
  · rfl

/-- `put_raw` covers the sentinel. -/
theorem Covered.putRaw {q : JobQueue} {owed : JobPriority → Nat} (h : q.Covered owed) :
    (q.putRaw none).Covered owed := by
  refine h.setQueue (p := .high) (fun item hitem => ?_) ((h.sound .high).put _)
    fun _ _ => le_refl _
  rw [AsyncQueue.items_put, List.mem_append, List.mem_singleton] at hitem
  rcases hitem with hitem | rfl
  · exact h.belongs .high item hitem
  · rfl

/-- `_drop_oldest` pays for what it takes. -/
theorem Covered.dropOldest {q : JobQueue} {owed : JobPriority → Nat} (h : q.Covered owed) :
    q.dropOldest.Covered owed := by
  have htake {p : JobPriority} {item : Option Job} {a : AsyncQueue (Option Job)}
      (hd : (q.queue p).discardOldest = some (item, a)) : (q.setQueue p a).Covered owed := by
    refine h.setQueue (fun item' hitem => h.belongs p item' ?_) ((h.sound p).discardOldest hd)
      fun _ _ => le_refl _
    rw [AsyncQueue.items_of_discardOldest hd]
    exact List.mem_cons_of_mem _ hitem
  unfold JobQueue.dropOldest
  split
  · next hd => exact (htake (p := .normal) hd).of_queue_eq fun p => by cases p <;> rfl
  · split
    · next hd => exact (htake (p := .high) hd).of_queue_eq fun p => by cases p <;> rfl
    · exact h

/-- So does `enqueue`. -/
theorem Covered.enqueueLocked {q : JobQueue} {owed : JobPriority → Nat} (h : q.Covered owed)
    (job : Job) : (q.enqueueLocked job).2.Covered owed := by
  have hcounted {q : JobQueue} (h : q.Covered owed) : ((q.put job).counted).Covered owed :=
    (h.put job).of_queue_eq fun p => by cases p <;> rfl
  unfold JobQueue.enqueueLocked
  split
  · split
    · exact hcounted h.dropOldest
    · exact h.of_queue_eq fun p => by cases p <;> rfl
  · exact hcounted h

/-- And `drain`. -/
theorem Covered.drain {q : JobQueue} {owed : JobPriority → Nat} (h : q.Covered owed) :
    q.drain.2.Covered owed := by
  constructor
  · intro p item hitem
    cases p <;> exact absurd hitem (by simp [JobQueue.drain, queue])
  · intro p
    cases p with
    | high => exact (h.sound .high).drainLoop _ _
    | normal => exact (h.sound .normal).drainLoop _ _

/-- Whoever takes an item owes a `task_done` for it. -/
theorem Covered.takeFrom {q q' : JobQueue} {owed : JobPriority → Nat} {p : JobPriority}
    {item : Option Job} (h : q.Covered owed) (htake : q.takeFrom p = some (item, q')) :
    Belongs p item ∧ q'.Covered fun p' => owed p' + if p' = p then 1 else 0 := by
  obtain ⟨⟨item', a⟩, ha, heq⟩ := Option.map_eq_some_iff.mp htake
  simp only [Prod.mk.injEq] at heq
  obtain ⟨rfl, rfl⟩ := heq
  have hitems := AsyncQueue.items_of_getNowait ha
  refine ⟨h.belongs p item' (hitems ▸ List.mem_cons_self),
    h.setQueue (fun item'' hitem => ?_) ?_ ?_⟩
  · exact h.belongs p item'' (hitems ▸ List.mem_cons_of_mem _ hitem)
  · rw [if_pos rfl]
    exact (h.sound p).getNowait ha
  · intro p' hp
    rw [if_neg hp, Nat.add_zero]

/-- A `task_done` that is owed does not raise. -/
theorem Covered.taskDone {q : JobQueue} {owed : JobPriority → Nat} {p : JobPriority}
    {job : Option Job} {last : Option JobPriority} (h : q.Covered owed) (hp : 0 < owed p)
    (htarget : (∃ j, job = some j ∧ j.priority = p) ∨ job = none ∧ last = some p) :
    q.taskDoneRaises job last = false ∧
      (q.taskDone job last).Covered fun p' => owed p' - if p' = p then 1 else 0 := by
  have hsound : (q.queue p).Sound (owed p - 1 + 1) := (h.sound p).mono (by omega)
  have hpos : (q.queue p).unfinished ≠ 0 := by
    have hle := hsound.1
    omega
  have hset : (q.setQueue p (q.queue p).taskDone).Covered
      fun p' => owed p' - if p' = p then 1 else 0 := by
    refine h.setQueue (fun item hitem => h.belongs p item hitem) ?_ fun p' hp' => ?_
    · rw [if_pos rfl]
      exact hsound.taskDone
    · rw [if_neg hp', Nat.sub_zero]
  rcases htarget with ⟨j, rfl, rfl⟩ | ⟨rfl, rfl⟩
  · exact ⟨by simp [taskDoneRaises, hpos], hset⟩
  · exact ⟨by simp [taskDoneRaises, hpos], hset⟩

end JobQueue

/-- A child task on queue `p` holds an item. -/
def GetPhase.holdsFrom (phase : GetPhase) (p : JobPriority) : Bool :=
  match phase.task p with
  | some (.done _) => true
  | _ => false

@[simp] theorem GetPhase.holdsFrom_idle (p : JobPriority) : idle.holdsFrom p = false := rfl

/-- A task that is not in `get` holds nothing. -/
theorem GetPhase.belongs_of_idle :
    ∀ p item, idle.task p = some (.done item) → Belongs p item := nofun

@[simp] theorem GetPhase.holdsFrom_parked (p : JobPriority) :
    (waiting .pending .pending).holdsFrom p = false := by cases p <;> rfl

namespace Loop

/-- Items that child tasks have taken from queue `p`. -/
def heldFrom (s : Loop) (p : JobPriority) : Nat := s.getters.countP (·.phase.holdsFrom p)

/-- The queue covers what child tasks hold and what is `owed` besides. -/
structure Covers (s : Loop) (owed : List JobPriority) : Prop where
  queue : s.queue.Covered fun p => s.heldFrom p + owed.count p
  heldBelongs : ∀ g ∈ s.getters, ∀ p item, g.phase.task p = some (.done item) → Belongs p item

/-- A new queue owes nothing. -/
theorem init_covers (n : Nat) (maxSize : Int) (fullPolicy : String) (ttl : ℚ) :
    (init n maxSize fullPolicy ttl).Covers [] where
  queue := by
    refine ⟨fun p item h => by cases p <;> exact absurd h List.not_mem_nil, fun p => ?_⟩
    have hheld : (init n maxSize fullPolicy ttl).heldFrom p = 0 := by
      rw [heldFrom, List.countP_eq_zero]
      intro g hg
      rw [(List.mem_replicate.mp hg).2]
      cases p <;> decide
    rw [hheld]
    cases p <;> exact ⟨Nat.le_refl _, rfl⟩
  heldBelongs g hg p item h := by
    rw [(List.mem_replicate.mp hg).2] at h
    cases h

/-- Replacing one getter exchanges what its child task on `p` holds. -/
theorem heldFrom_set {s : Loop} {i : Nat} {g : Getter} (h : s.getters[i]? = some g) (g' : Getter)
    (p : JobPriority) :
    (s.getters.set i g').countP (·.phase.holdsFrom p) + (g.phase.holdsFrom p).toNat =
      s.heldFrom p + (g'.phase.holdsFrom p).toNat := by
  have hset := countP_flatMap_set (·.phase.holdsFrom p) (fun g : Getter => [g]) (y := g') h
  simp only [List.flatMap_singleton', List.countP_singleton] at hset
  rw [heldFrom]
  cases hg : g.phase.holdsFrom p <;> cases hg' : g'.phase.holdsFrom p <;>
    simp only [hg, hg', if_true, Bool.false_eq_true, if_false, Bool.toNat_true,
      Bool.toNat_false] at hset ⊢ <;> omega

/-- One task changes; the others hold what they held. -/
theorem heldBelongs_set {s : Loop} {i : Nat} {g' : Getter} {owed : List JobPriority}
    (hc : s.Covers owed)
    (h : ∀ p item, g'.phase.task p = some (.done item) → Belongs p item) :
    ∀ g ∈ s.getters.set i g', ∀ p item, g.phase.task p = some (.done item) → Belongs p item := by
  intro g hg p item htask
  rcases List.mem_or_eq_of_mem_set hg with hg | rfl
  · exact hc.heldBelongs g hg p item htask
  · exact h p item htask

/-- Nothing was returned. -/
theorem belongs_of_none :
    ∀ item p, (none : Option (Option Job × JobPriority)) = some (item, p) → Belongs p item := nofun

/-- **Step lemma.**  A step that is not a `task_done` keeps the queue covered,
with one more call owed for the item it delivers, if any; that item belongs to
the queue it came from. -/
theorem step_covers {s s' : Loop} {l : Label} {owed : List JobPriority} (hc : s.Covers owed)
    (hl : ∀ i job, l ≠ .taskDone i job) (h : s.step l = some s') :
    s'.Covers ((s.delivers l).toList.map Prod.snd ++ owed) ∧
      ∀ item p, s.delivers l = some (item, p) → Belongs p item := by
  cases Step.of_step h with
  | duplicate job now q hclock hseen =>
      exact ⟨⟨hc.queue.of_queue_eq (JobQueue.queue_seenCheck hseen), hc.heldBelongs⟩,
        belongs_of_none⟩
  | fresh job now q hclock hseen =>
      exact ⟨⟨hc.queue.of_queue_eq (JobQueue.queue_seenCheck hseen), hc.heldBelongs⟩,
        belongs_of_none⟩
  | locked i call hcall =>
      exact ⟨⟨hc.queue.enqueueLocked call.job, hc.heldBelongs⟩, belongs_of_none⟩
  | putRaw => exact ⟨⟨hc.queue.putRaw, hc.heldBelongs⟩, belongs_of_none⟩
  | dropOldest => exact ⟨⟨hc.queue.dropOldest, hc.heldBelongs⟩, belongs_of_none⟩
  | drain => exact ⟨⟨hc.queue.drain, hc.heldBelongs⟩, belongs_of_none⟩
  | getReady i lastQueue item p q hgetter hready =>
      have hdel : s.delivers (.get i) = some (item, p) := by simp [delivers, hready]
      obtain ⟨m, htake, rfl, -⟩ := JobQueue.getReady_eq_some hready
      obtain ⟨hbelongs, hcovered⟩ := hc.queue.takeFrom htake
      rw [hdel]
      refine ⟨⟨?_, heldBelongs_set hc GetPhase.belongs_of_idle⟩, ?_⟩
      · refine (hcovered.of_queue_eq fun p => by cases p <;> rfl).mono fun p' => ?_
        have hset := heldFrom_set hgetter ⟨.idle, some p⟩ p'
        simp only [GetPhase.holdsFrom_idle, Bool.toNat_false, Nat.add_zero] at hset
        simp only [heldFrom, Option.toList_some, List.map_cons, List.map_nil, List.cons_append,
          List.nil_append, List.count_cons, beq_iff_eq, eq_comm (a := p)] at hset ⊢
        omega
      · rintro item' p' ⟨⟩
        exact hbelongs
  | getWait i lastQueue hgetter hready =>
      have hdel : s.delivers (.get i) = none := by simp [delivers, hready]
      rw [hdel]
      refine ⟨⟨hc.queue.mono fun p' => ?_, heldBelongs_set hc fun p item htask => ?_⟩,
        belongs_of_none⟩
      · have hset := heldFrom_set hgetter ⟨.waiting .pending .pending, lastQueue⟩ p'
        simp only [GetPhase.holdsFrom_idle, GetPhase.holdsFrom_parked, Bool.toNat_false,
          Nat.add_zero] at hset
        simp only [heldFrom, Option.toList_none, List.map_nil, List.nil_append] at hset ⊢
        omega
      · cases p <;> cases htask
  | childTakes i p phase lastQueue item q hgetter htask htake =>
      obtain ⟨hbelongs, hcovered⟩ := hc.queue.takeFrom htake
      have hg := List.mem_of_getElem? hgetter
      refine ⟨⟨hcovered.mono fun p' => ?_, heldBelongs_set hc fun p' item' htask' => ?_⟩,
        belongs_of_none⟩
      · have hset := heldFrom_set hgetter ⟨phase.complete p item, lastQueue⟩ p'
        have hcomplete : ((phase.complete p item).holdsFrom p').toNat =
            (phase.holdsFrom p').toNat + if p' = p then 1 else 0 := by
          cases phase with
          | idle => cases htask
          | waiting highTask normalTask =>
              cases p <;> cases p' <;>
                simp_all [GetPhase.complete, GetPhase.holdsFrom, GetPhase.task]
        simp only [hcomplete] at hset
        simp only [heldFrom, delivers, Option.toList_none, List.map_nil, List.nil_append] at hset ⊢
        omega
      · cases phase with
        | idle => cases htask
        | waiting highTask normalTask =>
            have hold := hc.heldBelongs _ hg
            cases p <;> cases p' <;>
              simp_all [GetPhase.complete, GetPhase.task]
  | resume i winner phase lastQueue item hgetter htask =>
      have hdel : s.delivers (.resume i winner) = some (item, winner) := by
        simp [delivers, hgetter, htask]
      rw [hdel]
      refine ⟨⟨?_, heldBelongs_set hc GetPhase.belongs_of_idle⟩, ?_⟩
      · refine (hc.queue.of_queue_eq fun p => by cases p <;> rfl).mono fun p' => ?_
        have hset := heldFrom_set hgetter ⟨.idle, some winner⟩ p'
        have hheld : (if winner = p' then 1 else 0) ≤ (phase.holdsFrom p').toNat := by
          split
          · next hp =>
              subst hp
              simp [GetPhase.holdsFrom, htask]
          · exact Nat.zero_le _
        simp only [GetPhase.holdsFrom_idle, Bool.toNat_false, Nat.add_zero] at hset
        simp only [heldFrom, Option.toList_some, List.map_cons, List.map_nil, List.cons_append,
          List.nil_append, List.count_cons, beq_iff_eq] at hset ⊢
        omega
      · rintro item' p' ⟨⟩
        exact hc.heldBelongs _ (List.mem_of_getElem? hgetter) _ _ htask
  | taskDone i job getter hgetter => exact absurd rfl (hl i job)

/-- Only how much is owed on each queue matters. -/
theorem Covers.of_count {s : Loop} {owed owed' : List JobPriority} (hc : s.Covers owed)
    (h : ∀ p, owed'.count p = owed.count p) : s.Covers owed' :=
  ⟨hc.queue.mono fun p => by rw [h p], hc.heldBelongs⟩

/-- `task_done` in a task that owes it does not raise, and pays it. -/
theorem Covers.taskDone {s : Loop} {owed owed' : List JobPriority} (hc : s.Covers owed)
    (p : JobPriority) (job : Option Job) (last : Option JobPriority)
    (howed : ∀ p', owed.count p' = owed'.count p' + if p' = p then 1 else 0)
    (htarget : (∃ j, job = some j ∧ j.priority = p) ∨ job = none ∧ last = some p) :
    s.queue.taskDoneRaises job last = false ∧
      ({ s with queue := s.queue.taskDone job last } : Loop).Covers owed' := by
  have hp := howed p
  rw [if_pos rfl] at hp
  obtain ⟨hraises, hcovered⟩ := hc.queue.taskDone (p := p) (by omega) htarget
  refine ⟨hraises, hcovered.mono fun p' => ?_, hc.heldBelongs⟩
  have hp' := howed p'
  change s.heldFrom p' + _ ≤ _
  omega

end Loop

end RubicaBot
