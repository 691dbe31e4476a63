import RubicaBot.Queue.Settlement

/-!
# RubicaBot.Queue.Order

The order in which items leave the two queues.

Whatever is done to a queue, what waits in it is the end of what has been put into it
(`InLine`): nobody overtakes there.  Items that have left can be overtaken only while a
child task of a suspended `get` holds them, and there is one child task for each caller of
`get` and queue (`length_held`).
-/

namespace RubicaBot

open Transition

/-- The items of queue `p`. -/
def ofClass (p : JobPriority) (items : List (Option Job)) : List (Option Job) :=
  items.filter fun item => home item == p

/-- The jobs of a priority, in the one list and then in the other. -/
theorem ofClass_append (p : JobPriority) (xs ys : List (Option Job)) :
    ofClass p (xs ++ ys) = ofClass p xs ++ ofClass p ys := List.filter_append xs ys

/-- A single item belongs to one of the two priorities. -/
theorem reverse_ofClass_singleton (p : JobPriority) (item : Option Job) :
    (ofClass p [item]).reverse = if home item = p then [item] else [] := by
  rw [ofClass, List.filter_singleton]
  by_cases hp : home item = p
  · rw [if_pos hp, hp, beq_self_eq_true]
    rfl
  · rw [if_neg hp, beq_false_of_ne hp]
    rfl

/-- Items that belong to a queue are its items. -/
theorem ofClass_eq_self {p : JobPriority} {items : List (Option Job)}
    (h : ∀ item ∈ items, Belongs p item) : ofClass p items = items := by
  rw [ofClass, List.filter_eq_self]
  intro item hitem
  rw [home_eq_of_belongs (h item hitem)]
  exact beq_self_eq_true p

/-- In the queue of one priority there is nothing of the other. -/
theorem ofClass_eq_nil {p p' : JobPriority} (hne : p ≠ p') {items : List (Option Job)}
    (h : ∀ item ∈ items, Belongs p item) : ofClass p' items = [] := by
  rw [ofClass, List.filter_eq_nil_iff]
  intro item hitem
  rw [home_eq_of_belongs (h item hitem)]
  simpa using hne

/-- The jobs among them have that priority. -/
theorem ofClass_reduceOption (p : JobPriority) (items : List (Option Job)) :
    (ofClass p items).reduceOption = items.reduceOption.filter (·.priority == p) := by
  induction items with
  | nil => rfl
  | cons item items ih =>
      cases item with
      | none =>
          rw [List.reduceOption_cons_of_none, ← ih, ofClass, List.filter_cons]
          split
          · exact List.reduceOption_cons_of_none _
          · rfl
      | some job =>
          rw [List.reduceOption_cons_of_some, ofClass, List.filter_cons, List.filter_cons,
            home_some, ← ih]
          split
          · exact List.reduceOption_cons_of_some _ _
          · rfl

namespace JobQueue

/-- `_drop_oldest` leaves the end of each queue. -/
theorem dropOldest_suffix (q : JobQueue) (p : JobPriority) :
    (q.dropOldest.queue p).items <:+ (q.queue p).items := by
  obtain ⟨taken, htaken, -⟩ := Loop.dropOldest_moves q
  exact ⟨taken p, (htaken p).symm⟩

/-- The critical section of `enqueue` leaves the end of each queue and adds the job if it
answers `enqueued`. -/
theorem enqueueLocked_suffix (q : JobQueue) (job : Job) (p : JobPriority) :
    ∃ rest, rest <:+ (q.queue p).items ∧ ((q.enqueueLocked job).2.queue p).items =
      rest ++ (ofClass p ((q.enqueueEvents job).filterMap Event.put?)).reverse := by
  have hput (q : JobQueue) : (((q.put job).counted).queue p).items =
      (q.queue p).items ++ (ofClass p [some job]).reverse := by
    rw [reverse_ofClass_singleton, home_some]
    exact q.queue_put job p
  rw [q.enqueueEvents_put]
  by_cases hfull : q.isFull
  · by_cases hpolicy : q.fullPolicy = "drop_oldest"
    · refine ⟨_, q.dropOldest_suffix p, ?_⟩
      simpa only [enqueueLocked, hfull, hpolicy, if_true] using hput q.dropOldest
    · refine ⟨_, List.suffix_refl _, ?_⟩
      simp only [enqueueLocked, hfull, hpolicy, if_true, if_false, reduceCtorEq]
      cases p <;> exact (List.append_nil _).symm
  · refine ⟨_, List.suffix_refl _, ?_⟩
    simpa only [enqueueLocked, hfull, Bool.false_eq_true, if_false, if_true] using hput q

end JobQueue

namespace Loop

/-- What waits in each queue is the end of what has been put into it. -/
def InLine (s : Loop) : Prop :=
  ∀ p, (s.queue.queue p).items <:+ (ofClass p s.puts).reverse

/-- Nobody has come to a new queue. -/
theorem init_inLine (n : Nat) (maxSize : Int) (fullPolicy : String) (ttl : ℚ) :
    (init n maxSize fullPolicy ttl).InLine := by
  intro p
  cases p <;> exact List.nil_suffix

/-- A step that puts nothing. -/
theorem InLine.of_suffix {s s' : Loop} (h : s.InLine) (hputs : s'.puts = s.puts)
    (hitems : ∀ p, (s'.queue.queue p).items <:+ (s.queue.queue p).items) : s'.InLine := by
  intro p
  rw [hputs]
  exact (hitems p).trans (h p)

/-- A step that puts some items at the end. -/
theorem InLine.of_puts {s s' : Loop} (h : s.InLine) (items : List (Option Job))
    (hputs : s'.puts = items ++ s.puts)
    (hitems : ∀ p, ∃ rest, rest <:+ (s.queue.queue p).items ∧
      (s'.queue.queue p).items = rest ++ (ofClass p items).reverse) : s'.InLine := by
  intro p
  obtain ⟨rest, hrest, heq⟩ := hitems p
  obtain ⟨front, hfront⟩ := hrest.trans (h p)
  refine ⟨front, ?_⟩
  rw [heq, hputs, ofClass_append, List.reverse_append, ← hfront, List.append_assoc]

/-- **Step lemma.** -/
theorem step_inLine {s s' : Loop} {l : Label} (hs : s.InLine) (h : s.step l = some s') :
    s'.InLine := by
  have htake {q q' : JobQueue} {p : JobPriority} {item : Option Job}
      (h : q.takeFrom p = some (item, q')) (p' : JobPriority) :
      (q'.queue p').items <:+ (q.queue p').items := by
    obtain ⟨a, hitems, rfl⟩ := JobQueue.takeFrom_eq_some h
    by_cases hp : p' = p
    · subst hp
      rw [JobQueue.queue_setQueue_same, hitems]
      exact List.suffix_cons _ _
    · rw [JobQueue.queue_setQueue_ne _ hp]
  cases Step.of_step h with
  | duplicate job now q hclock hseen =>
      exact hs.of_suffix rfl fun p => by rw [JobQueue.queue_seenCheck hseen p]
  | fresh job now q hclock hseen =>
      exact hs.of_suffix rfl fun p => by rw [JobQueue.queue_seenCheck hseen p]
  | locked i call hcall =>
      refine hs.of_puts ((s.queue.enqueueEvents call.job).filterMap Event.put?) ?_ ?_
      · exact List.filterMap_append
      · exact s.queue.enqueueLocked_suffix call.job
  | putRaw =>
      refine hs.of_puts [none] rfl fun p => ⟨_, List.suffix_refl _, ?_⟩
      rw [reverse_ofClass_singleton]
      cases p with
      | high => rfl
      | normal => exact (List.append_nil _).symm
  | dropOldest =>
      refine hs.of_suffix ?_ s.queue.dropOldest_suffix
      rw [puts, List.filterMap_append, Event.put_evicted, List.nil_append, puts]
  | drain =>
      refine hs.of_suffix ?_ fun p => ?_
      · rw [puts, List.filterMap_append, Event.put_drained, List.nil_append, puts]
      · have hnil : (s.queue.drain.2.queue p).items = [] := by
          cases p <;> simp [JobQueue.drain, JobQueue.queue]
        rw [hnil]
        exact List.nil_suffix
  | getReady i lastQueue item p q hgetter hready =>
      obtain ⟨m, hm, rfl, -⟩ := JobQueue.getReady_eq_some hready
      refine hs.of_suffix rfl fun p' => ?_
      have hsuffix := htake hm p'
      cases p' <;> exact hsuffix
  | getWait i lastQueue hgetter hready => exact hs
  | childTakes i p phase lastQueue item q hgetter htask htook =>
      exact hs.of_suffix rfl (htake htook)
  | resume i winner phase lastQueue item hgetter htask =>
      exact hs.of_suffix rfl fun p => by cases p <;> exact List.suffix_refl _
  | taskDone i job getter hgetter =>
      exact hs.of_suffix rfl fun p => by rw [JobQueue.items_queue_taskDone]

/-! ## what child tasks hold -/

/-- A suspended `get` holds one item of a queue, or none. -/
theorem length_held_phase {phase : GetPhase} (p : JobPriority)
    (h : ∀ p item, phase.task p = some (.done item) → Belongs p item) :
    (ofClass p phase.held).length = (phase.holdsFrom p).toNat := by
  cases phase with
  | idle => rfl
  | waiting highTask normalTask =>
      have hhigh : ∀ item ∈ highTask.held, Belongs .high item := by
        intro item hitem
        cases highTask with
        | pending => cases hitem
        | done item' =>
            rw [List.mem_singleton.mp hitem]
            exact h .high item' rfl
      have hnormal : ∀ item ∈ normalTask.held, Belongs .normal item := by
        intro item hitem
        cases normalTask with
        | pending => cases hitem
        | done item' =>
            rw [List.mem_singleton.mp hitem]
            exact h .normal item' rfl
      rw [GetPhase.held, ofClass_append]
      cases p with
      | high =>
          have hne : JobPriority.normal ≠ .high := by decide
          rw [ofClass_eq_self hhigh, ofClass_eq_nil hne hnormal, List.append_nil]
          cases highTask <;> rfl
      | normal =>
          have hne : JobPriority.high ≠ .normal := by decide
          rw [ofClass_eq_nil hne hhigh, ofClass_eq_self hnormal, List.nil_append]
          cases normalTask <;> rfl

/-- The items of a priority that are held are those held from its queue. -/
theorem length_held {s : Loop} {owed : List JobPriority} (hc : s.Covers owed) (p : JobPriority) :
    (ofClass p s.held).length = s.heldFrom p := by
  rw [held, heldFrom]
  have hbelongs := hc.heldBelongs
  revert hbelongs
  induction s.getters with
  | nil => exact fun _ => rfl
  | cons g getters ih =>
      intro hbelongs
      obtain ⟨hg, hrest⟩ := List.forall_mem_cons.mp hbelongs
      rw [List.flatMap_cons, ofClass_append, List.length_append, ih hrest, List.countP_cons,
        length_held_phase p hg, Nat.add_comm]
      cases g.phase.holdsFrom p <;> rfl

end Loop

end RubicaBot
