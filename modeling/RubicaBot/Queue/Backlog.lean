import RubicaBot.Queue.Conservation

/-!
# RubicaBot.Queue.Backlog

The order inside the two FIFOs.

`step_moves` says of every step what conservation does not: each queue loses a
prefix and gains a suffix.  So the items waiting at some moment remain, as time
goes on, a prefix of their queue, and what they have lost is held, returned,
evicted or drained.  `Carries` is that invariant for a backlog of accepted jobs
behind which stop sentinels are put: as soon as a sentinel has left the high
queue, the whole high backlog has left it too.
-/

namespace RubicaBot

open Transition

/-- What `_put` and `put_raw` put into the queue of priority `p`. -/
def Belongs (p : JobPriority) : Option Job → Prop
  | some job => job.priority = p
  | none => p = .high

/-- An item of the normal queue is a job. -/
theorem Belongs.isSome_of_normal {item : Option Job} (h : Belongs .normal item) :
    item.isSome = true := by
  cases item with
  | none => cases h
  | some job => rfl

namespace Loop

/-- Items that have left the FIFOs, by kind: those held, returned, evicted and
drained. -/
def elsewhere (s : Loop) (f : Option Job → Bool) : Nat :=
  s.held.countP f + s.returned.countP f + s.evicted.countP f + s.drained.countP f

/-! ## one step on the two FIFOs -/

/-- The queues lose the prefixes `taken` and gain the suffixes `added`. -/
structure Moves (s s' : Loop) (taken added : JobPriority → List (Option Job)) : Prop where
  fifo : ∀ p, ∃ rest, (s.queue.queue p).items = taken p ++ rest ∧
    (s'.queue.queue p).items = rest ++ added p
  belongs : ∀ p, ∀ item ∈ added p, Belongs p item
  elsewhere : ∀ f, s'.elsewhere f =
    s.elsewhere f + (taken .high).countP f + (taken .normal).countP f

/-- Only the queue of priority `p` has the list. -/
def only (p : JobPriority) (items : List (Option Job)) : JobPriority → List (Option Job) :=
  fun p' => if p' = p then items else []

/-- What is in one queue or the other is counted once. -/
theorem countP_only (f : Option Job → Bool) (p : JobPriority) (items : List (Option Job)) :
    (only p items .high).countP f + (only p items .normal).countP f = items.countP f := by
  cases p <;> simp [only]

/-- A step that leaves the queues alone. -/
theorem Moves.of_queue_eq {s s' : Loop} (hq : ∀ p, s'.queue.queue p = s.queue.queue p)
    (he : ∀ f, s'.elsewhere f = s.elsewhere f) : Moves s s' (fun _ => []) (fun _ => []) where
  fifo p := ⟨(s.queue.queue p).items, rfl, by rw [hq p, List.append_nil]⟩
  belongs _ _ h := absurd h List.not_mem_nil
  elsewhere f := by simp [he f]

/-- A step that takes the head of one queue. -/
theorem Moves.of_take {s s' : Loop} {p : JobPriority} {item : Option Job} {q : JobQueue}
    (htake : s.queue.takeFrom p = some (item, q)) (hq : s'.queue.queue = q.queue)
    (he : ∀ f, s'.elsewhere f = s.elsewhere f + [item].countP f) :
    Moves s s' (only p [item]) (fun _ => []) := by
  obtain ⟨a, hitems, rfl⟩ := JobQueue.takeFrom_eq_some htake
  refine ⟨fun p' => ?_, fun _ _ h => absurd h List.not_mem_nil, fun f => ?_⟩
  · rw [hq]
    by_cases hp : p' = p
    · subst hp
      exact ⟨a.items, by simp [only, hitems], by simp⟩
    · refine ⟨(s.queue.queue p').items, by simp [only, hp], ?_⟩
      rw [JobQueue.queue_setQueue_ne _ hp, List.append_nil]
  · rw [he f, Nat.add_assoc, countP_only]

/-- What `_drop_oldest` takes is what it logs as evicted. -/
theorem dropOldest_moves (q : JobQueue) : ∃ taken : JobPriority → List (Option Job),
    (∀ p, (q.queue p).items = taken p ++ (q.dropOldest.queue p).items) ∧
    ∀ f, (taken .high).countP f + (taken .normal).countP f = q.victim.toList.countP f := by
  rcases q.dropOldest_queue with ⟨hv, hq⟩ | ⟨p, item, hv, hitems, hother⟩
  · exact ⟨fun _ => [], fun p => by rw [hq]; rfl, fun f => by simp [hv]⟩
  · refine ⟨only p [item], fun p' => ?_, fun f => ?_⟩
    · by_cases hp : p' = p
      · subst hp
        simp [only, hitems]
      · simp [only, hp, hother p' hp]
    · rw [countP_only, hv, Option.toList_some]

/-- What a critical section of `enqueue` takes is what it logs as evicted, and
what it adds belongs where it is added. -/
theorem enqueueLocked_moves (q : JobQueue) (job : Job) :
    ∃ taken added : JobPriority → List (Option Job),
      (∀ p, ∃ rest, (q.queue p).items = taken p ++ rest ∧
        ((q.enqueueLocked job).2.queue p).items = rest ++ added p) ∧
      (∀ p, ∀ item ∈ added p, Belongs p item) ∧
      ∀ f, (taken .high).countP f + (taken .normal).countP f =
        ((q.enqueueEvents job).filterMap Event.evicted?).countP f := by
  have hput (q : JobQueue) (p : JobPriority) : (((q.put job).counted).queue p).items =
      (q.queue p).items ++ only job.priority [some job] p := by
    rw [only, if_congr eq_comm rfl rfl]
    exact q.queue_put job p
  have hbelongs : ∀ p, ∀ item ∈ only job.priority [some job] p, Belongs p item := by
    intro p item hitem
    simp only [only] at hitem
    split at hitem
    · next hp =>
        rw [List.mem_singleton.mp hitem, hp]
        rfl
    · exact absurd hitem List.not_mem_nil
  by_cases hfull : q.isFull
  · by_cases hpolicy : q.fullPolicy = "drop_oldest"
    · obtain ⟨taken, htaken, hcount⟩ := dropOldest_moves q
      refine ⟨taken, only job.priority [some job], fun p => ⟨_, htaken p, ?_⟩, hbelongs,
        fun f => ?_⟩
      · simpa only [JobQueue.enqueueLocked, hfull, hpolicy, if_true] using hput q.dropOldest p
      · simp only [JobQueue.enqueueEvents, hfull, hpolicy, if_true, List.filterMap_cons,
          Event.evicted?, Event.evicted_evicted, hcount f]
    · refine ⟨fun _ => [], fun _ => [], fun p => ⟨(q.queue p).items, rfl, ?_⟩,
        fun _ _ h => absurd h List.not_mem_nil, fun f => ?_⟩
      · simp only [JobQueue.enqueueLocked, hfull, hpolicy, if_true, if_false, List.append_nil]
        cases p <;> rfl
      · simp only [JobQueue.enqueueEvents, hfull, hpolicy, if_true, if_false]
        rfl
  · refine ⟨fun _ => [], only job.priority [some job], fun p => ⟨(q.queue p).items, rfl, ?_⟩,
      hbelongs, fun f => ?_⟩
    · simpa only [JobQueue.enqueueLocked, hfull, Bool.false_eq_true, if_false] using hput q p
    · simp only [JobQueue.enqueueEvents, hfull]
      rfl

/-- **FIFO step lemma.**  Every step, other than a `get` that resumes with both
child tasks done, takes prefixes off the queues and adds suffixes to them. -/
theorem step_moves {s s' : Loop} {l : Label} (hno : s.NoDoubleTake l) (h : s.step l = some s') :
    ∃ taken added, Moves s s' taken added := by
  have hdiscarded := (discarded_eq_nil_iff h).mpr hno
  cases Step.of_step h with
  | duplicate job now q hclock hseen =>
      exact ⟨_, _, .of_queue_eq (JobQueue.queue_seenCheck hseen) fun f => rfl⟩
  | fresh job now q hclock hseen =>
      exact ⟨_, _, .of_queue_eq (JobQueue.queue_seenCheck hseen) fun f => rfl⟩
  | locked i call hcall =>
      obtain ⟨taken, added, hfifo, hbelongs, hcount⟩ := enqueueLocked_moves s.queue call.job
      refine ⟨taken, added, hfifo, hbelongs, fun f => ?_⟩
      simp only [elsewhere, held, returned, evicted, drained, List.filterMap_cons,
        List.filterMap_append, Event.returned?, Event.evicted?, Event.drained?,
        JobQueue.enqueueEvents_returned, JobQueue.enqueueEvents_drained, List.nil_append,
        List.countP_append, ← hcount f]
      omega
  | putRaw =>
      refine ⟨fun _ => [], only .high [none], fun p => ⟨(s.queue.queue p).items, rfl, ?_⟩, ?_,
        fun f => rfl⟩
      · cases p with
        | high => rfl
        | normal => exact (List.append_nil _).symm
      · intro p item hitem
        cases p with
        | high =>
            rw [List.mem_singleton.mp hitem]
            rfl
        | normal => exact absurd hitem List.not_mem_nil
  | dropOldest =>
      obtain ⟨taken, htaken, hcount⟩ := dropOldest_moves s.queue
      refine ⟨taken, fun _ => [], fun p => ⟨_, htaken p, (List.append_nil _).symm⟩,
        fun _ _ h => absurd h List.not_mem_nil, fun f => ?_⟩
      simp only [elsewhere, held, returned, evicted, drained, List.filterMap_append,
        Event.returned_evicted, Event.evicted_evicted, Event.drained_evicted, List.nil_append,
        List.countP_append, ← hcount f]
      omega
  | drain =>
      refine ⟨fun p => (s.queue.queue p).items, fun _ => [],
        fun p => ⟨[], (List.append_nil _).symm, ?_⟩, fun _ _ h => absurd h List.not_mem_nil,
        fun f => ?_⟩
      · cases p <;> simp [JobQueue.drain, JobQueue.queue]
      · simp only [elsewhere, held, returned, evicted, drained, List.filterMap_append,
          Event.returned_drained, Event.evicted_drained, Event.drained_drained, List.nil_append,
          List.countP_append]
        simp only [JobQueue.waiting, JobQueue.queue, List.countP_append]
        omega
  | getReady i lastQueue item p q hgetter hready =>
      obtain ⟨m, htake, rfl, -⟩ := JobQueue.getReady_eq_some hready
      refine ⟨_, _, .of_take htake rfl fun f => ?_⟩
      have hset := countP_flatMap_set f (fun g : Getter => g.phase.held) (y := ⟨.idle, some p⟩)
        hgetter
      simp only [elsewhere, held, returned, evicted, drained, List.filterMap_cons,
        Event.returned?, Event.evicted?, Event.drained?, GetPhase.held, List.countP_nil,
        List.countP_cons] at hset ⊢
      omega
  | getWait i lastQueue hgetter hready =>
      refine ⟨_, _, .of_queue_eq (fun _ => rfl) fun f => ?_⟩
      have hset := countP_flatMap_set f (fun g : Getter => g.phase.held)
        (y := ⟨.waiting .pending .pending, lastQueue⟩) hgetter
      simp only [elsewhere, held, returned, evicted, drained, GetPhase.held, ChildTask.held,
        List.append_nil, List.countP_nil] at hset ⊢
      omega
  | childTakes i p phase lastQueue item q hgetter htask htake =>
      refine ⟨_, _, .of_take htake rfl fun f => ?_⟩
      have hcomplete := (GetPhase.held_complete item htask).countP_eq f
      have hset := countP_flatMap_set f (fun g : Getter => g.phase.held)
        (y := ⟨phase.complete p item, lastQueue⟩) hgetter
      simp only [elsewhere, held, returned, evicted, drained, List.countP_cons, List.countP_nil]
        at hcomplete hset ⊢
      omega
  | resume i winner phase lastQueue item hgetter htask =>
      refine ⟨_, _, .of_queue_eq (fun p => by cases p <;> rfl) fun f => ?_⟩
      have hloser := (GetPhase.held_perm_loser htask).countP_eq f
      have hset := countP_flatMap_set f (fun g : Getter => g.phase.held)
        (y := ⟨.idle, some winner⟩) hgetter
      simp only [discarded, hgetter] at hdiscarded
      simp only [elsewhere, held, returned, evicted, drained, hdiscarded, List.filterMap_cons,
        Event.returned?, Event.evicted?, Event.drained?, GetPhase.held, List.countP_nil,
        List.countP_cons] at hloser hset ⊢
      omega
  | taskDone i job getter hgetter =>
      refine ⟨fun _ => [], fun _ => [], fun p => ⟨(s.queue.queue p).items, rfl, ?_⟩,
        fun _ _ h => absurd h List.not_mem_nil, fun f => rfl⟩
      rw [List.append_nil]
      exact JobQueue.items_queue_taskDone s.queue job getter.lastQueue p

/-! ## before any sentinel -/

/-- Everything put so far is an accepted job, and accounted for. -/
structure Open (s : Loop) : Prop where
  conserved : s.Conserved []
  puts : s.puts = s.acceptedJobs.map some

/-- Nothing has been put into a new queue. -/
theorem init_open (n : Nat) (maxSize : Int) (fullPolicy : String) (ttl : ℚ) :
    (init n maxSize fullPolicy ttl).Open := ⟨init_conserved n maxSize fullPolicy ttl, rfl⟩

/-- Only `put_raw` puts something that is not an accepted job. -/
theorem step_open {s s' : Loop} {l : Label} (ho : s.Open) (hl : l ≠ .putRaw)
    (hno : s.NoDoubleTake l) (h : s.step l = some s') : s'.Open := by
  constructor
  · have hc := step_conserves ho.conserved h
    rwa [(discarded_eq_nil_iff h).mpr hno, List.append_nil] at hc
  · have hputs := ho.puts
    simp only [puts, acceptedJobs, enqueuedCalls] at hputs ⊢
    cases Step.of_step h with
    | locked i call hcall =>
        simp only [List.filterMap_cons, List.filterMap_append, Event.put?, hputs,
          JobQueue.enqueueEvents_put, JobQueue.enqueueEvents_enqueued, List.nil_append]
        cases (s.queue.enqueueLocked call.job).1 <;> simp [Event.enqueued?]
    | putRaw => exact absurd rfl hl
    | dropOldest =>
        rw [List.filterMap_append, List.filterMap_append, Event.put_evicted,
          Event.enqueued_evicted]
        exact hputs
    | drain =>
        rw [List.filterMap_append, List.filterMap_append, Event.put_drained,
          Event.enqueued_drained]
        exact hputs
    | _ => exact hputs

/-! ## a backlog of accepted jobs -/

/-- Of the jobs in `accepted`, those not yet elsewhere are among the prefixes
`high` and `normal` of the two queues, and no sentinel has left the queues while
the high prefix was not empty. -/
structure Carries (s : Loop) (accepted : List Job) (high normal : List (Option Job)) : Prop where
  highFront : high <+: s.queue.highQueue.items
  normalFront : normal <+: s.queue.normalQueue.items
  noSentinel : none ∉ high
  known : ∀ item ∈ normal, ∃ job ∈ accepted, item = some job
  overtaken : s.elsewhere Option.isNone ≠ 0 → high = []
  covered : ∀ f, (accepted.map some).countP f ≤
    high.countP f + normal.countP f + s.elsewhere f

/-- What is accepted so far is such a backlog, as long as no sentinel was put. -/
theorem Open.carries {s : Loop} (ho : s.Open) :
    s.Carries s.acceptedJobs s.queue.highQueue.items s.queue.normalQueue.items := by
  have hcount (f : Option Job → Bool) : (s.acceptedJobs.map some).countP f =
      s.queue.highQueue.items.countP f + s.queue.normalQueue.items.countP f + s.elsewhere f := by
    rw [← ho.puts, (conserved_iff s []).mp ho.conserved f, JobQueue.waiting, List.countP_append,
      List.countP_nil, elsewhere]
    omega
  have hjobs : (s.acceptedJobs.map some).countP Option.isNone = 0 := by
    simp [List.countP_eq_zero]
  have hnone := hcount Option.isNone
  refine ⟨List.prefix_rfl, List.prefix_rfl, fun hmem => ?_, fun item hitem => ?_, fun h => ?_,
    fun f => (hcount f).le⟩
  · have hpos : 0 < s.queue.highQueue.items.countP Option.isNone :=
      List.countP_pos_iff.mpr ⟨none, hmem, rfl⟩
    omega
  · have hmem : item ∈ s.puts := by
      refine (ho.conserved.mem_iff).mpr ?_
      simp [places, JobQueue.waiting, hitem]
    rw [ho.puts] at hmem
    obtain ⟨job, hjob, rfl⟩ := List.mem_map.mp hmem
    exact ⟨job, hjob, rfl⟩
  · omega

/-- Taking a prefix off a list takes it off the list's prefixes. -/
theorem front_drop {α : Type} {xs taken rest : List α} (h : xs <+: taken ++ rest) :
    xs.drop taken.length <+: rest ∧
      ∀ f : α → Bool, xs.countP f ≤ taken.countP f + (xs.drop taken.length).countP f := by
  constructor
  · have hdrop := h.drop taken.length
    rwa [List.drop_left] at hdrop
  · intro f
    have htake := h.take taken.length
    rw [List.take_left] at htake
    have hle := htake.sublist.countP_le (p := f)
    have hsplit := congrArg (List.countP f) (List.take_append_drop taken.length xs)
    rw [List.countP_append] at hsplit
    omega

/-- **Step lemma.**  Taking the head of a queue takes the head of its prefix. -/
theorem step_carries {s s' : Loop} {l : Label} {accepted : List Job}
    {high normal : List (Option Job)} (hc : s.Carries accepted high normal)
    (hjobs : ∀ item ∈ s.queue.normalQueue.items, Belongs .normal item)
    (hno : s.NoDoubleTake l) (h : s.step l = some s') :
    ∃ n m, s'.Carries accepted (high.drop n) (normal.drop m) := by
  obtain ⟨taken, added, hmoves⟩ := step_moves hno h
  obtain ⟨restHigh, hhigh, hhigh'⟩ := hmoves.fifo .high
  obtain ⟨restNormal, hnormal, hnormal'⟩ := hmoves.fifo .normal
  simp only [JobQueue.queue] at hhigh hhigh' hnormal hnormal'
  obtain ⟨hph, hch⟩ := front_drop (hhigh ▸ hc.highFront)
  obtain ⟨hpn, hcn⟩ := front_drop (hnormal ▸ hc.normalFront)
  refine ⟨(taken .high).length, (taken .normal).length, ?_, ?_, ?_, ?_, ?_, ?_⟩
  · rw [hhigh']
    exact hph.trans (List.prefix_append _ _)
  · rw [hnormal']
    exact hpn.trans (List.prefix_append _ _)
  · exact fun hmem => hc.noSentinel (List.mem_of_mem_drop hmem)
  · exact fun item hmem => hc.known item (List.mem_of_mem_drop hmem)
  · intro helse
    by_cases hold : s.elsewhere Option.isNone = 0
    · -- the sentinel was taken in this step, from the high queue
      rw [hmoves.elsewhere] at helse
      have hzero : (taken .normal).countP Option.isNone = 0 := by
        rw [List.countP_eq_zero]
        intro item hitem
        have hmem : item ∈ s.queue.normalQueue.items := by
          rw [hnormal]
          exact List.mem_append_left _ hitem
        have hsome := (hjobs item hmem).isSome_of_normal
        cases item <;> simp_all
      obtain ⟨item, hitem, hnone⟩ := List.countP_pos_iff.mp
        (show 0 < (taken .high).countP Option.isNone by omega)
      rw [Option.isNone_iff_eq_none.mp hnone] at hitem
      rw [List.drop_eq_nil_iff]
      by_contra hlt
      have hfront : taken .high <+: high :=
        List.prefix_of_prefix_length_le (List.prefix_append _ _) (hhigh ▸ hc.highFront) (by omega)
      exact hc.noSentinel (hfront.subset hitem)
    · rw [hc.overtaken hold, List.drop_nil]
  · intro f
    have hcov := hc.covered f
    rw [hmoves.elsewhere f]
    have := hch f
    have := hcn f
    omega

end Loop

end RubicaBot
