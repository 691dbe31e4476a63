import RubicaBot.App
import RubicaBot.Coroutine.Allowed
import RubicaBot.Plugins.Suspending.Atomicity

/-!
# RubicaBot.App.Serial

What the interleaving of the dispatches cannot change.

`Sound` is the invariant of every run of the process.  It has the pool's own invariant, the
one of the threads, and what ties them together: the threads are what has been started,
what has been started for workers is what the pool has passed on, and the calls of
`enqueue` are those of requests.
-/

namespace RubicaBot

open Py Transition

/-! ## what is started -/

namespace Start

/-- What is started has written all it will before it first suspends. -/
theorem program_writesFirst (st : Start) : st.program.WritesFirst true fun _ => True := by
  cases st with
  | job worker env ctx job => exact Suspending.processJob_writesFirst job
  | janitor settings now => exact Coroutine.writesFirst_atomic _

/-- What a start does to the tables, it does before it suspends. -/
theorem advance_program (st : Start) (t : Tables) : (st.program.advance t).2 = st.apply t := by
  cases st with
  | job worker env ctx job => exact (Suspending.processJob_tables env ctx job (t.world [])).symm
  | janitor settings now => rfl

/-- The tables that these starts leave behind, the newest last. -/
def applyAll (starts : List Start) (t₀ : Tables) : Tables := starts.foldr Start.apply t₀

end Start

namespace App

/-! ## the invariant -/

/-- The threads are what has been started. -/
structure Threaded (t₀ : Tables) (dispatches : Dispatches) (starts : List Start) : Prop where
  serial : dispatches.Serial (fun _ => True) t₀
  traced : ∀ t ∈ dispatches.threads, Threads.Traced t
  programs : dispatches.threads.map Thread.program = starts.map Start.program
  paused : ∀ t ∈ dispatches.threads, ∀ x ∈ t.exchanges, x.1 = .sleep → x.2 = .ok .none

/-- The owner is asked for in every dispatch. -/
def Owned (d : AppSettings) (starts : List Start) : Prop :=
  ∀ worker env ctx job, .job worker env ctx job ∈ starts → ctx.ownerId = d.context.ownerId

/-- The invariant of every run. -/
structure Sound (d : AppSettings) (t₀ : Tables) (s : App) : Prop where
  pool : s.pool.Sound
  supplied : s.pool.loop.Supplied
  spaced : 0 ≤ d.dedupTtl → ∃ log, s.pool.loop.Spaced d.dedupTtl log
  issued : s.pool.loop.passed.Subperm (s.received.filterMap (Request.call d))
  threaded : Threaded t₀ s.dispatches s.starts
  owned : Owned d s.starts
  passed : s.starts.filterMap Start.job? = s.pool.passed

variable {d : AppSettings} {t₀ : Tables} {s s' : App}

/-- One thread after another is one start after another. -/
theorem serial_eq_applyAll {threads : List (Thread Tables Suspension PyVal PyError Unit)}
    {starts : List Start}
    (h : threads.map Thread.program = starts.map Start.program) :
    Threads.serial t₀ threads = Start.applyAll starts t₀ := by
  induction threads generalizing starts with
  | nil =>
      rw [List.map_nil, eq_comm, List.map_eq_nil_iff] at h
      rw [h]
      rfl
  | cons t threads ih =>
      cases starts with
      | nil => cases h
      | cons st starts =>
          obtain ⟨hprogram, hrest⟩ := List.cons.inj h
          rw [Threads.serial, ih hrest, hprogram, Start.advance_program]
          rfl

/-- A start is one more thread, and it is well threaded. -/
theorem Threaded.start {dispatches : Dispatches} {starts : List Start}
    (h : Threaded t₀ dispatches starts) (st : Start) :
    Threaded t₀ (dispatches.start st.program) (st :: starts) := by
  refine ⟨?_, ?_, congrArg (st.program :: ·) h.programs, ?_⟩
  · exact Threads.step_serial h.serial (l := .start st.program) st.program_writesFirst rfl
  · exact Threads.step_traced h.traced (l := .start st.program) rfl
  · intro t ht
    obtain rfl | ht := List.mem_cons.mp ht
    · exact nofun
    · exact h.paused t ht

/-- A thread that goes on keeps its program. -/
theorem Threaded.reply {dispatches dispatches' : Dispatches} {starts : List Start}
    (h : Threaded t₀ dispatches starts) {n : Nat} {reply : Except PyError PyVal}
    {t : Thread Tables Suspension PyVal PyError Unit} (hthread : dispatches.threads[n]? = some t)
    (hreply : t.waitsFor = some .sleep → reply = .ok .none)
    (hstep : dispatches.step (.reply n reply) = some dispatches') :
    Threaded t₀ dispatches' starts := by
  refine ⟨?_, Threads.step_traced h.traced hstep, ?_, ?_⟩
  · exact Threads.step_serial h.serial (l := .reply n reply) trivial hstep
  · exact (Threads.programs_of_reply hstep).trans h.programs
  · cases Threads.Step.of_step hstep with
    | reply n reply t' c k hthread' hawaiting =>
        rw [hthread', Option.some.injEq] at hthread
        subst hthread
        intro t'' ht'' x hx hsleep
        rcases List.mem_or_eq_of_mem_set ht'' with ht'' | rfl
        · exact h.paused t'' ht'' x hx hsleep
        · obtain hx | hx := List.mem_append.mp hx
          · exact h.paused t' (List.mem_of_getElem? hthread') x hx hsleep
          · rw [List.mem_singleton.mp hx] at hsleep ⊢
            refine hreply ?_
            rw [Thread.waitsFor, hawaiting]
            exact congrArg some hsleep

/-- There are as many threads as starts. -/
theorem Threaded.length_eq {dispatches : Dispatches} {starts : List Start}
    (h : Threaded t₀ dispatches starts) : dispatches.threads.length = starts.length := by
  have hmap := congrArg List.length h.programs
  rwa [List.length_map, List.length_map] at hmap

/-- A step of the pool that is not an `enqueue`. -/
theorem Sound.pool_step (hs : s.Sound d t₀) {l : WorkerPool.Label} (hcall : l.call = none)
    {pool : WorkerPool} (hpool : s.pool.step l = some pool) :
    pool.Sound ∧ pool.loop.Supplied ∧
      (0 ≤ d.dedupTtl → ∃ log, pool.loop.Spaced d.dedupTtl log) ∧
      pool.loop.passed.Subperm (s.received.filterMap (Request.call d)) := by
  refine ⟨WorkerPool.step_sound hs.pool hpool, WorkerPool.step_supplied hs.supplied hpool,
    fun httl => WorkerPool.step_spaced httl (hs.spaced httl) hpool, ?_⟩
  have hsub := WorkerPool.step_passed hpool
  rw [hcall] at hsub
  exact hsub.trans hs.issued

/-- A step of `get` is not an `enqueue`. -/
theorem call_of_own {l : WorkerPool.Label} {i : Nat} {ql : RubicaBot.Label}
    (h : l.own = some (i, ql)) : l.call = none := by
  cases l <;> first | rfl | cases h

/-- **Step lemma.** -/
theorem step_sound (hs : s.Sound d t₀) {lab : Label} (h : s.step d lab = some s') :
    s'.Sound d t₀ := by
  cases Step.of_step h with
  | turnedAway r limiter =>
      refine ⟨hs.pool, hs.supplied, hs.spaced, hs.issued.trans ?_, hs.threaded, hs.owned, hs.passed⟩
      exact ((List.sublist_cons_self r s.received).filterMap _).subperm
  | enqueue r limiter call hcall pool hpool =>
      refine ⟨WorkerPool.step_sound hs.pool hpool, WorkerPool.step_supplied hs.supplied hpool,
        fun httl => WorkerPool.step_spaced httl (hs.spaced httl) hpool, ?_, hs.threaded,
        hs.owned, ?_⟩
      · refine (WorkerPool.step_passed hpool).trans ?_
        show (call :: s.pool.loop.passed).Subperm ((r :: s.received).filterMap (Request.call d))
        rw [List.filterMap_cons_some hcall]
        exact List.subperm_cons call |>.mpr hs.issued
      · rw [WorkerPool.passed_of_not_own rfl hpool]
        exact hs.passed
  | pool lab hlab l hown hcall pool hpool =>
      obtain ⟨hsound, hsupplied, hspaced, hissued⟩ := hs.pool_step hcall hpool
      refine ⟨hsound, hsupplied, hspaced, hissued, hs.threaded, hs.owned, ?_⟩
      rw [WorkerPool.passed_of_not_own hown hpool]
      exact hs.passed
  | waits l env stats i ql hown pool hpool hdel =>
      obtain ⟨hsound, hsupplied, hspaced, hissued⟩ := hs.pool_step (call_of_own hown) hpool
      refine ⟨hsound, hsupplied, hspaced, hissued, hs.threaded, hs.owned, ?_⟩
      rw [WorkerPool.passed_of_own hown hpool, hdel]
      exact hs.passed
  | dispatch l env stats i ql hown pool hpool job hdel =>
      obtain ⟨hsound, hsupplied, hspaced, hissued⟩ := hs.pool_step (call_of_own hown) hpool
      refine ⟨hsound, hsupplied, hspaced, hissued, hs.threaded.start _, ?_, ?_⟩
      · intro worker' env' ctx' job' hmem
        obtain hmem | hmem := List.mem_cons.mp hmem
        · cases hmem
          rfl
        · exact hs.owned worker' env' ctx' job' hmem
      · show job :: s.starts.filterMap Start.job? = pool.passed
        rw [WorkerPool.passed_of_own hown hpool, hdel, hs.passed]
        rfl
  | resumed lab hlab n reply t hthread hreply dispatches hstep =>
      exact ⟨hs.pool, hs.supplied, hs.spaced, hs.issued,
        hs.threaded.reply hthread hreply hstep, hs.owned, hs.passed⟩
  | janitor now =>
      refine ⟨hs.pool, hs.supplied, hs.spaced, hs.issued, hs.threaded.start _, ?_, hs.passed⟩
      intro worker env ctx job hmem
      obtain hmem | hmem := List.mem_cons.mp hmem
      · cases hmem
      · exact hs.owned worker env ctx job hmem

/-- The statistics do not matter to the pool. -/
theorem init_pool_sound (d : AppSettings) (t₀ : Tables) : (init d t₀).pool.Sound := by
  have hs := WorkerPool.init_sound d.concurrency d.queueMaxSize d.queueFullPolicy d.dedupTtl
  refine ⟨⟨hs.covers.queue.of_queue_eq fun p => ?_, hs.covers.heldBelongs⟩, hs.idle, hs.tasks,
    hs.passed, hs.alive, hs.received⟩
  cases p <;> rfl

/-- Nothing has been started in a new process. -/
theorem init_sound (d : AppSettings) (t₀ : Tables) : (init d t₀).Sound d t₀ where
  pool := init_pool_sound d t₀
  supplied := (Loop.init_supplied _ _ _ _).of_items fun p => by cases p <;> rfl
  spaced := fun _ =>
    ⟨[], (Loop.init_spaced (max 1 d.concurrency).toNat _ _ _).of_frame rfl rfl rfl⟩
  issued := List.nil_subperm
  threaded := ⟨Threads.serial_init t₀, nofun, rfl, nofun⟩
  owned := fun _ _ _ _ h => absurd h List.not_mem_nil
  passed := rfl

/-- **Run lemma.** -/
theorem run_sound {ls : List Label} (h : run (step d) (init d t₀) ls = some s) :
    s.Sound d t₀ :=
  run_invariant_of_step (fun _ _ _ hs hstep => step_sound hs hstep) (init_sound d t₀) h

/-- What the steps of a sound process keep holds in every run. -/
theorem run_of_sound {I : App → Prop}
    (hstep : ∀ s lab s', s.Sound d t₀ → I s → s.step d lab = some s' → I s')
    (h₀ : I (init d t₀)) {ls : List Label} (h : run (step d) (init d t₀) ls = some s) : I s :=
  (run_invariant_of_step (I := fun s => s.Sound d t₀ ∧ I s)
    (fun s lab s' hs hl => ⟨step_sound hs.1 hl, hstep s lab s' hs.1 hs.2 hl⟩)
    ⟨init_sound d t₀, h₀⟩ h).2

/-! ## the serial order -/

/-- The tables are those of the serial order. -/
theorem Sound.tables_eq (hs : s.Sound d t₀) : s.tables = Start.applyAll s.starts t₀ := by
  rw [tables, hs.threaded.serial.shared]
  exact serial_eq_applyAll hs.threaded.programs

/-- The `n`-th thread is what has been started as the `n`-th, where those before it left
the tables. -/
theorem Sound.started (hs : s.Sound d t₀) {n : Nat} {st : Start}
    {t : Thread Tables Suspension PyVal PyError Unit} (hst : s.starts[n]? = some st)
    (ht : s.dispatches.threads[n]? = some t) :
    t.program = st.program ∧ t.startedIn = Start.applyAll (s.starts.drop (n + 1)) t₀ := by
  constructor
  · have hprogram := congrArg (·[n]?) hs.threaded.programs
    simpa [ht, hst] using hprogram
  · rw [hs.threaded.serial.inOrder.startedIn ht]
    refine serial_eq_applyAll ?_
    rw [List.map_drop, List.map_drop, hs.threaded.programs]

/-! ## at most once -/

/-- Some of the images are the images of some. -/
theorem exists_subperm_of_map {α β : Type} {f : α → β} {bs : List β} {as : List α}
    (h : bs.Subperm (as.map f)) : ∃ as' : List α, as'.Sublist as ∧ (as'.map f).Perm bs := by
  obtain ⟨bs', hperm, hsub⟩ := h
  obtain ⟨as', has', rfl⟩ := List.sublist_map_iff.mp hsub
  exact ⟨as', has', hperm⟩

/-- The calls of `enqueue` behind the dispatched jobs: distinct ones, of received requests
that the signature check let through. -/
theorem Sound.calls_of_starts (hs : s.Sound d t₀) : ∃ calls : List EnqueueCall,
    (calls.map EnqueueCall.job).Perm (s.starts.filterMap Start.job?) ∧
      calls.Sublist s.pool.loop.passed := by
  have hpassed := hs.pool.passed_subperm hs.supplied
  rw [← hs.passed, Loop.acceptedJobs] at hpassed
  obtain ⟨calls, hsub, hperm⟩ := exists_subperm_of_map hpassed
  exact ⟨calls, hperm, hsub.trans (List.sublist_append_right _ _)⟩

/-- Behind a dispatched job is a received request. -/
theorem Sound.request_of_start (hs : s.Sound d t₀) {job : Job}
    (hjob : job ∈ s.starts.filterMap Start.job?) :
    ∃ r ∈ s.received, ∃ call, r.call d = some call ∧ call.job = job := by
  obtain ⟨calls, hperm, hsub⟩ := hs.calls_of_starts
  obtain ⟨call, hcall, rfl⟩ := List.mem_map.mp (hperm.mem_iff.mpr hjob)
  obtain ⟨r, hr, hrcall⟩ :=
    List.mem_filterMap.mp ((hsub.subperm.trans hs.issued).subset hcall)
  exact ⟨r, hr, call, hrcall, rfl⟩

/-- **At most once.**  The dispatched jobs can be matched with authenticated requests, each
with one of its own, such that two requests for the same key made their duplicate checks
more than the lifetime apart: whatever is retried within it, is dispatched once. -/
theorem dispatches_apart (httl : 0 ≤ d.dedupTtl) {ls : List Label}
    (h : run (step d) (init d t₀) ls = some s) :
    ∃ calls : List EnqueueCall,
      (calls.map EnqueueCall.job).Perm (s.starts.filterMap Start.job?) ∧
      calls.Subperm (s.received.filterMap (Request.call d)) ∧
      calls.Pairwise (EnqueueCall.Apart d.dedupTtl) := by
  have hs := run_sound h
  obtain ⟨calls, hperm, hsub⟩ := hs.calls_of_starts
  obtain ⟨log, hspaced⟩ := hs.spaced httl
  exact ⟨calls, hperm, hsub.subperm.trans hs.issued, hspaced.apart.sublist hsub⟩

/-! ## what a dispatch has done -/

/-- The calls of the client among the exchanges, with their replies. -/
def apiExchanges (xs : List (Suspension × Except PyError PyVal)) :
    List (ApiCall × Except PyError PyVal) :=
  xs.filterMap fun x =>
    match x.1 with
    | .api call => some (call, x.2)
    | .sleep => none

/-- A client that answers the calls as they were answered. -/
theorem conducts_of_replies {env : Env} {xs : List (Suspension × Except PyError PyVal)}
    (hpaused : ∀ x ∈ xs, x.1 = .sleep → x.2 = .ok .none) {calls : List ApiCall}
    (hreply : ∀ k call r, (apiExchanges xs)[k]? = some (call, r) →
      env.reply (calls.length + k) call = r) :
    Coroutine.Conducts (Suspending.answer env) calls xs
      (calls ++ (apiExchanges xs).map Prod.fst) := by
  induction xs generalizing calls with
  | nil => exact (List.append_nil calls)
  | cons x xs ih =>
      obtain ⟨c, r⟩ := x
      obtain ⟨hfirst, hrest⟩ := List.forall_mem_cons.mp hpaused
      cases c with
      | sleep =>
          refine ⟨calls, ?_, ih hrest hreply⟩
          have hr : r = .ok .none := hfirst rfl
          rw [hr]
          rfl
      | api call =>
          have hnow : env.reply calls.length call = r := hreply 0 call r rfl
          refine ⟨calls ++ [call], ?_, ?_⟩
          · rw [← hnow]
            rfl
          · have hlater : ∀ k call' r', (apiExchanges xs)[k]? = some (call', r') →
                env.reply ((calls ++ [call]).length + k) call' = r' := by
              intro k call' r' hk
              rw [List.length_append, List.length_singleton, Nat.add_assoc, Nat.add_comm 1 k]
              exact hreply (k + 1) call' r' hk
            have hconducts := ih hrest hlater
            rw [List.append_assoc] at hconducts
            exact hconducts

/-- Without the cache, a dispatch that is over has made the calls that it makes by itself on
the tables it started on.  A press of a toggle asks for the settings once more after the
notice, and may find there what others have written. -/
theorem Sound.as_alone (hs : s.Sound d t₀) {n worker : Nat} {env : Env} {ctx : Context} {job : Job}
    (hstart : s.starts[n]? = some (.job worker env ctx job))
    (htoggles : ¬ Suspending.Toggles (Suspending.updateOf job))
    {t : Thread Tables Suspension PyVal PyError Unit}
    (hthread : s.dispatches.threads[n]? = some t) {result : Except PyError Unit}
    (hresult : t.result = some result) (calls : List ApiCall)
    {reply : Nat → ApiCall → Except PyError PyVal}
    (hreply : ∀ k call r, (apiExchanges t.exchanges)[k]? = some (call, r) →
      reply (calls.length + k) call = r) :
    processJob (env.answering reply) ctx job
        ((Start.applyAll (s.starts.drop (n + 1)) t₀).world calls) =
      (result, (Start.applyAll (s.starts.drop n) t₀).world
        (calls ++ (apiExchanges t.exchanges).map Prod.fst)) := by
  obtain ⟨hprogram, hstarted⟩ := hs.started hstart hthread
  have hmem := List.mem_of_getElem? hthread
  have hwrites : t.program.WritesFirst false fun _ => True :=
    hprogram ▸ Suspending.processJob_writesFirst_of_not_toggles htoggles
  obtain ⟨-, halone⟩ := (hs.threaded.traced t hmem).alone hwrites
  have houtcome : t.outcome = .finished result := by
    unfold Thread.result at hresult
    split at hresult
    · cases hresult
    · next result' houtcome => rw [houtcome, Option.some.inj hresult]
  rw [houtcome] at halone
  have hconducts : Coroutine.Conducts (Suspending.answer (env.answering reply)) calls t.exchanges
      (calls ++ (apiExchanges t.exchanges).map Prod.fst) :=
    conducts_of_replies (hs.threaded.paused t hmem) hreply
  have hrun := halone.run_of_finished hconducts
  have hnext : (t.program.advance t.startedIn).2 = Start.applyAll (s.starts.drop n) t₀ := by
    obtain ⟨hn, hget⟩ := List.getElem?_eq_some_iff.mp hstart
    rw [hprogram, Start.advance_program, hstarted, List.drop_eq_getElem_cons hn, hget]
    rfl
  rw [hnext, hstarted, hprogram] at hrun
  rw [← Suspending.processJob_performs job, Suspending.perform,
    Suspending.processJob_answering, World.tables_world, World.apiCalls_world]
  have hprogram' : (Start.job worker env ctx job).program = Suspending.processJob env ctx job := rfl
  rw [← hprogram', hrun]

/-! ### one `/ping` -/

/-- A deployment that takes every body for this message. -/
def pingSettings : AppSettings where
  runtime :=
    { Runtime.plain with
      jsonLoads := fun _ => .ok (.dict [("message", .dict
        [("chat_id", .str "c"), ("message_id", .str "m"), ("text", .str "/ping")])]) }
  webhookSecret := none
  context := {}
  janitor := ⟨true, 24, 100⟩
  concurrency := 1
  queueMaxSize := 10
  queueFullPolicy := "reject"
  dedupTtl := 60
  maxRequests := 10

/-- The worker waits, the message arrives, and the client answers. -/
def pingRun : List Label :=
  [.worker (.get 0) .plain none,
    .request ⟨ByteArray.empty, none, 0, 0, 0, "u"⟩, .queue (.lockAcquired 0),
    .queue (.childTakes 0 .normal), .worker (.resume 0 .normal) .plain none,
    .replied 0 (.ok (.dict [("ok", .bool true)])), .handled 0 none 1, .janitor 2]

theorem pingRun_isSome :
    (run (step pingSettings) (init pingSettings { rules := {} }) pingRun).isSome := by
  decide +kernel

theorem dispatches_apart_ping :
    ∃ (s : App) (calls : List EnqueueCall),
      run (step pingSettings) (init pingSettings { rules := {} }) pingRun = some s ∧
      (calls.map EnqueueCall.job).Perm (s.starts.filterMap Start.job?) := by
  have hrun := (Option.some_get pingRun_isSome).symm
  obtain ⟨calls, hperm, -, -⟩ := dispatches_apart (by decide +kernel) hrun
  exact ⟨_, calls, hrun, hperm⟩

end App

end RubicaBot
