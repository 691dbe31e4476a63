import RubicaBot.Coroutine.Threads
import RubicaBot.Database.Retention
import RubicaBot.Plugins.Suspending
import RubicaBot.Router
import RubicaBot.Worker.Accounting

/-!
# RubicaBot.App

`app/main.py`: the process that `startup` sets up, as one transition system.

Requests come in and go through `handle_request` to the queue; the workers take jobs off
it and dispatch them; a dispatch runs to its first call of the client, and is resumed by
the reply; the janitor passes over the database; and `shutdown` stops the workers.  All of
this happens in one thread, in any order that the guards of `step` allow.

The state remembers which requests have been received and what has been started, newest
first, the latter in step with the threads.

What the dispatches share is a parameter, with the coroutines that work on it
(`Programs`): here it is the tables, in `RubicaBot.App.Cached` the tables behind the cache
of the group settings.
-/

namespace RubicaBot

open Py Transition

/-! ## the janitor

`_run_db_janitor`: one pass over the snapshots and the message log.  A pass does not
suspend; what a statement of it raises is logged. -/

/-- The settings the janitor reads. -/
structure JanitorSettings where
  incomingUpdatesEnabled : Bool
  incomingUpdatesRetentionHours : Int
  messagesKeepPerChat : Int

/-- `cleanup_incoming_updates`, and how many rows it deleted. -/
def cleanupIncomingUpdates (rows : List IncomingRow) (maxAgeSeconds : Int) (now : Instant) :
    Except PyError (List IncomingRow × Nat) := do
  let cutoff ← secondsBefore now maxAgeSeconds
  let old := fun row : IncomingRow => decide (row.receivedAt < cutoff)
  return (rows.filter fun row => !old row, (rows.filter old).length)

/-- `cleanup_incoming_updates` on the tables, if it is enabled. -/
def JanitorSettings.cleanUp (settings : JanitorSettings) (now : Instant) (t : Tables) :
    Except PyError Tables :=
  if settings.incomingUpdatesEnabled then do
    let (rows, _) ← cleanupIncomingUpdates t.incomingUpdates
      (settings.incomingUpdatesRetentionHours * 3600) now
    return { t with incomingUpdates := rows }
  else return t

/-- `trim_messages_per_chat` on the tables. -/
def JanitorSettings.trim (settings : JanitorSettings) (t : Tables) : Except PyError Tables := do
  let limit ← bindInt settings.messagesKeepPerChat
  return { t with messages := (trimMessagesPerChat t.messages limit).1 }

/-- One pass of the loop: if the snapshots cannot be cleaned up, the messages are not
trimmed. -/
def runDbJanitor (settings : JanitorSettings) (now : Instant) (t : Tables) : Tables :=
  match settings.cleanUp now t with
  | .error _ => t
  | .ok cleaned =>
      match settings.trim cleaned with
      | .error _ => cleaned
      | .ok trimmed => trimmed

/-! ## the process -/

/-- What the process is started with. -/
structure AppSettings where
  runtime : Runtime
  webhookSecret : Option String
  /-- `app.state.context`. -/
  context : Context
  janitor : JanitorSettings
  concurrency : Int
  queueMaxSize : Int
  queueFullPolicy : String
  dedupTtl : ℚ
  maxRequests : Int

/-- A coroutine that has been started on the database. -/
inductive Start where
  /-- A worker has called `_process_job`. -/
  | job (worker : Nat) (env : Env) (ctx : Context) (job : Job)
  /-- The janitor has woken up. -/
  | janitor (settings : JanitorSettings) (now : Instant)

namespace Start

/-- What is run, on the tables themselves. -/
def program : Start → Suspending Unit
  | .job _ env ctx j => Suspending.processJob env ctx j
  | .janitor settings now => .atomic (.update (runDbJanitor settings now))

/-- What it makes of the tables if it has the process to itself. -/
def apply : Start → Tables → Tables
  | .job _ env ctx j, t => (processJob env ctx j (t.world [])).2.tables
  | .janitor settings now, t => runDbJanitor settings now t

/-- The job that is dispatched, if one is. -/
def job? : Start → Option Job
  | .job _ _ _ j => some j
  | .janitor _ _ => none

/-- The worker that awaits it, if one does. -/
def worker? : Start → Option Nat
  | .job worker _ _ _ => some worker
  | .janitor _ _ => none

end Start

/-- What is run for a start, by dispatches that share a `σ`. -/
class Programs (σ : Type) where
  program : Start → Coroutine σ Suspension PyVal PyError Unit

instance : Programs Tables := ⟨Start.program⟩

/-- The threads of the process. -/
abbrev Dispatches (σ : Type := Tables) := Threads σ Suspension PyVal PyError Unit

/-- The call of `enqueue` that a request leads to, unless it is turned away before. -/
def Request.call (d : AppSettings) (r : Request) : Option EnqueueCall :=
  match verifySignature d.runtime r.body r.signature d.webhookSecret, r.job d.runtime with
  | .ok true, .ok job => some ⟨job, r.checkedAt⟩
  | _, _ => none

/-- The state of the process. -/
structure App (σ : Type := Tables) where
  rateLimiter : RateLimiter
  pool : WorkerPool
  dispatches : Dispatches σ
  starts : List Start := []
  received : List Request := []

namespace App

/-- What can happen next. -/
inductive Label where
  /-- A request on a webhook route, up to the lock of the queue. -/
  | request (r : Request)
  /-- A waiting request gets the lock, a child task takes an item, or the queue is drained. -/
  | queue (l : RubicaBot.Label)
  /-- A step of a worker in `get`, and what a dispatch starts with if it returns a job. -/
  | worker (l : WorkerPool.Label) (env : Env) (stats : Option StatsView)
  /-- The client replies to the `n`-th thread. -/
  | replied (n : Nat) (reply : Except PyError PyVal)
  /-- The pause of the `n`-th thread is over. -/
  | woke (n : Nat)
  /-- The dispatch of worker `i` is over. -/
  | handled (i : Nat) (error : Option (String × Instant)) (now : Instant)
  | janitor (now : Instant)
  | stop
  | stopReturns

/-- The step of `get` that the label is. -/
def Label.ofWorker : Label → Option WorkerPool.Label
  | .worker l _ _ => some l
  | _ => none

/-- The step of the pool that the label is, where no thread has a part in it. -/
def Label.ofPool : Label → Option WorkerPool.Label
  | .queue l => some (.queue l)
  | .handled i error now => some (.handled i error now)
  | .stop => some .stop
  | .stopReturns => some .stopReturns
  | _ => none

/-- The thread that gets what it waits for. -/
def Label.ofThread : Label → Option Nat
  | .replied n _ => some n
  | .woke n => some n
  | _ => none

section Process

variable {σ : Type}

/-- The end of `startup`. -/
def startup (d : AppSettings) (shared : σ) : App σ where
  rateLimiter := { maxRequests := d.maxRequests }
  pool :=
    let pool := WorkerPool.init d.concurrency d.queueMaxSize d.queueFullPolicy d.dedupTtl
    { pool with loop := { pool.loop with queue := { pool.loop.queue with stats := some {} } } }
  dispatches := ⟨shared, []⟩

/-- A coroutine is started, and runs to where it first suspends. -/
def start [Programs σ] (s : App σ) (st : Start) : App σ :=
  { s with
    dispatches := s.dispatches.start (Programs.program st)
    starts := st :: s.starts }

/-- `handle_request` up to the lock of `enqueue`. -/
def handleRequest (d : AppSettings) (s : App σ) (r : Request) : Option (App σ) :=
  let s := { s with received := r :: s.received }
  match verifySignature d.runtime r.body r.signature d.webhookSecret with
  | .ok true =>
      match s.rateLimiter.allow r.now with
      | (false, limiter) => some { s with rateLimiter := limiter }
      | (true, limiter) =>
          match r.job d.runtime with
          | .error _ => some { s with rateLimiter := limiter }
          | .ok job =>
              match s.pool.step (.queue (.enqueue job r.checkedAt)) with
              | some pool => some { s with rateLimiter := limiter, pool := pool }
              | none => none
  | _ => some s

/-- A step of the queue that is neither a request nor a worker. -/
def isInternal : RubicaBot.Label → Bool
  | .lockAcquired _ => true
  | .childTakes _ _ => true
  | .drain => true
  | _ => false

/-- The result of the dispatch that worker `i` awaits. -/
def resultOf (s : App σ) (i : Nat) : Option (Except PyError Unit) :=
  match s.starts.findIdx? (fun st => st.worker? = some i) with
  | some n => s.dispatches.threads[n]?.bind Thread.result
  | none => none

/-- A worker's step of `get`; with a job it goes on to `_process_job`. -/
def work [Programs σ] (d : AppSettings) (s : App σ) (l : WorkerPool.Label) (env : Env)
    (stats : Option StatsView) : Option (App σ) :=
  match l.own, s.pool.step l with
  | some (i, ql), some pool =>
      match s.pool.loop.delivers ql with
      | some (some job, _) =>
          some (({ s with pool := pool } : App σ).start
            (.job i env { d.context with stats := stats } job))
      | _ => some { s with pool := pool }
  | _, _ => none

/-- The `n`-th thread gets what it waits for. -/
def resume (s : App σ) (n : Nat) (reply : Except PyError PyVal) : Option (App σ) :=
  match s.dispatches.step (.reply n reply) with
  | some dispatches => some { s with dispatches := dispatches }
  | none => none

/-- A step of the queue and the workers alone. -/
def poolStep (s : App σ) (l : WorkerPool.Label) : Option (App σ) :=
  match s.pool.step l with
  | some pool => some { s with pool := pool }
  | none => none

/-- One step of the process; `none` where its guard does not allow it. -/
def step [Programs σ] (d : AppSettings) (s : App σ) : Label → Option (App σ)
  | .request r => s.handleRequest d r
  | .queue l => if isInternal l then s.poolStep (.queue l) else none
  | .worker l env stats => s.work d l env stats
  | .replied n reply =>
      match s.dispatches.threads[n]?.bind Thread.waitsFor with
      | some (.api _) => s.resume n reply
      | _ => none
  | .woke n =>
      match s.dispatches.threads[n]?.bind Thread.waitsFor with
      | some .sleep => s.resume n (.ok .none)
      | _ => none
  | .handled i error now =>
      match s.resultOf i, error with
      | some (.ok _), none => s.poolStep (.handled i none now)
      | some (.error _), some raised => s.poolStep (.handled i (some raised) now)
      | _, _ => none
  | .janitor now => some (s.start (.janitor d.janitor now))
  | .stop => s.poolStep .stop
  | .stopReturns => s.poolStep .stopReturns

/-! ## what one step can be -/

/-- The branches of `step`. -/
inductive Step [Programs σ] (d : AppSettings) (s : App σ) : Label → App σ → Prop where
  | turnedAway (r : Request) (limiter : RateLimiter) :
      Step d s (.request r) { s with received := r :: s.received, rateLimiter := limiter }
  | enqueue (r : Request) (limiter : RateLimiter) (call : EnqueueCall)
      (hcall : r.call d = some call) (pool : WorkerPool)
      (hpool : s.pool.step (.queue (.enqueue call.job call.checkedAt)) = some pool) :
      Step d s (.request r)
        { s with received := r :: s.received, rateLimiter := limiter, pool := pool }
  | pool (lab : Label) (hlab : lab.ofWorker = none) (l : WorkerPool.Label) (hown : l.own = none)
      (hcall : l.call = none) (pool : WorkerPool) (hpool : s.pool.step l = some pool)
      (hl : lab.ofPool = some l)
      (hover : ∀ i error now, l = .handled i error now →
        ∃ result, s.resultOf i = some result ∧ result.isOk = error.isNone) :
      Step d s lab { s with pool := pool }
  | waits (l : WorkerPool.Label) (env : Env) (stats : Option StatsView) (i : Nat)
      (ql : RubicaBot.Label) (hown : l.own = some (i, ql)) (pool : WorkerPool)
      (hpool : s.pool.step l = some pool)
      (hdel : (s.pool.loop.delivers ql).bind Prod.fst = none) :
      Step d s (.worker l env stats) { s with pool := pool }
  | dispatch (l : WorkerPool.Label) (env : Env) (stats : Option StatsView) (i : Nat)
      (ql : RubicaBot.Label) (hown : l.own = some (i, ql)) (pool : WorkerPool)
      (hpool : s.pool.step l = some pool) (job : Job)
      (hdel : (s.pool.loop.delivers ql).bind Prod.fst = some job) :
      Step d s (.worker l env stats)
        (({ s with pool := pool } : App σ).start
          (.job i env { d.context with stats := stats } job))
  | resumed (lab : Label) (hlab : lab.ofWorker = none) (n : Nat) (reply : Except PyError PyVal)
      (t : Thread σ Suspension PyVal PyError Unit)
      (hthread : s.dispatches.threads[n]? = some t)
      (hreply : t.waitsFor = some .sleep → reply = .ok .none) (dispatches : Dispatches σ)
      (hstep : s.dispatches.step (.reply n reply) = some dispatches)
      (hn : lab.ofThread = some n) :
      Step d s lab { s with dispatches := dispatches }
  | janitor (now : Instant) : Step d s (.janitor now) (s.start (.janitor d.janitor now))

variable [Programs σ] {d : AppSettings} {s s' : App σ}

/-- A request takes one of two branches: it is turned away, or it calls `enqueue`. -/
theorem Step.of_handleRequest {r : Request} (h : s.handleRequest d r = some s') :
    Step d s (.request r) s' := by
  simp only [handleRequest] at h
  split at h
  · next hverify =>
      split at h
      · next limiter hallow =>
          cases h
          exact .turnedAway r limiter
      · next limiter hallow =>
          split at h
          · cases h
            exact .turnedAway r limiter
          · next job hjob =>
              split at h
              · next pool hpool =>
                  cases h
                  refine .enqueue r limiter ⟨job, r.checkedAt⟩ ?_ pool hpool
                  rw [Request.call, hverify, hjob]
              · cases h
  · cases h
    exact .turnedAway r s.rateLimiter

/-- A turn of the pool that starts nothing. -/
theorem Step.of_poolStep {lab : Label} (hlab : lab.ofWorker = none) {l : WorkerPool.Label}
    (hown : l.own = none) (hcall : l.call = none) (hl : lab.ofPool = some l)
    (hover : ∀ i error now, l = .handled i error now →
      ∃ result, s.resultOf i = some result ∧ result.isOk = error.isNone)
    (h : s.poolStep l = some s') : Step d s lab s' := by
  unfold poolStep at h
  split at h
  · next pool hpool =>
      cases h
      exact .pool lab hlab l hown hcall pool hpool hl hover
  · cases h

/-- A dispatch goes on with its reply. -/
theorem Step.of_resume {lab : Label} (hlab : lab.ofWorker = none) {n : Nat}
    {reply : Except PyError PyVal} {t : Thread σ Suspension PyVal PyError Unit}
    (hthread : s.dispatches.threads[n]? = some t)
    (hreply : t.waitsFor = some .sleep → reply = .ok .none) (hn : lab.ofThread = some n)
    (h : s.resume n reply = some s') : Step d s lab s' := by
  unfold resume at h
  split at h
  · next dispatches hstep =>
      cases h
      exact .resumed lab hlab n reply t hthread hreply dispatches hstep hn
  · cases h

/-- **Inversion.** -/
theorem Step.of_step {lab : Label} (h : s.step d lab = some s') : Step d s lab s' := by
  cases lab with
  | request r => exact .of_handleRequest h
  | queue l =>
      simp only [step] at h
      split at h
      · next hl =>
          refine .of_poolStep rfl rfl (by cases l <;> first | rfl | cases hl) rfl ?_ h
          intro i error now heq
          cases heq
      · cases h
  | worker l env stats =>
      simp only [step, work] at h
      split at h
      · next i ql pool hown hpool =>
          split at h
          · next job p hdel =>
              cases h
              exact .dispatch l env stats i ql hown pool hpool job (by rw [hdel]; rfl)
          · next hdel =>
              cases h
              refine .waits l env stats i ql hown pool hpool ?_
              cases hdel' : s.pool.loop.delivers ql with
              | none => rfl
              | some item =>
                  obtain ⟨item, p⟩ := item
                  cases item with
                  | none => rfl
                  | some job => exact absurd hdel' (hdel job p)
      · cases h
  | replied n reply =>
      simp only [step] at h
      split at h
      · next call hwaits =>
          obtain ⟨t, hthread, hwaits⟩ := Option.bind_eq_some_iff.mp hwaits
          refine .of_resume rfl hthread (fun hsleep => ?_) rfl h
          cases hwaits.symm.trans hsleep
      · cases h
  | woke n =>
      simp only [step] at h
      split at h
      · next hwaits =>
          obtain ⟨t, hthread, hwaits⟩ := Option.bind_eq_some_iff.mp hwaits
          exact .of_resume rfl hthread (fun _ => rfl) rfl h
      · cases h
  | handled i error now =>
      simp only [step] at h
      split at h
      · next value hresult =>
          refine .of_poolStep rfl rfl rfl rfl ?_ h
          rintro i' error' now' ⟨⟩
          exact ⟨_, hresult, rfl⟩
      · next e raised hresult =>
          refine .of_poolStep rfl rfl rfl rfl ?_ h
          rintro i' error' now' ⟨⟩
          exact ⟨_, hresult, rfl⟩
      · cases h
  | janitor now =>
      cases h
      exact .janitor now
  | stop => exact .of_poolStep rfl rfl rfl rfl (fun _ _ _ heq => by cases heq) h
  | stopReturns => exact .of_poolStep rfl rfl rfl rfl (fun _ _ _ heq => by cases heq) h

end Process

/-! ## on the tables -/

/-- The process as it starts on these tables. -/
def init (d : AppSettings) (t : Tables) : App := startup d t

/-- The tables as they are. -/
def tables (s : App) : Tables := s.dispatches.shared

end App

end RubicaBot
