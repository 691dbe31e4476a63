import RubicaBot.Router
import RubicaBot.Transition

/-!
# RubicaBot.Router.Service

The HTTP service over time: requests to the POST routes of the app (the two
webhook routes of the router and `/health/queue/drain` of `app/main.py`), and
the workers that take jobs off the queue between them.

`Handles` lists the ways a webhook request can end, each with its guard; the
properties of runs follow from it.
-/

namespace RubicaBot

open Py Transition

/-! ## how a request ends -/

namespace Webhook

/-- The branches of `handleRequest`. -/
inductive Handles (rt : Runtime) (secret : Option String) (s : Webhook) (r : Request) :
    Except PyError Answer → Webhook → Prop where
  | badHeader (e : PyError) (hverify : verifySignature rt r.body r.signature secret = .error e) :
      Handles rt secret s r (.error e) s
  | unauthorized (hverify : verifySignature rt r.body r.signature secret = .ok false) :
      Handles rt secret s r (.ok .unauthorized) s
  | limited (hverify : verifySignature rt r.body r.signature secret = .ok true)
      (limiter : RateLimiter) (hallow : s.rateLimiter.allow r.now = (false, limiter)) :
      Handles rt secret s r (.ok .tooManyRequests) { s with rateLimiter := limiter }
  | malformed (hverify : verifySignature rt r.body r.signature secret = .ok true)
      (limiter : RateLimiter) (hallow : s.rateLimiter.allow r.now = (true, limiter))
      (hjob : r.job rt = .error .jsonDecodeError) :
      Handles rt secret s r (.ok .badRequest) { s with rateLimiter := limiter }
  | unreadable (hverify : verifySignature rt r.body r.signature secret = .ok true)
      (limiter : RateLimiter) (hallow : s.rateLimiter.allow r.now = (true, limiter))
      (e : PyError) (hjob : r.job rt = .error e) :
      Handles rt secret s r (.error e) { s with rateLimiter := limiter }
  | decided (hverify : verifySignature rt r.body r.signature secret = .ok true)
      (limiter : RateLimiter) (hallow : s.rateLimiter.allow r.now = (true, limiter))
      (job : Job) (hjob : r.job rt = .ok job) (decision : QueueDecision) (queue : JobQueue)
      (hqueue : s.queue.enqueue job r.checkedAt = (decision, queue)) :
      Handles rt secret s r (.ok (.decided decision)) { rateLimiter := limiter, queue := queue }

/-- Past the rate limiter, the body decides. -/
theorem handles_allowed {rt : Runtime} {secret : Option String} {s : Webhook} {r : Request}
    {limiter : RateLimiter} (hverify : verifySignature rt r.body r.signature secret = .ok true)
    (hallow : s.rateLimiter.allow r.now = (true, limiter)) :
    Handles rt secret s r (handleRequest rt secret s r).1 (handleRequest rt secret s r).2 := by
  simp only [handleRequest, hverify, hallow]
  cases hparse : parseBody rt r.body with
  | error e =>
      have hjob : r.job rt = .error e := by rw [Request.job, hparse]; rfl
      cases e with
      | jsonDecodeError => exact .malformed hverify limiter hallow hjob
      | _ => exact .unreadable hverify limiter hallow _ hjob
  | ok payload =>
      cases hbuild : buildJob rt payload r with
      | error e =>
          have hjob : r.job rt = .error e := by
            rw [Request.job, hparse]
            exact hbuild
          simp only [hbuild]
          exact .unreadable hverify limiter hallow e hjob
      | ok job =>
          have hjob : r.job rt = .ok job := by
            rw [Request.job, hparse]
            exact hbuild
          simp only [hbuild]
          exact .decided hverify limiter hallow job hjob _ _ rfl

/-- **Inversion.** -/
theorem handles (rt : Runtime) (secret : Option String) (s : Webhook) (r : Request) :
    Handles rt secret s r (handleRequest rt secret s r).1 (handleRequest rt secret s r).2 := by
  cases hverify : verifySignature rt r.body r.signature secret with
  | error e =>
      simp only [handleRequest, hverify]
      exact .badHeader e hverify
  | ok passed =>
      cases passed with
      | false =>
          simp only [handleRequest, hverify]
          exact .unauthorized hverify
      | true =>
          cases hallow : s.rateLimiter.allow r.now with
          | mk allowed limiter =>
              cases allowed with
              | false =>
                  simp only [handleRequest, hverify, hallow]
                  exact .limited hverify limiter hallow
              | true => exact handles_allowed hverify hallow

/-- Every request is handled in one of these ways. -/
theorem exists_handles (rt : Runtime) (secret : Option String) (s : Webhook) (r : Request) :
    ∃ result s', handleRequest rt secret s r = (result, s') ∧ Handles rt secret s r result s' :=
  ⟨_, _, rfl, handles rt secret s r⟩

/-- A request whose signature, rate and body pass is decided by the queue. -/
theorem Handles.decided_of_pass {rt : Runtime} {secret : Option String} {s s' : Webhook}
    {r : Request} {result : Except PyError Answer} {job : Job} (h : Handles rt secret s r result s')
    (hverify : verifySignature rt r.body r.signature secret = .ok true)
    (hallow : (s.rateLimiter.allow r.now).1 = true) (hjob : r.job rt = .ok job) :
    result = .ok (.decided (s.queue.enqueue job r.checkedAt).1) ∧
      s'.queue = (s.queue.enqueue job r.checkedAt).2 := by
  cases h with
  | badHeader e hverify' => rw [hverify] at hverify'; cases hverify'
  | unauthorized hverify' => rw [hverify] at hverify'; cases hverify'
  | limited _ limiter hallow' => rw [hallow'] at hallow; cases hallow
  | malformed _ limiter _ hjob' => rw [hjob] at hjob'; cases hjob'
  | unreadable _ limiter _ e hjob' => rw [hjob] at hjob'; cases hjob'
  | decided _ limiter _ job' hjob' decision queue hqueue =>
      rw [hjob] at hjob'
      cases hjob'
      rw [hqueue]
      exact ⟨rfl, rfl⟩

end Webhook

/-! ## runs -/

/-- The POST routes. -/
inductive Route where
  | receiveUpdate
  | receiveInlineMessage
  | drainQueue
  deriving DecidableEq

/-- A webhook request with its outcome. -/
structure Exchange where
  request : Request
  result : Except PyError Answer
  deriving DecidableEq

/-- The service, with the exchanges on its webhook routes so far, newest first. -/
structure Service where
  webhook : Webhook
  history : List Exchange := []

namespace Service

/-- What the service does next. -/
inductive Label where
  | post (route : Route) (r : Request)
  /-- A worker takes the next job. -/
  | get

/-- The service as it is started. -/
def init (maxSize : Int) (fullPolicy : String) (ttl : ℚ) (maxRequests : Int) : Service where
  webhook :=
    { rateLimiter := { maxRequests := maxRequests }
      queue :=
        { maxSize := maxSize, deduplicator := { ttlSeconds := ttl }, fullPolicy := fullPolicy } }

/-- `handle_request`, with the exchange recorded. -/
def receive (rt : Runtime) (secret : Option String) (s : Service) (r : Request) : Service :=
  let (result, webhook) := s.webhook.handleRequest rt secret r
  { webhook := webhook, history := ⟨r, result⟩ :: s.history }

/-- `drain_queue` reads nothing of the request. -/
def drainQueue (s : Service) : Service :=
  { s with webhook := { s.webhook with queue := s.webhook.queue.drain.2 } }

/-- One step of the service; a worker takes a job only if there is one. -/
def step (rt : Runtime) (secret : Option String) (s : Service) : Label → Option Service
  | .post .receiveUpdate r => some (s.receive rt secret r)
  | .post .receiveInlineMessage r => some (s.receive rt secret r)
  | .post .drainQueue _ => some s.drainQueue
  | .get =>
      match s.webhook.queue.getReady with
      | some (_, _, queue) => some { s with webhook := { s.webhook with queue := queue } }
      | none => none

/-- The request of a label on a webhook route. -/
def Label.received : Label → Option Request
  | .post .receiveUpdate r => some r
  | .post .receiveInlineMessage r => some r
  | _ => none

/-- The routes that receive a request do the same with it. -/
theorem step_of_received {rt : Runtime} {secret : Option String} {s s' : Service} {l : Label}
    {r : Request} (hl : l.received = some r) (h : s.step rt secret l = some s') :
    s' = s.receive rt secret r := by
  cases l with
  | get => cases hl
  | post route r' =>
      cases route <;> cases hl <;> exact (Option.some.inj h).symm

/-- Any other step empties the queue or takes a job off it. -/
theorem step_of_not_received {rt : Runtime} {secret : Option String} {s s' : Service} {l : Label}
    (hl : l.received = none) (h : s.step rt secret l = some s') :
    s'.history = s.history ∧ s'.webhook.rateLimiter = s.webhook.rateLimiter ∧
      s'.webhook.queue.frame = s.webhook.queue.frame ∧
      s'.webhook.queue.waiting ⊆ s.webhook.queue.waiting := by
  cases l with
  | get =>
      simp only [step] at h
      split at h
      · next item p queue hready =>
          cases h
          obtain ⟨m, htake, rfl, -⟩ := JobQueue.getReady_eq_some hready
          refine ⟨rfl, rfl, (JobQueue.frame_decremented m).trans (JobQueue.frame_takeFrom htake),
            fun item hitem => ?_⟩
          exact (JobQueue.waiting_takeFrom htake).mem_iff.mpr (List.mem_cons_of_mem _ hitem)
      · contradiction
  | post route r =>
      cases route with
      | receiveUpdate => cases hl
      | receiveInlineMessage => cases hl
      | drainQueue =>
          cases h
          refine ⟨rfl, rfl, rfl, fun item hitem => ?_⟩
          rw [show s.drainQueue.webhook.queue.waiting = [] from JobQueue.waiting_drain _] at hitem
          exact absurd hitem List.not_mem_nil

end Service

end RubicaBot
