import RubicaBot.Router.Service

/-!
# RubicaBot.Router.Retry

Is a refused webhook safe to send again?

The deduplicator is asked before the queue is known to have room, and asking it
records the key.  A request dropped for lack of room leaves its key behind, and
its redelivery is acknowledged as a duplicate of a job that never was.

`RetrySafe` is the law for one request in a run, `Room` the condition that a
fresh key meets a queue that can take its job.  With it, the dictionary holds
only keys of jobs that were enqueued (`KeysEnqueued`).
-/

namespace RubicaBot

open Py Transition

/-- The queues are the same, and the dictionary up to keys expired at `now`. -/
structure Webhook.Untouched (s s' : Webhook) (now : Instant) : Prop where
  keys : ∀ k, s'.queue.deduplicator.cache.lookup k = s.queue.deduplicator.cache.lookup k ∨
    (s'.queue.deduplicator.cache.lookup k = none ∧ k ∈ s.queue.deduplicator.expired now)
  queues : ∀ p, s'.queue.queue p = s.queue.queue p

namespace Exchange

/-- Answered with a status other than 200. -/
def Refused (x : Exchange) : Prop := ∃ a, x.result = .ok a ∧ a.status ≠ 200

/-- A job with this key was enqueued. -/
def Enqueued (rt : Runtime) (x : Exchange) (key : String) : Prop :=
  x.result = .ok (.decided .enqueued) ∧ ∃ job, x.request.job rt = .ok job ∧ job.effectiveKey = key

end Exchange

namespace Service

variable (rt : Runtime) (secret : Option String)

/-- The signature, rate and capacity checks would let the request pass. -/
structure ChecksPass (s : Webhook) (r : Request) : Prop where
  signature : verifySignature rt r.body r.signature secret = .ok true
  rate : (s.rateLimiter.allow r.now).1 = true
  capacity : s.queue.isFull = true → s.queue.fullPolicy = "drop_oldest"

/-- What a sender may rely on: a refusal has touched nothing, and an update that
was refused before is enqueued when it is sent again at a time at which the
checks pass and no request has enqueued its key. -/
def RetrySafe (s : Service) (l : Label) : Prop :=
  ∀ r ∈ l.received,
    (∀ a, (s.webhook.handleRequest rt secret r).1 = .ok a → a.status ≠ 200 →
      s.webhook.Untouched (s.webhook.handleRequest rt secret r).2 r.checkedAt) ∧
    ((∃ x ∈ s.history, x.Refused ∧ x.request.body = r.body) → ChecksPass rt secret s.webhook r →
      ∀ job, r.job rt = .ok job → (∀ x ∈ s.history, ¬ x.Enqueued rt job.effectiveKey) →
        (s.webhook.handleRequest rt secret r).1 = .ok (.decided .enqueued))

/-- A request that reaches the queue with a fresh key finds room there, or makes
some by `drop_oldest`. -/
def Room (s : Service) (l : Label) : Prop :=
  ∀ r ∈ l.received, verifySignature rt r.body r.signature secret = .ok true →
    (s.webhook.rateLimiter.allow r.now).1 = true → ∀ job, r.job rt = .ok job →
    (s.webhook.queue.deduplicator.seen (some job.effectiveKey) r.checkedAt).1 = false →
    s.webhook.queue.isFull = true → s.webhook.queue.fullPolicy = "drop_oldest"

variable {rt secret}

/-! ## the dictionary -/

/-- Every key in the dictionary afterwards was there before or is the one asked
for. -/
theorem mem_seen {d : Deduplicator} {key k : String} {now : Instant}
    (h : k ∈ (d.seen (some key) now).2.cache) :
    k ∈ d.cache ∨ ((d.seen (some key) now).1 = false ∧ k = key) := by
  have hpurge : k ∈ (d.purge now).cache → k ∈ d.cache := by
    rw [← AList.lookup_isSome, ← AList.lookup_isSome, Deduplicator.lookup_purge]
    cases d.cache.lookup k <;> simp
  cases hseen : (d.seen (some key) now).1 with
  | true =>
      rw [Deduplicator.seen_of_true hseen] at h
      exact .inl (hpurge h)
  | false =>
      rw [Deduplicator.seen_of_false hseen, AList.mem_insert] at h
      rcases h with rfl | h
      · exact .inr ⟨rfl, rfl⟩
      · exact .inl (hpurge h)

/-- A key that is not in the dictionary is fresh. -/
theorem seen_of_not_mem {d : Deduplicator} {key : String} (h : key ∉ d.cache) (now : Instant) :
    (d.seen (some key) now).1 = false := by
  rw [Deduplicator.seen_some_fst, Deduplicator.lookup_purge, AList.lookup_eq_none.mpr h]
  rfl

/-! ## with room, refusals are safe -/

/-- Every key in the dictionary was enqueued by some request. -/
def KeysEnqueued (rt : Runtime) (s : Service) : Prop :=
  ∀ k ∈ s.webhook.queue.deduplicator.cache, ∃ x ∈ s.history, x.Enqueued rt k

/-- **Step lemma.** -/
theorem step_keysEnqueued {s s' : Service} {l : Label} (hk : s.KeysEnqueued rt)
    (hroom : Room rt secret s l) (h : s.step rt secret l = some s') : s'.KeysEnqueued rt := by
  cases hl : l.received with
  | none =>
      obtain ⟨hhistory, -, hframe, -⟩ := step_of_not_received hl h
      intro k hmem
      rw [JobQueue.deduplicator_eq_of_frame hframe] at hmem
      rw [hhistory]
      exact hk k hmem
  | some r =>
      obtain ⟨result, webhook, heq, hhandles⟩ := s.webhook.exists_handles rt secret r
      rw [step_of_received hl h, receive, heq]
      have hold {k : String} (hmem : k ∈ s.webhook.queue.deduplicator.cache) :
          ∃ x ∈ (⟨r, result⟩ :: s.history), x.Enqueued rt k := by
        obtain ⟨x, hx, henq⟩ := hk k hmem
        exact ⟨x, List.mem_cons_of_mem _ hx, henq⟩
      intro k hmem
      cases hhandles with
      | decided hverify limiter hallow job hjob decision queue hqueue =>
          obtain ⟨hdedup, hcases⟩ := s.webhook.queue.enqueue_cases job r.checkedAt
          rw [hqueue] at hdedup hcases
          have hseen : k ∈ (s.webhook.queue.deduplicator.seen (some job.effectiveKey)
              r.checkedAt).2.cache := by
            rw [← hdedup]
            exact hmem
          rcases mem_seen hseen with hmem | ⟨hfresh, rfl⟩
          · exact hold hmem
          · rcases hcases with ⟨-, hdup, -⟩ | ⟨rfl, -, -⟩ | ⟨-, -, hfull, hpolicy, -⟩
            · rw [hdup] at hfresh
              cases hfresh
            · exact ⟨_, List.mem_cons_self, rfl, job, hjob, rfl⟩
            · exact absurd (hroom r hl hverify (congrArg Prod.fst hallow) job hjob hfresh hfull)
                hpolicy
      | _ => exact hold hmem

/-- **Safety of one request.** -/
theorem retrySafe_of_room {s : Service} {l : Label} (hk : s.KeysEnqueued rt)
    (hroom : Room rt secret s l) : RetrySafe rt secret s l := by
  intro r hl
  obtain ⟨result, webhook, heq, hhandles⟩ := s.webhook.exists_handles rt secret r
  rw [heq]
  constructor
  · intro a ha hstatus
    cases ha
    cases hhandles with
    | decided hverify limiter hallow job hjob decision queue hqueue =>
        obtain ⟨hdedup, hcases⟩ := s.webhook.queue.enqueue_cases job r.checkedAt
        rw [hqueue] at hdedup hcases
        rcases hcases with ⟨rfl, -⟩ | ⟨rfl, -⟩ | ⟨-, hfresh, hfull, hpolicy, -⟩
        · exact absurd rfl hstatus
        · exact absurd rfl hstatus
        · exact absurd (hroom r hl hverify (congrArg Prod.fst hallow) job hjob hfresh hfull)
            hpolicy
    | _ => exact ⟨fun k => .inl rfl, fun p => rfl⟩
  · rintro - ⟨hsig, hrate, hcap⟩ job hjob hnew
    -- nobody has enqueued the key, so it is not in the dictionary
    have hnotMem : job.effectiveKey ∉ s.webhook.queue.deduplicator.cache := by
      intro hmem
      obtain ⟨x, hx, henq⟩ := hk _ hmem
      exact hnew x hx henq
    have hfresh := seen_of_not_mem hnotMem r.checkedAt
    obtain ⟨hresult, -⟩ := hhandles.decided_of_pass hsig hrate hjob
    obtain ⟨-, hcases⟩ := s.webhook.queue.enqueue_cases job r.checkedAt
    rcases hcases with ⟨-, hdup, -⟩ | ⟨hdecision, -⟩ | ⟨-, -, hfull, hpolicy, -⟩
    · rw [hdup] at hfresh
      cases hfresh
    · rw [hresult, hdecision]
    · exact absurd (hcap hfull) hpolicy

/-! ## without room, they are not -/

/-- A dropped job leaves its key in the dictionary, where it was not. -/
theorem room_of_retrySafe {s : Service} {l : Label}
    (httl : 0 ≤ s.webhook.queue.deduplicator.ttlSeconds) (hsafe : RetrySafe rt secret s l) :
    Room rt secret s l := by
  intro r hl hverify hrate job hjob hfresh hfull
  by_contra hpolicy
  obtain ⟨result, webhook, heq, hhandles⟩ := s.webhook.exists_handles rt secret r
  have hkeep := (hsafe r hl).1
  rw [heq] at hkeep
  obtain ⟨hresult, hqueue⟩ := hhandles.decided_of_pass hverify hrate hjob
  obtain ⟨hdedup, hcases⟩ := s.webhook.queue.enqueue_cases job r.checkedAt
  rw [← hqueue] at hdedup
  rcases hcases with ⟨-, hdup, -⟩ | ⟨-, -, hroom⟩ | ⟨hdropped, -⟩
  · rw [hdup] at hfresh
    cases hfresh
  · exact hpolicy (hroom hfull)
  · rw [hdropped] at hresult
    have hkeys := (hkeep _ hresult (by decide)).keys job.effectiveKey
    rw [hdedup, Deduplicator.seen_of_false hfresh, AList.lookup_insert] at hkeys
    rcases hkeys with hbefore | ⟨hnone, -⟩
    · -- stamped at this very reading it would not have been fresh
      rw [Deduplicator.seen_some_fst, Deduplicator.lookup_purge, ← hbefore] at hfresh
      simp [httl] at hfresh
    · cases hnone

/-- The lifetime of keys never changes. -/
theorem step_ttlSeconds {s s' : Service} {l : Label} (h : s.step rt secret l = some s') :
    s'.webhook.queue.deduplicator.ttlSeconds = s.webhook.queue.deduplicator.ttlSeconds := by
  cases hl : l.received with
  | none =>
      obtain ⟨-, -, hframe, -⟩ := step_of_not_received hl h
      rw [JobQueue.deduplicator_eq_of_frame hframe]
  | some r =>
      obtain ⟨result, webhook, heq, hhandles⟩ := s.webhook.exists_handles rt secret r
      rw [step_of_received hl h, receive, heq]
      cases hhandles with
      | decided hverify limiter hallow job hjob decision queue hqueue =>
          obtain ⟨hdedup, -⟩ := s.webhook.queue.enqueue_cases job r.checkedAt
          rw [hqueue] at hdedup
          rw [show queue.deduplicator = _ from hdedup, Deduplicator.seen_ttlSeconds]
      | _ => rfl

/-- **Retry safety of runs.**  Under any secret and any parameters, in a run in
which fresh keys always find room, every request meets the law; and, with a
lifetime that is not negative, only in such runs. -/
theorem along_retrySafe_iff_room (rt : Runtime) (secret : Option String) (maxSize : Int)
    (fullPolicy : String) (ttl : ℚ) (maxRequests : Int) (ls : List Label) :
    (Along (step rt secret) (Room rt secret) (init maxSize fullPolicy ttl maxRequests) ls →
      Along (step rt secret) (RetrySafe rt secret) (init maxSize fullPolicy ttl maxRequests) ls) ∧
    (0 ≤ ttl →
      Along (step rt secret) (RetrySafe rt secret) (init maxSize fullPolicy ttl maxRequests) ls →
      Along (step rt secret) (Room rt secret) (init maxSize fullPolicy ttl maxRequests) ls) := by
  constructor
  · refine along_of_invariant (I := KeysEnqueued rt) (fun s l s' hk hroom h => ?_)
      (fun s l hk hroom => retrySafe_of_room hk hroom) ?_
    · exact step_keysEnqueued hk hroom h
    · intro k hk
      exact absurd hk (AList.notMem_empty k)
  · intro httl
    refine along_of_invariant (I := fun s => 0 ≤ s.webhook.queue.deduplicator.ttlSeconds)
      (fun s l s' ht _ h => ?_) (fun s l ht hsafe => room_of_retrySafe ht hsafe) httl
    rw [step_ttlSeconds h]
    exact ht

/-! ### a dropped update is acknowledged when it is sent again -/

/-- The interpreter on two small payloads. -/
def twoUpdates : Runtime where
  unicode := Unicode.ascii
  jsonLoads s :=
    if s = "\x7b\"update_id\": 1\x7d" then .ok (.dict [("update_id", .int 1)])
    else if s = "\x7b\"update_id\": 2\x7d" then .ok (.dict [("update_id", .int 2)])
    else .error .jsonDecodeError
  hmacSha256 _ _ := ""

/-- An unsigned request with the update of this id. -/
def unsigned (id : Nat) (now : Instant) : Request where
  body := s!"\x7b\"update_id\": {id}\x7d".toUTF8
  signature := none
  now := now
  checkedAt := now
  receivedAt := now
  uuid := "uuid"

/-- The first update fills a queue of size one, the second is dropped, a worker
makes room, the second is sent again. -/
def droppedRun : List Label :=
  [.post .receiveUpdate (unsigned 1 0), .post .receiveUpdate (unsigned 2 1), .get,
    .post .receiveUpdate (unsigned 2 2)]

theorem droppedRun_isSome :
    (run (step twoUpdates none) (init 1 "reject" 60 120) (droppedRun.take 3)).isSome := by
  decide +kernel

/-- After the first three steps: one update enqueued, one dropped. -/
theorem droppedRun_history :
    ((run (step twoUpdates none) (init 1 "reject" 60 120) (droppedRun.take 3)).get
      droppedRun_isSome).history =
      [⟨unsigned 2 1, .ok (.decided .dropped)⟩, ⟨unsigned 1 0, .ok (.decided .enqueued)⟩] := by
  decide +kernel

theorem droppedRun_not_retrySafe :
    ¬ Along (step twoUpdates none) (RetrySafe twoUpdates none) (init 1 "reject" 60 120)
      droppedRun := by
  intro hsafe
  have hrun := (Option.some_get droppedRun_isSome).symm
  have hsplit : Along (step twoUpdates none) (RetrySafe twoUpdates none)
      (init 1 "reject" 60 120) (droppedRun.take 3 ++ droppedRun.drop 3) := hsafe
  obtain ⟨-, hlast, -⟩ := (along_append (RetrySafe twoUpdates none) hrun).mp hsplit
  have hkey : ((unsigned 2 2).job twoUpdates).map Job.effectiveKey = .ok "2" := by
    decide +kernel
  have hother : ((unsigned 1 0).job twoUpdates).map Job.effectiveKey = .ok "1" := by
    decide +kernel
  cases hjob : (unsigned 2 2).job twoUpdates with
  | error e => rw [hjob] at hkey; cases hkey
  | ok job =>
      rw [hjob] at hkey
      have hdropped : (⟨unsigned 2 1, .ok (.decided .dropped)⟩ : Exchange) ∈
          ((run (step twoUpdates none) (init 1 "reject" 60 120) (droppedRun.take 3)).get
            droppedRun_isSome).history := by
        rw [droppedRun_history]
        exact List.mem_cons_self
      -- the key is not that of the first update, the only one enqueued
      have hnew : ∀ x ∈ ((run (step twoUpdates none) (init 1 "reject" 60 120)
          (droppedRun.take 3)).get droppedRun_isSome).history,
          ¬ x.Enqueued twoUpdates job.effectiveKey := by
        rw [droppedRun_history]
        rintro x hx ⟨hresult, job', hjob', hsame⟩
        rcases List.mem_cons.mp hx with rfl | hx
        · cases hresult
        · rw [List.mem_singleton.mp hx] at hjob'
          rw [hjob', Except.map, hsame] at hother
          rw [Except.map, hother] at hkey
          revert hkey
          decide
      have hagain := (hlast (unsigned 2 2) rfl).2
        ⟨_, hdropped, ⟨.decided .dropped, rfl, by decide⟩, rfl⟩
        ⟨by decide +kernel, by decide +kernel, by decide +kernel⟩ job hjob hnew
      revert hagain
      decide +kernel

/-! ### a queue with room -/

/-- A queue that is not full has room. -/
theorem room_of_not_full {s : Service} {l : Label} (h : s.webhook.queue.isFull = false) :
    Room rt secret s l := by
  intro r _ _ _ job _ _ hfull
  rw [h] at hfull
  cases hfull

/-- In a queue of size ten the same requests are safe. -/
theorem roomyRun_retrySafe :
    Along (step twoUpdates none) (RetrySafe twoUpdates none) (init 10 "reject" 60 120)
      droppedRun := by
  refine (along_retrySafe_iff_room twoUpdates none 10 "reject" 60 120 droppedRun).1 ?_
  have hroomy : Along (step twoUpdates none) (fun s _ => s.webhook.queue.isFull = false)
      (init 10 "reject" 60 120) droppedRun := by decide +kernel
  exact hroomy.mono fun _ _ => room_of_not_full

end Service

end RubicaBot
