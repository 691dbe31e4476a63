import RubicaBot.Router.Service

/-!
# RubicaBot.Router.Authenticity

What a configured `webhook_secret` guarantees.

`verify_signature` accepts a request without a header, so the secret does not
keep unsigned requests out; what it does keep out is a header that is there and
wrong (`Forged`).  Such a request is refused, or raises when its header is not
ASCII, before the rate limiter and the queue see it.  The drain route asks for
no signature: it empties the queue for anyone, but it admits nothing.
-/

namespace RubicaBot

open Py Transition

/-- The header the secret asks for. -/
def Request.expected (rt : Runtime) (secret : String) (r : Request) : String :=
  rt.hmacSha256 secret.toUTF8 r.body

/-- The header is the hex HMAC-SHA256 of the body under the secret. -/
def Request.Signed (rt : Runtime) (secret : String) (r : Request) : Prop :=
  r.signature = some (r.expected rt secret)

/-- There is no header, or an empty one. -/
def Request.Unsigned (r : Request) : Prop := r.signature = none ∨ r.signature = some ""

/-- There is a header, and it is wrong. -/
def Request.Forged (rt : Runtime) (secret : String) (r : Request) : Prop :=
  ¬ r.Signed rt secret ∧ ¬ r.Unsigned

/-- **The verifier.**  Under a secret that is not empty, it passes no forged
request. -/
theorem not_forged_of_verifySignature {rt : Runtime} {secret : String} {r : Request}
    (hsecret : secret ≠ "")
    (h : verifySignature rt r.body r.signature (some secret) = .ok true) :
    ¬ r.Forged rt secret := by
  rintro ⟨hsigned, hunsigned⟩
  cases hsig : r.signature with
  | none => exact hunsigned (.inl hsig)
  | some signature =>
      by_cases hempty : signature = ""
      · exact hunsigned (.inr (by rw [hsig, hempty]))
      · simp only [hsig, verifySignature, hempty, hsecret, or_self, if_false, compareDigest] at h
        split at h
        · simp only [Except.ok.injEq, beq_iff_eq] at h
          exact hsigned (by rw [Request.Signed, hsig, h, Request.expected])
        · cases h

namespace Service

variable {rt : Runtime} {secret : String}

/-- A forged request leaves everything as it was. -/
theorem receive_of_forged (hsecret : secret ≠ "") {s : Service} {r : Request}
    (hforged : r.Forged rt secret) : (s.receive rt (some secret) r).webhook = s.webhook := by
  obtain ⟨result, webhook, heq, hhandles⟩ := s.webhook.exists_handles rt (some secret) r
  rw [receive, heq]
  have hrejected : verifySignature rt r.body r.signature (some secret) ≠ .ok true :=
    fun h => not_forged_of_verifySignature hsecret h hforged
  cases hhandles with
  | badHeader e hverify => rfl
  | unauthorized hverify => rfl
  | limited hverify => exact absurd hverify hrejected
  | malformed hverify => exact absurd hverify hrejected
  | unreadable hverify => exact absurd hverify hrejected
  | decided hverify => exact absurd hverify hrejected

/-- Every accepted job came in a request that was not forged, and every job that
waits was accepted. -/
structure Genuine (rt : Runtime) (secret : String) (s : Service) : Prop where
  accepted : ∀ x ∈ s.history, x.result = .ok (.decided .enqueued) →
    ¬ x.request.Forged rt secret
  waiting : ∀ item ∈ s.webhook.queue.waiting, ∃ x ∈ s.history,
    x.result = .ok (.decided .enqueued) ∧ ∃ job, item = some job ∧ x.request.job rt = .ok job

/-- **Step lemma.** -/
theorem step_genuine (hsecret : secret ≠ "") {s s' : Service} {l : Label}
    (hg : s.Genuine rt secret) (h : s.step rt (some secret) l = some s') :
    s'.Genuine rt secret := by
  cases hl : l.received with
  | none =>
      obtain ⟨hhistory, -, -, hwaiting⟩ := step_of_not_received hl h
      refine ⟨?_, fun item hitem => ?_⟩
      · rw [hhistory]
        exact hg.accepted
      · rw [hhistory]
        exact hg.waiting item (hwaiting hitem)
  | some r =>
      obtain ⟨result, webhook, heq, hhandles⟩ := s.webhook.exists_handles rt (some secret) r
      rw [step_of_received hl h, receive, heq]
      have hold : ∀ item ∈ s.webhook.queue.waiting,
          ∃ x ∈ (⟨r, result⟩ :: s.history : List Exchange),
          x.result = .ok (.decided .enqueued) ∧ ∃ job, item = some job ∧
            x.request.job rt = .ok job := by
        intro item hitem
        obtain ⟨x, hx, hrest⟩ := hg.waiting item hitem
        exact ⟨x, List.mem_cons_of_mem _ hx, hrest⟩
      cases hhandles with
      | decided hverify limiter hallow job hjob decision queue hqueue =>
          refine ⟨fun x hx hresult => ?_, fun item hitem => ?_⟩
          · rcases List.mem_cons.mp hx with rfl | hx
            · exact not_forged_of_verifySignature hsecret hverify
            · exact hg.accepted x hx hresult
          · have hmem : item ∈ (s.webhook.queue.enqueue job r.checkedAt).2.waiting := by
              rw [hqueue]
              exact hitem
            rcases JobQueue.mem_waiting_enqueue hmem with hmem | ⟨rfl, hdecision⟩
            · exact hold item hmem
            · rw [hqueue] at hdecision
              exact ⟨_, List.mem_cons_self, by rw [← hdecision], job, rfl, hjob⟩
      | _ =>
          refine ⟨fun x hx hresult => ?_, hold⟩
          rcases List.mem_cons.mp hx with rfl | hx
          · cases hresult
          · exact hg.accepted x hx hresult

/-- A new service has received nothing. -/
theorem init_genuine (maxSize : Int) (fullPolicy : String) (ttl : ℚ) (maxRequests : Int) :
    (init maxSize fullPolicy ttl maxRequests).Genuine rt secret :=
  ⟨fun _ h => absurd h List.not_mem_nil, fun _ h => absurd h List.not_mem_nil⟩

/-- What a request without the right header leaves alone: a forged one
everything, one to the drain route all but the queue, where it adds nothing. -/
def Harmless (rt : Runtime) (secret : String) (s : Service) : Label → Prop
  | .post .drainQueue _ =>
      s.drainQueue.webhook.rateLimiter = s.webhook.rateLimiter ∧
        s.drainQueue.webhook.queue.deduplicator = s.webhook.queue.deduplicator ∧
        s.drainQueue.webhook.queue.waiting = []
  | .post _ r => r.Forged rt secret → (s.receive rt (some secret) r).webhook = s.webhook
  | .get => True

/-- **Authenticity.**  Under a secret that is not empty, in every run of requests
to the POST routes: each accepted job came in a webhook request with the right
header or none, each job in the queue was so accepted, and every request with a
wrong header, or to the drain route, is harmless. -/
theorem genuine_of_run (hsecret : secret ≠ "") {maxSize : Int} {fullPolicy : String} {ttl : ℚ}
    {maxRequests : Int} {ls : List Label} {s : Service}
    (h : run (step rt (some secret)) (init maxSize fullPolicy ttl maxRequests) ls = some s) :
    s.Genuine rt secret ∧
      Along (step rt (some secret)) (Harmless rt secret)
        (init maxSize fullPolicy ttl maxRequests) ls := by
  constructor
  · exact run_invariant_of_step (fun _ _ _ hg hstep => step_genuine hsecret hg hstep)
      (init_genuine maxSize fullPolicy ttl maxRequests) h
  · refine along_of_forall (fun s l => ?_) _ ls
    cases l with
    | get => trivial
    | post route r =>
        cases route with
        | receiveUpdate => exact receive_of_forged hsecret
        | receiveInlineMessage => exact receive_of_forged hsecret
        | drainQueue => exact ⟨rfl, rfl, JobQueue.waiting_drain _⟩

/-! ### one signed update, one without a header, one drain -/

/-- The interpreter on one payload and its signature under `secret`. -/
def signedUpdate : Runtime where
  unicode := Unicode.ascii
  jsonLoads s :=
    if s = "\x7b\"update_id\": 1\x7d" then .ok (.dict [("update_id", .int 1)])
    else .error .jsonDecodeError
  hmacSha256 key body :=
    if key = "secret".toUTF8 ∧ body = "\x7b\"update_id\": 1\x7d".toUTF8 then
      "6d283dd6f81360789ea18e08f7c38825f2f5967e841dcb51c97da27e2eca4a3f"
    else ""

/-- The payload with some header. -/
def oneUpdate (signature : Option String) : Request where
  body := "\x7b\"update_id\": 1\x7d".toUTF8
  signature := signature
  now := 0
  checkedAt := 0
  receivedAt := 0
  uuid := "uuid"

/-- The update with its signature. -/
def signedRun : List Label :=
  [.post .receiveUpdate
    (oneUpdate (some "6d283dd6f81360789ea18e08f7c38825f2f5967e841dcb51c97da27e2eca4a3f"))]

/-- The update without a header. -/
def unsignedRun : List Label := [.post .receiveUpdate (oneUpdate none)]

theorem signedRun_isSome :
    (run (step signedUpdate (some "secret")) (init 10 "reject" 60 120) signedRun).isSome := by
  decide +kernel

theorem unsignedRun_isSome :
    (run (step signedUpdate (some "secret")) (init 10 "reject" 60 120) unsignedRun).isSome := by
  decide +kernel

/-- A request without a header empties the queue of a signed job by the drain
route, and gets a job of its own accepted by a webhook route. -/
theorem unsigned_drains_and_enters :
    (∃ s s', run (step signedUpdate (some "secret")) (init 10 "reject" 60 120) signedRun = some s ∧
      s.step signedUpdate (some "secret") (.post .drainQueue (oneUpdate none)) = some s' ∧
      ¬ (oneUpdate none).Signed signedUpdate "secret" ∧
      s'.webhook.queue.waiting.length ≠ s.webhook.queue.waiting.length) ∧
    ∃ s, run (step signedUpdate (some "secret")) (init 10 "reject" 60 120) unsignedRun = some s ∧
      ∃ x ∈ s.history, x.result = .ok (.decided .enqueued) ∧
        ¬ x.request.Signed signedUpdate "secret" := by
  refine ⟨⟨_, _, (Option.some_get signedRun_isSome).symm, rfl, nofun, by decide +kernel⟩,
    _, (Option.some_get unsignedRun_isSome).symm, ⟨oneUpdate none, .ok (.decided .enqueued)⟩,
    ?_, rfl, nofun⟩
  have hhistory : ((run (step signedUpdate (some "secret")) (init 10 "reject" 60 120)
      unsignedRun).get unsignedRun_isSome).history =
      [⟨oneUpdate none, .ok (.decided .enqueued)⟩] := by decide +kernel
  rw [hhistory]
  exact List.mem_cons_self

theorem signedRun_genuine :
    ∃ s, run (step signedUpdate (some "secret")) (init 10 "reject" 60 120) signedRun = some s ∧
      s.Genuine signedUpdate "secret" ∧ s.webhook.queue.waiting.length = 1 := by
  have hrun := (Option.some_get signedRun_isSome).symm
  exact ⟨_, hrun, (genuine_of_run (by decide) hrun).1, by decide +kernel⟩

end Service

end RubicaBot
