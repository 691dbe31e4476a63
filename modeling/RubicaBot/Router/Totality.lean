import RubicaBot.Router.Reading
import RubicaBot.Router.Service

/-!
# RubicaBot.Router.Totality

Does the webhook answer every request?

The handler catches `JSONDecodeError` and nothing else, and anyone can post to
it.  `Total` is what a sender sees when nothing raises: one of five statuses,
and 200 only for an update that was enqueued or recognised.  `Legible` is the
exact condition on the request: a signature header that is compared at all is
ASCII, and a body that gets past the signature and the rate limiter is UTF-8 and
either no JSON or a readable payload.
-/

namespace RubicaBot

open Py Transition

/-- The signature is not compared, or is ASCII. -/
def Request.Comparable (secret : Option String) (r : Request) : Prop :=
  ∀ signature ∈ r.signature, ∀ key ∈ secret, signature ≠ "" → key ≠ "" →
    signature.toList.all (·.toNat < 128) = true

/-- The body is UTF-8 and either no JSON or a payload none of whose readings
raises. -/
def Request.Legible (rt : Runtime) (r : Request) : Prop :=
  ∃ s, String.fromUTF8? r.body = some s ∧
    (rt.jsonLoads s = .error .jsonDecodeError ∨ ∃ p, rt.jsonLoads s = .ok p ∧ Readable p)

variable {rt : Runtime} {secret : Option String}

/-- `compare_digest` raises on a header that is not ASCII, as a hex digest is. -/
theorem verifySignature_isOk_iff
    (hhex : ∀ key body, (rt.hmacSha256 key body).toList.all (·.toNat < 128) = true) (r : Request) :
    (∃ passed, verifySignature rt r.body r.signature secret = .ok passed) ↔
      r.Comparable secret := by
  unfold Request.Comparable
  cases hsig : r.signature with
  | none => simp [verifySignature]
  | some signature =>
      cases secret with
      | none => simp [verifySignature]
      | some key =>
          simp only [verifySignature, Option.mem_def, Option.some.injEq, forall_eq']
          by_cases hempty : signature = "" ∨ key = ""
          · rw [if_pos hempty]
            constructor
            · intro _ hne hne'
              rcases hempty with h | h
              · exact absurd h hne
              · exact absurd h hne'
            · intro _
              exact ⟨true, rfl⟩
          · rw [if_neg hempty, compareDigest, hhex, Bool.and_true]
            obtain ⟨hne, hne'⟩ := not_or.mp hempty
            cases hascii : signature.toList.all (·.toNat < 128) with
            | true => simp
            | false => simp [hne, hne']

/-- A body is answered exactly when it is legible. -/
theorem job_answered_iff (r : Request) :
    ((r.job rt = .error .jsonDecodeError ∧ parseBody rt r.body = .error .jsonDecodeError) ∨
        ∃ job, r.job rt = .ok job) ↔ r.Legible rt := by
  unfold Request.Legible Request.job parseBody
  cases hutf : String.fromUTF8? r.body with
  | none => simp [bind, Except.bind]
  | some s =>
      simp only [Option.some.injEq, exists_eq_left']
      cases hjson : rt.jsonLoads s with
      | error e => cases e <;> simp [bind, Except.bind]
      | ok p =>
          have hbuild := buildJob_isOk_iff rt p r
          simpa [bind, Except.bind] using hbuild

namespace Webhook

/-- What a sender sees when nothing raises. -/
def Answers (result : Except PyError Answer) : Prop :=
  ∃ a, result = .ok a ∧ a.status ∈ [200, 400, 401, 429, 503] ∧
    (a ≠ .decided .enqueued → a ≠ .decided .duplicate → a.status ≠ 200)

/-- Every answer there is, is one of these. -/
theorem answers_of_ok (a : Answer) : Answers (.ok a) := by
  refine ⟨a, rfl, ?_, fun henqueued hduplicate => ?_⟩
  · cases a with
    | decided decision => cases decision <;> decide
    | _ => decide
  · cases a with
    | decided decision =>
        cases decision with
        | enqueued => exact absurd rfl henqueued
        | duplicate => exact absurd rfl hduplicate
        | dropped => decide
    | _ => decide

/-- An exception is no answer. -/
theorem not_answers_error (e : PyError) : ¬ Answers (.error e) := by
  rintro ⟨a, h, -⟩
  cases h

/-- **One request.**  In every state, it is answered if and only if its header can
be compared and its body, when it is looked at, is legible. -/
theorem answers_iff (hhex : ∀ key body, (rt.hmacSha256 key body).toList.all (·.toNat < 128) = true)
    (s : Webhook) (r : Request) :
    Answers (s.handleRequest rt secret r).1 ↔
      r.Comparable secret ∧ (verifySignature rt r.body r.signature secret = .ok true →
        (s.rateLimiter.allow r.now).1 = true → r.Legible rt) := by
  rw [← verifySignature_isOk_iff hhex r, ← job_answered_iff r]
  unfold handleRequest
  cases hverify : verifySignature rt r.body r.signature secret with
  | error e => simp [not_answers_error]
  | ok passed =>
      cases passed with
      | false => simp [answers_of_ok]
      | true =>
          cases hallow : s.rateLimiter.allow r.now with
          | mk allowed limiter =>
              cases allowed with
              | false => simp [answers_of_ok]
              | true =>
                  simp only [Except.ok.injEq, exists_eq', true_and, forall_const, Request.job]
                  cases hparse : parseBody rt r.body with
                  | error e =>
                      cases e <;> simp [answers_of_ok, not_answers_error, bind, Except.bind]
                  | ok p =>
                      cases hbuild : buildJob rt p r with
                      | error e => simp [not_answers_error, bind, Except.bind, hbuild]
                      | ok job => simp [answers_of_ok, bind, Except.bind, hbuild]

end Webhook

namespace Service

variable (rt secret)

/-- Every request is answered. -/
def Total (s : Service) (l : Label) : Prop :=
  ∀ r ∈ l.received, Webhook.Answers (s.webhook.handleRequest rt secret r).1

/-- A header that can be compared, and a legible body where it is looked at. -/
def Sane (s : Service) (l : Label) : Prop :=
  ∀ r ∈ l.received, r.Comparable secret ∧
    (verifySignature rt r.body r.signature secret = .ok true →
      (s.webhook.rateLimiter.allow r.now).1 = true → r.Legible rt)

/-- **Totality.**  In every run of the service, every request is answered if and
only if every request is sane. -/
theorem along_total_iff_sane
    (hhex : ∀ key body, (rt.hmacSha256 key body).toList.all (·.toNat < 128) = true)
    (maxSize : Int) (fullPolicy : String) (ttl : ℚ) (maxRequests : Int) (ls : List Label) :
    Along (step rt secret) (Total rt secret) (init maxSize fullPolicy ttl maxRequests) ls ↔
      Along (step rt secret) (Sane rt secret) (init maxSize fullPolicy ttl maxRequests) ls := by
  have hstep (s : Service) (l : Label) : Total rt secret s l ↔ Sane rt secret s l := by
    refine forall_congr' fun r => forall_congr' fun _ => ?_
    exact Webhook.answers_iff hhex s.webhook r
  constructor
  · exact fun h => h.mono fun s l => (hstep s l).mp
  · exact fun h => h.mono fun s l => (hstep s l).mpr

/-! ### a slash, and an array -/

/-- The interpreter on two small bodies. -/
def twoBodies : Runtime where
  unicode := Unicode.ascii
  jsonLoads s :=
    if s = "[1]" then .ok (.list [.int 1])
    else if s = "\x7b\"message\": \x7b\"text\": \"/\"\x7d\x7d" then
      .ok (.dict [("message", .dict [("text", .str "/")])])
    else .error .jsonDecodeError
  hmacSha256 _ _ := ""

/-- An unsigned request with this body. -/
def plain (body : String) : Request where
  body := body.toUTF8
  signature := none
  now := 0
  checkedAt := 0
  receivedAt := 0
  uuid := "uuid"

/-- Both raise. -/
theorem plain_raises :
    (((init 10 "reject" 60 120).webhook.handleRequest twoBodies none
        (plain "\x7b\"message\": \x7b\"text\": \"/\"\x7d\x7d")).1 = .error .indexError ∧
      ((init 10 "reject" 60 120).webhook.handleRequest twoBodies none (plain "[1]")).1 =
        .error .attributeError) := by
  decide +kernel

/-- So the handler is not total. -/
theorem slash_not_total :
    ¬ Along (step twoBodies none) (Total twoBodies none) (init 10 "reject" 60 120)
      [.post .receiveUpdate (plain "\x7b\"message\": \x7b\"text\": \"/\"\x7d\x7d")] := by
  rintro ⟨htotal, -⟩
  have hanswers := htotal _ rfl
  rw [plain_raises.1] at hanswers
  exact Webhook.not_answers_error _ hanswers

/-- A body that is no JSON is answered 400. -/
theorem malformed_total :
    Along (step twoBodies none) (Total twoBodies none) (init 10 "reject" 60 120)
      [.post .receiveUpdate (plain "oops")] := by
  have hbody : String.fromUTF8? (plain "oops").body = some "oops" := by decide +kernel
  have hjson : twoBodies.jsonLoads "oops" = .error .jsonDecodeError := by simp [twoBodies]
  have hsane : Sane twoBodies none (init 10 "reject" 60 120)
      (.post .receiveUpdate (plain "oops")) := by
    intro r hr
    cases hr
    refine ⟨fun signature hsignature => ?_, fun _ _ => ⟨"oops", hbody, .inl hjson⟩⟩
    cases hsignature
  exact (along_total_iff_sane twoBodies none (fun _ _ => rfl) 10 "reject" 60 120 _).2
    ⟨hsane, fun _ _ => trivial⟩

end Service

end RubicaBot
