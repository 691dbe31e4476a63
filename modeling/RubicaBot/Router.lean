import Mathlib
import RubicaBot.PyVal
import RubicaBot.Queue
import RubicaBot.RateLimiter

/-!
# RubicaBot.Router

`app/webhook/router.py`, `app/utils/security.py` and `app/utils/message.py`: what
happens to a request between its arrival and `JobQueue.enqueue`.

A request passes the signature check, the rate limiter and the JSON parser, in
this order; then a `Job` is built from the payload, with every fallback of the
source, and enqueued.  Payloads are untrusted and several expressions raise on
values of the wrong type; `handleRequest` returns the exception with the state
it leaves.

A request is one uninterrupted stretch of the event loop once its body has
arrived: the only `await` on the way is the queue's lock, and whoever holds that
lock never suspends, so it is free.
-/

namespace RubicaBot

open Py

/-! ## the message of a payload

Each getter of `app/utils/message.py` tries several places and takes the first truthy
value, so what it returns is of any type, and a container of the wrong type raises. -/

/-- `extract_message`. -/
def extractMessage (update : PyVal) : Except PyError PyVal := do
  (← update.get "message").orElse do
    (← update.get "data").orElse (update.get "inline_message")

/-- `get_text`. -/
def getText (message : PyVal) : Except PyError PyVal :=
  if message.truthy then do (← message.get "text").orElse (message.get "body")
  else .ok .none

/-- `message.get(container)`'s id, or the id the message itself has under `key`. -/
def getIdOf (message : PyVal) (container key : String) : Except PyError PyVal :=
  if message.truthy then do
    let inner := (← message.get container).or .emptyDict
    (← inner.get "id").orElse (message.get key)
  else .ok .none

/-- `get_chat_id`. -/
def getChatId (message : PyVal) : Except PyError PyVal := getIdOf message "chat" "chat_id"

/-- `get_message_id`. -/
def getMessageId (message : PyVal) : Except PyError PyVal :=
  if message.truthy then do (← message.get "message_id").orElse (message.get "id")
  else .ok .none

/-- `get_sender_id`. -/
def getSenderId (message : PyVal) : Except PyError PyVal := getIdOf message "sender" "sender_id"

/-! ## the request -/

/-- What the handler takes from Python's libraries. -/
structure Runtime where
  unicode : Unicode
  /-- `json.loads`. -/
  jsonLoads : String → Except PyError PyVal
  /-- `hmac.new(key, body, hashlib.sha256).hexdigest()`. -/
  hmacSha256 : ByteArray → ByteArray → String

/-- ASCII is all there is, nothing is JSON and every digest is the empty text. -/
def Runtime.plain : Runtime where
  unicode := .ascii
  jsonLoads _ := .error .jsonDecodeError
  hmacSha256 _ _ := ""

/-! ## signatures -/

/-- `hmac.compare_digest` on two `str`s, which must be ASCII. -/
def compareDigest (a b : String) : Except PyError Bool :=
  if a.toList.all (·.toNat < 128) && b.toList.all (·.toNat < 128) then .ok (a == b)
  else .error .typeError

/-- `verify_signature`. -/
def verifySignature (rt : Runtime) (rawBody : ByteArray) (signature secret : Option String) :
    Except PyError Bool :=
  match signature, secret with
  | some signature, some secret =>
      if signature = "" ∨ secret = "" then .ok true
      else compareDigest signature (rt.hmacSha256 secret.toUTF8 rawBody)
  | _, _ => .ok true

/-! ## from a payload to a job -/

/-- The commands that get high priority. -/
def adminCommands : List String :=
  ["ban", "unban", "del", "antilink", "filter", "settings", "admins", "setcmd", "panel"]

/-- `":".join(values)`: strings only. -/
def joinColon (values : List PyVal) : Except PyError String := do
  let parts ← values.mapM fun
    | .str s => .ok s
    | _ => .error .typeError
  return ":".intercalate parts

/-- The priority a text gives its job. -/
def priorityOf (rt : Runtime) (text : PyVal) : Except PyError JobPriority :=
  if text.truthy then do
    let s ← text.asStr
    match splitOnce (lstrip (· == '/') s) with
    | [] => .error .indexError
    | word :: _ =>
        if rt.unicode.lower word ∈ adminCommands then return .high
        else if contains s "http" || contains s "t.me" || contains s "rubika.ir" then return .high
        else return .normal
  else .ok .normal

/-- A request to one of the two webhook routes, with what its handling reads from
outside: the clocks of the rate limiter and of the deduplicator, `time.time()`
and `uuid4()`. -/
structure Request where
  body : ByteArray
  signature : Option String
  now : Instant
  checkedAt : Instant
  receivedAt : Instant
  uuid : String
  deriving DecidableEq

/-- The `Job` for a payload. -/
def buildJob (rt : Runtime) (payload : PyVal) (r : Request) : Except PyError Job := do
  let message := (← extractMessage payload).or .emptyDict
  let updateId ← (← payload.get "update_id").orElse do
    (← payload.get "message_id").orElse (message.get "message_id")
  let jobId := if updateId.isNone then r.uuid else updateId.toStr rt.unicode
  let updateType ← payload.get "type"
  let chatId ← getChatId message
  let messageId ← getMessageId message
  let senderId ← getSenderId message
  let text ← getText message
  let buttonId ← (← payload.get "button_id").orElse (message.get "button_id")
  let button := if buttonId.truthy then .str (buttonId.toStr rt.unicode) else .none
  let joined ← joinColon ([chatId, messageId, updateType, button].filter (·.truthy))
  let dedupKey := if joined = "" then jobId else joined
  let priority ← priorityOf rt text
  return {
    jobId := jobId, receivedAt := r.receivedAt, chatId := chatId, messageId := messageId,
    senderId := senderId, updateType := updateType, text := text, rawPayload := payload,
    dedupKey := some dedupKey, priority := priority }

/-- `json.loads(raw_body.decode("utf-8"))`. -/
def parseBody (rt : Runtime) (body : ByteArray) : Except PyError PyVal :=
  match String.fromUTF8? body with
  | some s => rt.jsonLoads s
  | none => .error .unicodeDecodeError

/-- The job a request carries, if its body can be read. -/
def Request.job (rt : Runtime) (r : Request) : Except PyError Job := do
  buildJob rt (← parseBody rt r.body) r

/-! ## the handler -/

/-- How a request is answered; a decision of the queue shows in the status only
as far as `status` says. -/
inductive Answer where
  | unauthorized
  | tooManyRequests
  | badRequest
  | decided (decision : QueueDecision)
  deriving DecidableEq

/-- The status code. -/
def Answer.status : Answer → Nat
  | .unauthorized => 401
  | .tooManyRequests => 429
  | .badRequest => 400
  | .decided .dropped => 503
  | .decided .duplicate => 200
  | .decided .enqueued => 200

/-- What `handle_request` reads and writes. -/
structure Webhook where
  rateLimiter : RateLimiter
  queue : JobQueue

namespace Webhook

/-- `handle_request`: its answer, or the exception it raises, and the state it
leaves. -/
def handleRequest (rt : Runtime) (secret : Option String) (s : Webhook) (r : Request) :
    Except PyError Answer × Webhook :=
  match verifySignature rt r.body r.signature secret with
  | .error e => (.error e, s)
  | .ok false => (.ok .unauthorized, s)
  | .ok true =>
      match s.rateLimiter.allow r.now with
      | (false, limiter) => (.ok .tooManyRequests, { s with rateLimiter := limiter })
      | (true, limiter) =>
          match parseBody rt r.body with
          | .error .jsonDecodeError => (.ok .badRequest, { s with rateLimiter := limiter })
          | .error e => (.error e, { s with rateLimiter := limiter })
          | .ok payload =>
              match buildJob rt payload r with
              | .error e => (.error e, { s with rateLimiter := limiter })
              | .ok job =>
                  let (decision, queue) := s.queue.enqueue job r.checkedAt
                  (.ok (.decided decision), { rateLimiter := limiter, queue := queue })

end Webhook

end RubicaBot
