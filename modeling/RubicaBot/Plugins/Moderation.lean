import RubicaBot.Bot
import RubicaBot.Link

/-!
# RubicaBot.Plugins.Moderation

`AntiLinkPlugin`, `AntiFloodPlugin` and `FilterWordsPlugin` of
`app/services/plugins`.

Each first decides, reading only, whether the update is its business; what it
does then depends on that decision alone.  An update that is nobody's business
leaves every plugin with `False` and the world as it was, but for the flood
histories.
-/

namespace RubicaBot

open Py BotM

/-- A plugin: `True` ends the dispatch. -/
abbrev Plugin := Env → Context → PyVal → BotM Bool

/-- A plugin that returns `False` unless it finds something to act on. -/
def actOn {α : Type} (find : World → Except PyError (Option α)) (act : α → BotM Bool) :
    BotM Bool := do
  match ← Effect.query find with
  | none => return false
  | some x => act x

section ActOn

variable {α : Type} {find : World → Except PyError (Option α)} {act : α → BotM Bool} {w : World}

/-- The search has raised. -/
theorem actOn_of_error {e : PyError} (h : find w = .error e) : actOn find act w = (.error e, w) :=
  Effect.bind_of_error (congrArg (·, w) h)

/-- There is nothing to act on. -/
theorem actOn_of_none (h : find w = .ok none) : actOn find act w = (.ok false, w) :=
  Effect.bind_of_ok (congrArg (·, w) h)

/-- There is something. -/
theorem actOn_of_some {x : α} (h : find w = .ok (some x)) : actOn find act w = act x w :=
  Effect.bind_of_ok (congrArg (·, w) h)

/-- The search changes nothing. -/
theorem actOn_leaves {τ : Type} {f : World → τ} (h : ∀ x, Effect.Leaves f (act x)) :
    Effect.Leaves f (actOn find act) := by
  refine (Effect.leaves_query _ _).bind fun found => ?_
  cases found with
  | none => exact Effect.leaves_pure _ _
  | some x => exact h x

/-- If acting never returns `False`, that is the sign of having found nothing. -/
theorem actOn_ne_false (hact : ∀ x, Effect.Never false (act x)) (h : find w ≠ .ok none) :
    (actOn find act w).1 ≠ .ok false := by
  cases hfind : find w with
  | error e =>
      rw [actOn_of_error hfind]
      exact nofun
  | ok found =>
      cases found with
      | none => exact absurd hfind h
      | some x =>
          rw [actOn_of_some hfind]
          exact hact x w

end ActOn

/-- `sender_id and repo.is_admin(chat_id, sender_id)`. -/
def Rules.isExempt (rules : Rules) (chatId senderId : PyVal) : Except PyError Bool :=
  if senderId.truthy then rules.isAdmin chatId senderId else .ok false

/-- A message to remove, and its sender. -/
structure Offence where
  chatId : PyVal
  messageId : PyVal
  senderId : PyVal

/-! ## links -/

/-- `chat.get("type")` is in the plugin's set of types; a set hashes what it is
asked about. -/
def isModeratedType : PyVal → Except PyError Bool
  | .str s => .ok (decide (s ∈ ["Group", "Supergroup", "channel", "Channel", "group"]))
  | .list _ => .error .typeError
  | .dict _ => .error .typeError
  | _ => .ok false

/-- The message `AntiLinkPlugin` acts on. -/
def antiLinkOffence (env : Env) (rules : Rules) (update : PyVal) :
    Except PyError (Option Offence) := do
  let message ← extractMessage update
  unless message.truthy do return none
  let chatId ← getChatId message
  unless chatId.truthy do return none
  let chat := (← message.get "chat").or .emptyDict
  unless ← isModeratedType (← chat.get "type") do return none
  let settings ← rules.getGroup chatId
  unless settings.antiLink do return none
  let senderId ← getSenderId message
  if ← rules.isExempt chatId senderId then return none
  let text ← getText message
  unless ← containsLink env.unicode text do return none
  let messageId ← getMessageId message
  return some { chatId, messageId, senderId }

/-- What the chat is told about it. -/
def linkNotice : String := "کاربر به دلیل ارسال لینک بن شد و پیام حذف شد."

/-- `AntiLinkPlugin.handle`. -/
def antiLinkPlugin : Plugin := fun env ctx update =>
  actOn (fun w => antiLinkOffence env w.rules update) fun o => do
    Effect.when o.messageId.truthy (deleteMessage env o.chatId o.messageId)
    Effect.when o.senderId.truthy (banChatMember env o.chatId o.senderId)
    Effect.when ctx.reportAntiActions (sendMessage env o.chatId linkNotice)
    return true

/-! ## floods -/

/-- A message that counts towards a flood. -/
structure FloodSubject where
  message : PyVal
  chatId : PyVal
  senderId : PyVal
  floodLimit : Int

/-- The message `AntiFloodPlugin` counts. -/
def antiFloodSubject (rules : Rules) (update : PyVal) : Except PyError (Option FloodSubject) := do
  let message ← extractMessage update
  unless message.truthy do return none
  let chatId ← getChatId message
  let senderId ← getSenderId message
  unless chatId.truthy && senderId.truthy do return none
  let settings ← rules.getGroup chatId
  unless settings.antiFlood do return none
  if ← rules.isAdmin chatId senderId then return none
  return some { message, chatId, senderId, floodLimit := settings.floodLimit }

/-- The history of a subject after its message: what has left the window is
dropped. -/
def floodHistory (env : Env) (events : Dict String (List Instant)) (key : String) : List Instant :=
  ((events.lookup key).getD []).dropWhile
    (fun t => decide (env.monotonic - t > env.floodWindow)) ++ [env.monotonic]

/-- `f"{chat_id}:{sender_id}"`. -/
def FloodSubject.key (env : Env) (s : FloodSubject) : String :=
  s.chatId.toStr env.unicode ++ ":" ++ s.senderId.toStr env.unicode

/-- The message exceeds the limit. -/
def FloodSubject.exceeds (env : Env) (events : Dict String (List Instant)) (s : FloodSubject) :
    Bool :=
  decide (s.floodLimit < (floodHistory env events (s.key env)).length)

/-- What happens to a message over the limit. -/
def punishFlood (env : Env) (s : FloodSubject) : BotM Bool := do
  let messageId ← Effect.lift do
    (← s.message.get "message_id").orElse (s.message.get "id")
  Effect.when messageId.truthy (deleteMessage env s.chatId messageId)
  banChatMember env s.chatId s.senderId
  return true

/-- The world after the message has been recorded in the history of its chat and
sender. -/
def World.recordFlood (env : Env) (s : FloodSubject) (w : World) : World :=
  { w with
    floodEvents :=
      w.floodEvents.insert (s.key env) (floodHistory env w.floodEvents (s.key env)) }

/-- The message is recorded, and punished if it is over the limit. -/
def countMessage (env : Env) (s : FloodSubject) : BotM Bool := do
  let exceeded ← Effect.query fun w => .ok (s.exceeds env w.floodEvents)
  Effect.update (World.recordFlood env s)
  if exceeded then punishFlood env s else return false

/-- One too many: it is counted, and punished. -/
theorem countMessage_of_exceeds {env : Env} {s : FloodSubject} {w : World}
    (h : s.exceeds env w.floodEvents) :
    countMessage env s w = punishFlood env s (w.recordFlood env s) := by
  show (if s.exceeds env w.floodEvents then punishFlood env s else return false) _ = _
  rw [if_pos h]

/-- It is counted, and passed on. -/
theorem countMessage_of_not_exceeds {env : Env} {s : FloodSubject} {w : World}
    (h : s.exceeds env w.floodEvents = false) :
    countMessage env s w = (.ok false, w.recordFlood env s) := by
  show (if s.exceeds env w.floodEvents then punishFlood env s else return false) _ = _
  rw [h]
  rfl

/-- `AntiFloodPlugin.handle`; the message is counted before anything is awaited. -/
def antiFloodPlugin : Plugin := fun env _ update =>
  actOn (fun w => antiFloodSubject w.rules update) (countMessage env)

/-! ## bad words -/

/-- `re.search(word, text) if regex_enabled else word in text`. -/
def Filter.hits (env : Env) (f : Filter) (text : PyVal) : Except PyError Bool :=
  if f.regexEnabled then
    match text with
    | .str s => env.reSearch f.word s
    | _ => .error .typeError
  else
    match text with
    | .str s => .ok (contains s f.word)
    | .list xs => .ok (xs.any (·.isStr f.word))
    | .dict entries => .ok (entries.any (·.1 == f.word))
    | _ => .error .typeError

/-- The loop of `FilterWordsPlugin`: the message is removed if a word of the
blacklist matches and no word of the whitelist does. -/
def filterVerdict (env : Env) (text : PyVal) (matchedBlacklist : Bool) :
    List Filter → Except PyError Bool
  | [] => .ok matchedBlacklist
  | f :: fs => do
      let hit ← f.hits env text
      if f.isWhitelist then
        if hit then return false else filterVerdict env text matchedBlacklist fs
      else filterVerdict env text (matchedBlacklist || hit) fs

/-- The message `FilterWordsPlugin` acts on, with these filters. -/
def filterOffenceWith (env : Env) (listFilters : PyVal → Except PyError (List Filter))
    (rules : Rules) (update : PyVal) : Except PyError (Option Offence) := do
  let message ← extractMessage update
  unless message.truthy do return none
  let chatId ← getChatId message
  unless chatId.truthy do return none
  let settings ← rules.getGroup chatId
  unless settings.antiBadwords do return none
  let senderId ← getSenderId message
  if ← rules.isExempt chatId senderId then return none
  let text := (← getText message).or (.str "")
  let filters ← listFilters chatId
  if filters = [] then return none
  unless ← filterVerdict env text false filters do return none
  let messageId ← getMessageId message
  return some { chatId, messageId, senderId }

/-- The message it acts on, with the filters of the database. -/
def filterOffence (env : Env) (rules : Rules) (update : PyVal) :
    Except PyError (Option Offence) :=
  filterOffenceWith env rules.listFilters rules update

/-- `FilterWordsPlugin`, with these filters. -/
def filterWordsWith (listFilters : Rules → PyVal → Except PyError (List Filter)) : Plugin :=
  fun env _ update =>
    actOn (fun w => filterOffenceWith env (listFilters w.rules) w.rules update) fun o => do
      Effect.when o.messageId.truthy (deleteMessage env o.chatId o.messageId)
      return true

/-- `FilterWordsPlugin.handle`. -/
def filterWordsPlugin : Plugin := filterWordsWith Rules.listFilters

end RubicaBot
