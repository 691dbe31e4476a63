import RubicaBot.Effect
import RubicaBot.Database
import RubicaBot.Router

/-!
# RubicaBot.Bot

What a plugin works with: the context that `app/main.py` passes to every
dispatch, the database, the flood histories and the Rubika client.

A plugin is a computation over a `World`.  It awaits nothing but the client, and
a call of the client is recorded with its arguments; what the API answers, or
raises, is a parameter.  `flagWrites` records the calls of `set_group_flag`.
-/

namespace RubicaBot

open Py

/-- A call of the Rubika API, by the method of `RubikaClient`. -/
inductive ApiCall where
  | sendMessage (chatId : PyVal) (text : String) (inlineKeypad : Option PyVal)
  | deleteMessage (chatId messageId : PyVal)
  | banChatMember (chatId userId : PyVal)
  | unbanChatMember (chatId userId : PyVal)
  | setCommands (commands : List (String × String))
  | editInlineKeypad (chatId messageId inlineKeypad : PyVal)

/-- The call deletes a message or bans a user. -/
def ApiCall.isPunishment : ApiCall → Bool
  | .deleteMessage _ _ => true
  | .banChatMember _ _ => true
  | _ => false

/-- What the plugins take from Python's libraries, from their constructors and from
outside the process, during one dispatch. -/
structure Env where
  unicode : Unicode
  /-- Whether `re.search(pattern, text)` finds a match. -/
  reSearch : String → String → Except PyError Bool
  /-- `json.dumps(…, ensure_ascii=False)`. -/
  jsonDumps : PyVal → Except PyError String
  /-- `f"{safe_eval(expression):g}"`, or the exception with its text. -/
  safeEval : String → Except (PyError × String) String
  /-- The index `random` picks below a bound. -/
  pick : Nat → Nat
  /-- `utc_now()`. -/
  utcNow : String
  /-- `time.monotonic()`. -/
  monotonic : Instant
  /-- `AntiFloodPlugin.window_seconds`. -/
  floodWindow : ℚ := 8
  /-- `MODELS_DOC`. -/
  modelsDoc : String
  /-- What the client returns or raises at its nth call. -/
  reply : Nat → ApiCall → Except PyError PyVal

/-- ASCII is all there is, no regular expression matches, the clock stands at 0
and every call of the API succeeds. -/
def Env.plain : Env where
  unicode := .ascii
  reSearch _ _ := .ok false
  jsonDumps _ := .ok ""
  safeEval _ := .ok "0"
  pick _ := 0
  utcNow := ""
  monotonic := 0
  modelsDoc := ""
  reply _ _ := .ok (.dict [("ok", .bool true)])

/-- The fields `stats_handler` prints, the floats as `:.2f` formats them. -/
structure StatsView where
  totalUpdates : Int
  totalErrors : Int
  averageDispatchMs : String
  lastDispatchMs : String
  lastQueueSize : Int
  uptimeSeconds : Int

/-- The settings `IncomingSnapshotPlugin` reads. -/
structure Settings where
  incomingUpdatesEnabled : Bool
  incomingUpdatesStoreRaw : Bool

/-- A command, with a handler of this type. -/
structure CommandOf (η : Type) where
  name : String
  description : String
  handler : η
  adminOnly : Bool := false

/-- `_commands`, in the order of the dictionary. -/
structure CommandRegistryOf (η : Type) where
  commands : List (CommandOf η) := []

namespace CommandRegistryOf

variable {η : Type}

/-- `register`: a name that is registered again keeps its place. -/
def register (registry : CommandRegistryOf η) (command : CommandOf η) : CommandRegistryOf η where
  commands :=
    if registry.commands.any (·.name == command.name) then
      registry.commands.map fun c => if c.name == command.name then command else c
    else registry.commands ++ [command]

/-- `list_commands`, each with its description. -/
def listCommands (registry : CommandRegistryOf η) : List (String × String) :=
  registry.commands.map fun c => (c.name, c.description)

/-- `get`. -/
def get (registry : CommandRegistryOf η) (name : String) : Option (CommandOf η) :=
  registry.commands.find? fun c => c.name == name

/-- What is found is registered under that name. -/
theorem get_eq_some {registry : CommandRegistryOf η} {name : String} {command : CommandOf η}
    (h : registry.get name = some command) :
    command ∈ registry.commands ∧ command.name = name :=
  ⟨List.mem_of_find?_eq_some h, by simpa using List.find?_some h⟩

end CommandRegistryOf

/-- The context of a dispatch, without the repository and the client.  No handler calls
another, so those of the registry are left out. -/
structure Context where
  commandRegistry : CommandRegistryOf Unit := {}
  reportAntiActions : Bool := true
  stats : Option StatsView := none
  version : Option String := none
  ownerId : Option String := none
  settings : Option Settings := none
  job : Option Job := none

/-- `sender_id == owner_id`. -/
def Context.isOwner (ctx : Context) (senderId : PyVal) : Bool :=
  match ctx.ownerId with
  | some owner => senderId.isStr owner
  | none => senderId.isNone

/-- A call of `set_group_flag`. -/
structure FlagWrite where
  chatId : PyVal
  key : Flag
  value : Bool

/-- What a dispatch reads and changes: the tables, the flood histories, and the calls that have
been made of the API. -/
structure World where
  rules : Rules
  messages : List MessageRow := []
  incomingUpdates : List IncomingRow := []
  /-- `AntiFloodPlugin._events`. -/
  floodEvents : Dict String (List Instant) := ∅
  apiCalls : List ApiCall := []
  flagWrites : List FlagWrite := []

/-- A dispatch, or a part of one, that has the process to itself. -/
abbrev BotM := Effect World PyError

namespace BotM

/-! ## the client -/

variable (env : Env)

/-- `RubikaClient.api_call`: the call is recorded, whether it fails or not. -/
def callApi (call : ApiCall) : BotM PyVal := fun w =>
  (env.reply w.apiCalls.length call, { w with apiCalls := w.apiCalls ++ [call] })

/-- The call, and what it answers. -/
theorem callApi_apply (call : ApiCall) (w : World) :
    callApi env call w =
      (env.reply w.apiCalls.length call, { w with apiCalls := w.apiCalls ++ [call] }) := rfl

/-- The client returns, whatever it is asked. -/
def ClientReturns : Prop := ∀ n call, ∃ v, env.reply n call = .ok v

/-- `client.send_message(chat_id, text, inline_keypad=…)`. -/
def sendMessage (chatId : PyVal) (text : String) (inlineKeypad : Option PyVal := none) :
    BotM Unit := do
  let _ ← callApi env (.sendMessage chatId text inlineKeypad)

/-- `client.delete_message(chat_id, message_id)`. -/
def deleteMessage (chatId messageId : PyVal) : BotM PyVal :=
  callApi env (.deleteMessage chatId messageId)

/-- `client.ban_chat_member(chat_id, user_id)`. -/
def banChatMember (chatId userId : PyVal) : BotM Unit := do
  let _ ← callApi env (.banChatMember chatId userId)

/-! ## the repository -/

/-- `repo.get_group(chat_id)`, without its cache. -/
def getGroup (chatId : PyVal) : BotM GroupSettings := .query fun w => w.rules.getGroup chatId

/-- `repo.list_filters(chat_id)`. -/
def listFilters (chatId : PyVal) : BotM (List Filter) := .query fun w => w.rules.listFilters chatId

/-- `repo.set_group_flag(chat_id, key, value)`; a write that has not raised is recorded. -/
def setGroupFlag (chatId : PyVal) (key : Flag) (value : Bool) : BotM Unit :=
  .tryUpdate fun w => do
    let rules ← w.rules.setGroupFlag chatId key value
    return { w with rules := rules, flagWrites := w.flagWrites ++ [⟨chatId, key, value⟩] }

/-- `repo.add_filter(…)`. -/
def addFilter (chatId : PyVal) (word : String) (isWhitelist regexEnabled : Bool) : BotM Unit :=
  .tryUpdate fun w => do
    return { w with rules := ← w.rules.addFilter chatId word isWhitelist regexEnabled }

/-- `repo.remove_filter(chat_id, word)`. -/
def removeFilter (chatId : PyVal) (word : String) : BotM Unit :=
  .tryUpdate fun w => do return { w with rules := ← w.rules.removeFilter chatId word }

/-! ## what they leave alone -/

/-- The part of the world that says who may do what, and what has been
configured. -/
def configuration (w : World) : Groups × Finset (String × String) × List FlagWrite :=
  (w.rules.groups, w.rules.admins, w.flagWrites)

/-- `f` looks neither at the calls of the API nor at the filters, the flood
histories and the snapshots. -/
structure Overlooks {τ : Type} (f : World → τ) : Prop where
  calls : ∀ w apiCalls, f { w with apiCalls := apiCalls } = f w
  filters : ∀ w filters, f { w with rules := { w.rules with filters := filters } } = f w
  floods : ∀ w floodEvents, f { w with floodEvents := floodEvents } = f w
  snapshots : ∀ w incomingUpdates, f { w with incomingUpdates := incomingUpdates } = f w

/-- The configuration is no matter of calls, filters or floods. -/
theorem configuration_overlooks : Overlooks configuration :=
  ⟨fun _ _ => rfl, fun _ _ => rfl, fun _ _ => rfl, fun _ _ => rfl⟩

/-- Nor are the messages. -/
theorem messages_overlooks : Overlooks World.messages :=
  ⟨fun _ _ => rfl, fun _ _ => rfl, fun _ _ => rfl, fun _ _ => rfl⟩

variable {env} {τ : Type} {f : World → τ}

/-- A call leaves alone what overlooks calls. -/
theorem callApi_leaves (hf : Overlooks f) (call : ApiCall) : Effect.Leaves f (callApi env call) :=
  fun w => hf.calls w _

theorem sendMessage_leaves (hf : Overlooks f) (chatId : PyVal) (text : String)
    (keypad : Option PyVal) : Effect.Leaves f (sendMessage env chatId text keypad) :=
  (callApi_leaves hf _).bind fun _ => Effect.leaves_pure _ _

theorem banChatMember_leaves (hf : Overlooks f) (chatId userId : PyVal) :
    Effect.Leaves f (banChatMember env chatId userId) :=
  (callApi_leaves hf _).bind fun _ => Effect.leaves_pure _ _

theorem addFilter_leaves (hf : Overlooks f) (chatId : PyVal) (word : String)
    (isWhitelist regexEnabled : Bool) :
    Effect.Leaves f (addFilter chatId word isWhitelist regexEnabled) := by
  refine Effect.leaves_tryUpdate fun w w' h => ?_
  obtain ⟨rules, hrules, hw⟩ := Effect.exists_of_bind_eq_ok h
  cases hw
  obtain ⟨c, -, hc⟩ := Effect.exists_of_bind_eq_ok hrules
  cases hc
  exact hf.filters w _

theorem removeFilter_leaves (hf : Overlooks f) (chatId : PyVal) (word : String) :
    Effect.Leaves f (removeFilter chatId word) := by
  refine Effect.leaves_tryUpdate fun w w' h => ?_
  obtain ⟨rules, hrules, hw⟩ := Effect.exists_of_bind_eq_ok h
  cases hw
  obtain ⟨c, -, hc⟩ := Effect.exists_of_bind_eq_ok hrules
  cases c with
  | none => cases hc; rfl
  | some c => cases hc; exact hf.filters w _

/-- `set_group_flag` does not touch the message log. -/
theorem setGroupFlag_messages (chatId : PyVal) (key : Flag) (value : Bool) :
    Effect.Leaves World.messages (setGroupFlag chatId key value) := by
  refine Effect.leaves_tryUpdate fun w w' h => ?_
  obtain ⟨rules, -, hw⟩ := Effect.exists_of_bind_eq_ok h
  cases hw
  rfl

/-- `set_group_flag` raises and writes nothing, or its call is recorded. -/
theorem setGroupFlag_apply (chatId : PyVal) (key : Flag) (value : Bool) (w : World) :
    (∃ e, sqlText chatId = .error e ∧ setGroupFlag chatId key value w = (.error e, w)) ∨
      ∃ rules, w.rules.setGroupFlag chatId key value = .ok rules ∧
        setGroupFlag chatId key value w =
          (.ok (), { w with
            rules := rules, flagWrites := w.flagWrites ++ [⟨chatId, key, value⟩] }) := by
  cases h : w.rules.setGroupFlag chatId key value with
  | ok rules => exact .inr ⟨rules, rfl, Effect.tryUpdate_of_ok (by rw [h]; rfl)⟩
  | error e =>
      refine .inl ⟨e, ?_, Effect.tryUpdate_of_error (by rw [h]; rfl)⟩
      unfold Rules.setGroupFlag at h
      cases ht : sqlText chatId with
      | error e' =>
          rw [ht] at h
          cases h
          rfl
      | ok t =>
          rw [ht] at h
          cases t <;> cases h

end BotM

end RubicaBot
