import RubicaBot.Bot

/-!
# RubicaBot.Handlers

The command handlers of `app/services/handlers.py`.

A handler gets the message, the context and the words after the command.  All
but one look the chat up first and do nothing without it (`inChat`).
`antilink_handler` is the only one that writes to `groups`; the others leave the
configuration alone.
-/

namespace RubicaBot

open Py BotM

/-- `format_duration`. -/
def formatDuration (seconds : Int) : String :=
  let days := seconds / 86400
  let hours := seconds % 86400 / 3600
  let minutes := seconds % 86400 % 3600 / 60
  " ".intercalate
    ((if days ≠ 0 then [toString days ++ "d"] else []) ++
      (if hours ≠ 0 then [toString hours ++ "h"] else []) ++
      (if minutes ≠ 0 then [toString minutes ++ "m"] else []) ++
      [toString (seconds % 86400 % 3600 % 60) ++ "s"])

/-- `'ON' if value else 'OFF'`. -/
def onOff (value : Bool) : String := if value then "ON" else "OFF"

/-- `f"{word} ({'whitelist' if is_whitelist else 'blacklist'})"`, a line for each
filter. -/
def filterLines (filters : List Filter) : String :=
  "\n".intercalate (filters.map fun f =>
    f.word ++ " (" ++ (if f.isWhitelist then "whitelist" else "blacklist") ++ ")")

/-- `random.choice(options)`. -/
def Env.choice (env : Env) (options : List String) : String :=
  options.getD (env.pick options.length % options.length) ""

/-- A handler gets the message and the words after the command. -/
abbrev Handler := Env → Context → PyVal → List String → BotM Unit

/-- `chat_id = get_chat_id(message)`, and nothing more if there is none. -/
def inChat (message : PyVal) (act : PyVal → BotM Unit) : BotM Unit := do
  let chatId ← Effect.lift (getChatId message)
  if chatId.truthy then act chatId else pure ()

/-- The chat can be read; the handler acts if there is one. -/
theorem inChat_of_ok {message chatId : PyVal} (act : PyVal → BotM Unit)
    (h : getChatId message = .ok chatId) :
    inChat message act = if chatId.truthy then act chatId else pure () := by
  rw [inChat, h]
  rfl

/-- A handler that answers in the chat. -/
def replyWith (text : Env → Context → List String → String) : Handler :=
  fun env ctx message args =>
    inChat message fun chatId => sendMessage env chatId (text env ctx args)

/-- `/help`: the registered commands, one on each line. -/
def helpHandler : Handler := replyWith fun _ ctx _ =>
  "\n".intercalate
    ("راهنما:" :: ctx.commandRegistry.listCommands.map fun c => "/" ++ c.1 ++ " - " ++ c.2)

/-- `/setcmd` is the one handler that asks for no chat. -/
def setcmdHandler : Handler := fun env ctx _ _ => do
  let _ ← callApi env (.setCommands ctx.commandRegistry.listCommands)

/-- `/ping`. -/
def pingHandler : Handler := replyWith fun _ _ _ => "pong"

/-- `/coin`. -/
def coinHandler : Handler := replyWith fun env _ _ => env.choice ["شیر", "خط"]

/-- `/roll`: `randint(1, 6)`. -/
def rollHandler : Handler := replyWith fun env _ _ => "🎲 " ++ toString (env.pick 6 % 6 + 1)

/-- `/joke`. -/
def jokeHandler : Handler := replyWith fun env _ _ => env.choice
  ["ربات: چرا کامپیوتر سردش بود؟ چون همیشه پنجره‌ها باز بود.",
    "برنامه‌نویس: قهوه بدون کد؟ هرگز!",
    "وقتی دیباگ می‌کنی، باگ هم زمان یاد می‌گیره!"]

/-- `/uptime`, if there are statistics. -/
def uptimeHandler : Handler := replyWith fun _ ctx _ =>
  match ctx.stats with
  | none => "آمار در دسترس نیست."
  | some stats => "Uptime: " ++ formatDuration stats.uptimeSeconds

/-- `/stats`, if there are statistics. -/
def statsHandler : Handler := replyWith fun _ ctx _ =>
  match ctx.stats with
  | none => "آمار در دسترس نیست."
  | some stats =>
      "Updates: " ++ toString stats.totalUpdates ++ "\n" ++
      "Errors: " ++ toString stats.totalErrors ++ "\n" ++
      "Avg dispatch: " ++ stats.averageDispatchMs ++ "ms\n" ++
      "Last dispatch: " ++ stats.lastDispatchMs ++ "ms\n" ++
      "Last queue size: " ++ toString stats.lastQueueSize ++ "\n" ++
      "Uptime: " ++ formatDuration stats.uptimeSeconds

/-- `/echo`. -/
def echoHandler : Handler := replyWith fun _ _ args =>
  if args = [] then "متن ارسال نشده است." else " ".intercalate args

/-- `/id`: the ids are shown as `str` shows them, `None` included. -/
def idHandler : Handler := fun env _ message _ => inChat message fun chatId => do
  let senderId ← Effect.lift (getSenderId message)
  let messageId ← Effect.lift (getMessageId message)
  sendMessage env chatId
    ("Chat ID: " ++ chatId.toStr env.unicode ++ "\nUser ID: " ++ senderId.toStr env.unicode ++
      "\nMessage ID: " ++ messageId.toStr env.unicode)

/-- `/time`. -/
def timeHandler : Handler := replyWith fun env _ _ => env.utcNow

/-- `/calc`: a `ValueError` of `safe_eval` is told to the chat, any other leaves the handler. -/
def calcHandler : Handler := fun env _ message args => inChat message fun chatId =>
  if args = [] then sendMessage env chatId "استفاده: /calc 2+2"
  else
    match env.safeEval (" ".intercalate args) with
    | .error (.valueError, text) => sendMessage env chatId ("خطا: " ++ text)
    | .error (e, _) => Effect.lift (.error e)
    | .ok result => sendMessage env chatId ("= " ++ result)

/-- `/about`. -/
def aboutHandler : Handler := replyWith fun _ ctx _ =>
  "Rubika Bot API v" ++ ctx.version.getD "unknown"

/-- `/models`. -/
def modelsHandler : Handler := replyWith fun env _ _ => env.modelsDoc

/-- What `settings_handler` prints. -/
def settingsText (settings : GroupSettings) : String :=
  "Anti Link: " ++ onOff settings.antiLink ++ "\n" ++
    "Anti Flood: " ++ onOff settings.antiFlood ++ "\n" ++
    "Anti Spam: " ++ onOff settings.antiSpam ++ "\n" ++
    "Anti BadWords: " ++ onOff settings.antiBadwords ++ "\n" ++
    "Anti Forward: " ++ onOff settings.antiForward ++ "\n" ++
    "Flood Limit: " ++ toString settings.floodLimit

/-- `/settings`. -/
def settingsHandler : Handler := fun env _ message _ => inChat message fun chatId => do
  let settings ← getGroup chatId
  sendMessage env chatId (settingsText settings)

/-- `/admins` counts them and names none. -/
def adminsHandler : Handler := fun env _ message _ => inChat message fun chatId => do
  let total ← Effect.query fun w => w.rules.countAdmins chatId
  sendMessage env chatId ("Admin count: " ++ toString total)

/-- `/antilink`: any word but `on` means off. -/
def antilinkHandler : Handler := fun env _ message args => inChat message fun chatId =>
  match args with
  | [] => pure ()
  | word :: _ => do
      let value := env.unicode.lower word == "on"
      setGroupFlag chatId .antiLink value
      sendMessage env chatId ("Anti Link " ++ onOff value)

/-- `/filter`: an action that is not known is passed over in silence, if a word comes with
it. -/
def filterHandler : Handler := fun env _ message args => inChat message fun chatId =>
  match args with
  | [] => sendMessage env chatId "استفاده: /filter add|del|list <word>"
  | word :: rest =>
      let action := env.unicode.lower word
      if action = "list" then do
        let filters ← listFilters chatId
        if filters = [] then sendMessage env chatId "فیلتر خالی است."
        else sendMessage env chatId (filterLines filters)
      else
        match rest with
        | [] => sendMessage env chatId "کلمه را وارد کنید."
        | word :: _ =>
            if action = "add" then do
              addFilter chatId word false false
              sendMessage env chatId (word ++ " به لیست سیاه اضافه شد.")
            else if action = "del" then do
              removeFilter chatId word
              sendMessage env chatId (word ++ " حذف شد.")
            else pure ()

/-- Whether `delete_handler` counts a deletion as done: `result.get("ok", True)`,
and an exception, also one of `get`, is a failure. -/
def countsAsDeleted : Except PyError PyVal → Bool
  | .ok (.dict entries) =>
      (((entries.find? fun e => e.1 = "ok").map Prod.snd).getD (.bool true)).truthy
  | _ => false

/-- The loop of `delete_handler`. -/
def deleteEach (env : Env) (chatId : PyVal) (deleted failed : Nat) :
    List String → BotM (Nat × Nat)
  | [] => pure (deleted, failed)
  | messageId :: messageIds => do
      let outcome ← (deleteMessage env chatId (.str messageId)).attempt
      if countsAsDeleted outcome then deleteEach env chatId (deleted + 1) failed messageIds
      else deleteEach env chatId deleted (failed + 1) messageIds

/-- The limit of `/del`, or `none` if the word is not a number. -/
def deleteLimit (u : Unicode) : List String → Option Int
  | [] => some 100
  | word :: _ => intOf u word

/-- `/del`: the newest messages of the chat, 10000 of them at most. -/
def deleteHandler : Handler := fun env _ message args => inChat message fun chatId =>
  match deleteLimit env.unicode args with
  | none => sendMessage env chatId "عدد نامعتبر است. مثال: /del 100"
  | some limit => do
      let limit := (max 0 (min limit 10000)).toNat
      if limit = 0 then sendMessage env chatId "هیچ پیامی برای حذف انتخاب نشد."
      else do
        let messageIds ← Effect.query fun w => fetchRecentMessageIds w.messages chatId limit
        if messageIds = [] then sendMessage env chatId "پیامی برای حذف پیدا نشد."
        else do
          let (deleted, failed) ← deleteEach env chatId 0 0 messageIds
          sendMessage env chatId
            ("حذف شد: " ++ toString deleted ++ " | ناموفق: " ++ toString failed)

/-- Whom `/ban` is about. -/
def banTarget (message : PyVal) : List String → Except PyError PyVal
  | word :: _ => .ok (.str word)
  | [] => do
      let replied ← message.get "reply_to_message"
      if replied.truthy then getSenderId replied else return .none

/-- `/ban`. -/
def banHandler : Handler := fun env _ message args => inChat message fun chatId => do
  let targetId ← Effect.lift (banTarget message args)
  if targetId.truthy then banChatMember env chatId targetId else pure ()

/-- `/unban`: the id is the word after the command. -/
def unbanHandler : Handler := fun env _ message args => inChat message fun chatId =>
  match args with
  | [] => pure ()
  | word :: _ => do
      let _ ← callApi env (.unbanChatMember chatId (.str word))

/-! ## what they leave alone -/

variable {env : Env} {τ : Type} {f : World → τ}

/-- What a handler leaves alone in every chat it leaves alone. -/
theorem inChat_leaves {message : PyVal} {act : PyVal → BotM Unit}
    (h : ∀ chatId, Effect.Leaves f (act chatId)) : Effect.Leaves f (inChat message act) :=
  (Effect.leaves_lift _ _).bind fun chatId => (h chatId).ite (Effect.leaves_pure _ _)

/-- An answer is a call, and nothing more. -/
theorem replyWith_leaves (hf : Overlooks f) (text : Env → Context → List String → String)
    (ctx : Context) (message : PyVal) (args : List String) :
    Effect.Leaves f (replyWith text env ctx message args) :=
  inChat_leaves fun _ => sendMessage_leaves hf _ _ _

theorem setcmdHandler_leaves (hf : Overlooks f) (ctx : Context) (message : PyVal)
    (args : List String) :
    Effect.Leaves f (setcmdHandler env ctx message args) :=
  (callApi_leaves hf _).bind fun _ => Effect.leaves_pure _ _

theorem idHandler_leaves (hf : Overlooks f) (ctx : Context) (message : PyVal)
    (args : List String) :
    Effect.Leaves f (idHandler env ctx message args) :=
  inChat_leaves fun _ =>
    (Effect.leaves_lift _ _).bind fun _ =>
      (Effect.leaves_lift _ _).bind fun _ => sendMessage_leaves hf _ _ _

theorem calcHandler_leaves (hf : Overlooks f) (ctx : Context) (message : PyVal)
    (args : List String) :
    Effect.Leaves f (calcHandler env ctx message args) := by
  refine inChat_leaves fun chatId => (sendMessage_leaves hf _ _ _).ite ?_
  split
  · exact sendMessage_leaves hf _ _ _
  · exact Effect.leaves_lift _ _
  · exact sendMessage_leaves hf _ _ _

theorem settingsHandler_leaves (hf : Overlooks f) (ctx : Context) (message : PyVal)
    (args : List String) :
    Effect.Leaves f (settingsHandler env ctx message args) :=
  inChat_leaves fun _ =>
    (Effect.leaves_query _ _).bind fun _ => sendMessage_leaves hf _ _ _

theorem adminsHandler_leaves (hf : Overlooks f) (ctx : Context) (message : PyVal)
    (args : List String) :
    Effect.Leaves f (adminsHandler env ctx message args) :=
  inChat_leaves fun _ =>
    (Effect.leaves_query _ _).bind fun _ => sendMessage_leaves hf _ _ _

theorem filterHandler_leaves (hf : Overlooks f) (ctx : Context) (message : PyVal)
    (args : List String) :
    Effect.Leaves f (filterHandler env ctx message args) := by
  refine inChat_leaves fun chatId => ?_
  cases args with
  | nil => exact sendMessage_leaves hf _ _ _
  | cons word rest =>
      refine Effect.Leaves.ite ?_ ?_
      · refine (Effect.leaves_query _ _).bind fun filters => ?_
        exact (sendMessage_leaves hf _ _ _).ite (sendMessage_leaves hf _ _ _)
      · cases rest with
        | nil => exact sendMessage_leaves hf _ _ _
        | cons word rest =>
            refine Effect.Leaves.ite ?_ (Effect.Leaves.ite ?_ (Effect.leaves_pure _ _))
            · exact (addFilter_leaves hf _ _ _ _).bind fun _ => sendMessage_leaves hf _ _ _
            · exact (removeFilter_leaves hf _ _).bind fun _ => sendMessage_leaves hf _ _ _

/-- By induction on the messages still to delete. -/
theorem deleteEach_leaves (hf : Overlooks f) (chatId : PyVal) (deleted failed : Nat)
    (messageIds : List String) :
    Effect.Leaves f (deleteEach env chatId deleted failed messageIds) := by
  induction messageIds generalizing deleted failed with
  | nil => exact Effect.leaves_pure _ _
  | cons messageId messageIds ih =>
      refine Effect.Leaves.bind (Effect.Leaves.attempt (callApi_leaves hf _)) fun outcome => ?_
      exact (ih _ _).ite (ih _ _)

theorem deleteHandler_leaves (hf : Overlooks f) (ctx : Context) (message : PyVal)
    (args : List String) :
    Effect.Leaves f (deleteHandler env ctx message args) := by
  refine inChat_leaves fun chatId => ?_
  cases deleteLimit env.unicode args with
  | none => exact sendMessage_leaves hf _ _ _
  | some limit =>
      refine (sendMessage_leaves hf _ _ _).ite ?_
      refine (Effect.leaves_query _ _).bind fun messageIds => ?_
      refine (sendMessage_leaves hf _ _ _).ite ?_
      exact (deleteEach_leaves hf _ _ _ _).bind fun _ => sendMessage_leaves hf _ _ _

theorem banHandler_leaves (hf : Overlooks f) (ctx : Context) (message : PyVal)
    (args : List String) :
    Effect.Leaves f (banHandler env ctx message args) :=
  inChat_leaves fun _ => (Effect.leaves_lift _ _).bind fun _ =>
    (banChatMember_leaves hf _ _).ite (Effect.leaves_pure _ _)

theorem unbanHandler_leaves (hf : Overlooks f) (ctx : Context) (message : PyVal)
    (args : List String) :
    Effect.Leaves f (unbanHandler env ctx message args) := by
  refine inChat_leaves fun chatId => ?_
  cases args with
  | nil => exact Effect.leaves_pure _ _
  | cons word rest => exact (callApi_leaves hf _).bind fun _ => Effect.leaves_pure _ _

/-- `/antilink` writes to `groups`, but not to the message log. -/
theorem antilinkHandler_messages (ctx : Context) (message : PyVal) (args : List String) :
    Effect.Leaves World.messages (antilinkHandler env ctx message args) := by
  refine inChat_leaves fun chatId => ?_
  cases args with
  | nil => exact Effect.leaves_pure _ _
  | cons word rest =>
      exact (setGroupFlag_messages _ _ _).bind fun _ => sendMessage_leaves messages_overlooks _ _ _

end RubicaBot
