import RubicaBot.Coroutine
import RubicaBot.Plugins.Dispatch

/-!
# RubicaBot.Plugins.Suspending

The plugins and the handlers as coroutines, with the `await`s at which a dispatch
suspends: the calls of the client, and the pause that `delete_handler` makes after every
25 messages.  The repository and the flood histories are reached without suspending.

`Performs` relates a coroutine to the computation over a `World` that it is when it has
the process to itself, one lemma for each function; so `processJob_performs` says that the
two models of a dispatch are one.
-/

namespace RubicaBot

open Py

/-- What the dispatches share. -/
structure Tables where
  rules : Rules
  messages : List MessageRow := []
  incomingUpdates : List IncomingRow := []
  /-- `AntiFloodPlugin._events`. -/
  floodEvents : Dict String (List Instant) := ∅
  flagWrites : List FlagWrite := []

/-- The world without the client. -/
def World.tables (w : World) : Tables :=
  ⟨w.rules, w.messages, w.incomingUpdates, w.floodEvents, w.flagWrites⟩

/-- The world of a client that has made these calls. -/
def Tables.world (t : Tables) (apiCalls : List ApiCall) : World :=
  ⟨t.rules, t.messages, t.incomingUpdates, t.floodEvents, apiCalls, t.flagWrites⟩

@[simp] theorem World.tables_world (t : Tables) (apiCalls : List ApiCall) :
    (t.world apiCalls).tables = t := rfl

@[simp] theorem World.apiCalls_world (t : Tables) (apiCalls : List ApiCall) :
    (t.world apiCalls).apiCalls = apiCalls := rfl

@[simp] theorem World.world_tables (w : World) : w.tables.world w.apiCalls = w := rfl

/-- What a dispatch waits for. -/
inductive Suspension where
  | api (call : ApiCall)
  /-- `asyncio.sleep(0.3)`. -/
  | sleep

/-- A coroutine of a dispatch. -/
abbrev Suspending := Coroutine Tables Suspension PyVal PyError

/-- `True` ends the dispatch. -/
abbrev SuspendingPlugin := Env → Context → PyVal → Suspending Bool

/-- A handler gets the message and the words after the command. -/
abbrev SuspendingHandler := Env → Context → PyVal → List String → Suspending Unit

namespace Suspending

/-! ## the client and the repository -/

/-- `RubikaClient.api_call`, seen from outside: the call is made, and the reply awaited. -/
def callApi (call : ApiCall) : Suspending PyVal := .call (.api call)

/-- `send_message`; the reply is not looked at. -/
def sendMessage (chatId : PyVal) (text : String) (inlineKeypad : Option PyVal := none) :
    Suspending Unit := do
  let _ ← callApi (.sendMessage chatId text inlineKeypad)

/-- `delete_message`. -/
def deleteMessage (chatId messageId : PyVal) : Suspending PyVal :=
  callApi (.deleteMessage chatId messageId)

/-- `ban_chat_member`. -/
def banChatMember (chatId userId : PyVal) : Suspending Unit := do
  let _ ← callApi (.banChatMember chatId userId)

/-- `asyncio.sleep(0.3)`. -/
def sleep : Suspending Unit := do
  let _ ← Coroutine.call Suspension.sleep

/-- `get_group`, without its cache. -/
def getGroup (chatId : PyVal) : Suspending GroupSettings :=
  .atomic (.query fun t => t.rules.getGroup chatId)

/-- `list_filters`. -/
def listFilters (chatId : PyVal) : Suspending (List Filter) :=
  .atomic (.query fun t => t.rules.listFilters chatId)

/-- `set_group_flag`, noted down. -/
def setGroupFlag (chatId : PyVal) (key : Flag) (value : Bool) : Suspending Unit :=
  .atomic (.tryUpdate fun t => do
    let rules ← t.rules.setGroupFlag chatId key value
    return { t with rules := rules, flagWrites := t.flagWrites ++ [⟨chatId, key, value⟩] })

/-- `add_filter`. -/
def addFilter (chatId : PyVal) (word : String) (isWhitelist regexEnabled : Bool) :
    Suspending Unit :=
  .atomic (.tryUpdate fun t => do
    return { t with rules := ← t.rules.addFilter chatId word isWhitelist regexEnabled })

/-- `remove_filter`. -/
def removeFilter (chatId : PyVal) (word : String) : Suspending Unit :=
  .atomic (.tryUpdate fun t => do
    return { t with rules := ← t.rules.removeFilter chatId word })

/-! ## the handlers -/

/-- `chat_id = get_chat_id(message)`, and nothing more if there is none. -/
def inChat (message : PyVal) (act : PyVal → Suspending Unit) : Suspending Unit := do
  let chatId ← Coroutine.lift (getChatId message)
  if chatId.truthy then act chatId else pure ()

/-- The handlers that answer with a text, whatever the message is. -/
def replyWith (text : Env → Context → List String → String) : SuspendingHandler :=
  fun env ctx message args => inChat message fun chatId => sendMessage chatId (text env ctx args)

/-- `/help`: the registered commands, one on each line. -/
def helpHandler : SuspendingHandler := replyWith fun _ ctx _ =>
  "\n".intercalate
    ("راهنما:" :: ctx.commandRegistry.listCommands.map fun c => "/" ++ c.1 ++ " - " ++ c.2)

/-- `/setcmd` is the one handler that asks for no chat. -/
def setcmdHandler : SuspendingHandler := fun _ ctx _ _ => do
  let _ ← callApi (.setCommands ctx.commandRegistry.listCommands)

/-- `/ping`. -/
def pingHandler : SuspendingHandler := replyWith fun _ _ _ => "pong"

/-- `/coin`. -/
def coinHandler : SuspendingHandler := replyWith fun env _ _ => env.choice ["شیر", "خط"]

/-- `/roll`: `randint(1, 6)`. -/
def rollHandler : SuspendingHandler :=
  replyWith fun env _ _ => "🎲 " ++ toString (env.pick 6 % 6 + 1)

/-- `/joke`. -/
def jokeHandler : SuspendingHandler := replyWith fun env _ _ => env.choice
  ["ربات: چرا کامپیوتر سردش بود؟ چون همیشه پنجره‌ها باز بود.",
    "برنامه‌نویس: قهوه بدون کد؟ هرگز!",
    "وقتی دیباگ می‌کنی، باگ هم زمان یاد می‌گیره!"]

/-- `/uptime`, if there are statistics. -/
def uptimeHandler : SuspendingHandler := replyWith fun _ ctx _ =>
  match ctx.stats with
  | none => "آمار در دسترس نیست."
  | some stats => "Uptime: " ++ formatDuration stats.uptimeSeconds

/-- `/stats`, as they were when the dispatch began. -/
def statsHandler : SuspendingHandler := replyWith fun _ ctx _ =>
  match ctx.stats with
  | none => "آمار در دسترس نیست."
  | some stats =>
      "Updates: " ++ toString stats.totalUpdates ++ "\n" ++
      "Errors: " ++ toString stats.totalErrors ++ "\n" ++
      "Avg dispatch: " ++ stats.averageDispatchMs ++ "ms\n" ++
      "Last dispatch: " ++ stats.lastDispatchMs ++ "ms\n" ++
      "Last queue size: " ++ toString stats.lastQueueSize ++ "\n" ++
      "Uptime: " ++ formatDuration stats.uptimeSeconds

/-- `/echo`. -/
def echoHandler : SuspendingHandler := replyWith fun _ _ args =>
  if args = [] then "متن ارسال نشده است." else " ".intercalate args

/-- `/id`: the ids are shown as `str` shows them, `None` included. -/
def idHandler : SuspendingHandler := fun env _ message _ => inChat message fun chatId => do
  let senderId ← Coroutine.lift (getSenderId message)
  let messageId ← Coroutine.lift (getMessageId message)
  sendMessage chatId
    ("Chat ID: " ++ chatId.toStr env.unicode ++ "\nUser ID: " ++ senderId.toStr env.unicode ++
      "\nMessage ID: " ++ messageId.toStr env.unicode)

/-- `/time`. -/
def timeHandler : SuspendingHandler := replyWith fun env _ _ => env.utcNow

/-- `/calc`: a `ValueError` of `safe_eval` is told to the chat, any other leaves the handler. -/
def calcHandler : SuspendingHandler := fun env _ message args => inChat message fun chatId =>
  if args = [] then sendMessage chatId "استفاده: /calc 2+2"
  else
    match env.safeEval (" ".intercalate args) with
    | .error (.valueError, text) => sendMessage chatId ("خطا: " ++ text)
    | .error (e, _) => Coroutine.lift (.error e)
    | .ok result => sendMessage chatId ("= " ++ result)

/-- `/about`. -/
def aboutHandler : SuspendingHandler := replyWith fun _ ctx _ =>
  "Rubika Bot API v" ++ ctx.version.getD "unknown"

/-- `/models`. -/
def modelsHandler : SuspendingHandler := replyWith fun env _ _ => env.modelsDoc

/-- `/settings`. -/
def settingsHandler : SuspendingHandler := fun _ _ message _ => inChat message fun chatId => do
  let settings ← getGroup chatId
  sendMessage chatId (settingsText settings)

/-- `/admins` counts them and names none. -/
def adminsHandler : SuspendingHandler := fun _ _ message _ => inChat message fun chatId => do
  let total ← Coroutine.atomic (.query fun t => t.rules.countAdmins chatId)
  sendMessage chatId ("Admin count: " ++ toString total)

/-- `/antilink`: any word but `on` means off. -/
def antilinkHandler : SuspendingHandler := fun env _ message args =>
  inChat message fun chatId =>
    match args with
    | [] => pure ()
    | word :: _ => do
        let value := env.unicode.lower word == "on"
        setGroupFlag chatId .antiLink value
        sendMessage chatId ("Anti Link " ++ onOff value)

/-- `/filter`: an action that is not known is passed over in silence, if a word comes with
it. -/
def filterHandler : SuspendingHandler := fun env _ message args =>
  inChat message fun chatId =>
    match args with
    | [] => sendMessage chatId "استفاده: /filter add|del|list <word>"
    | word :: rest =>
        let action := env.unicode.lower word
        if action = "list" then do
          let filters ← listFilters chatId
          if filters = [] then sendMessage chatId "فیلتر خالی است."
          else sendMessage chatId (filterLines filters)
        else
          match rest with
          | [] => sendMessage chatId "کلمه را وارد کنید."
          | word :: _ =>
              if action = "add" then do
                addFilter chatId word false false
                sendMessage chatId (word ++ " به لیست سیاه اضافه شد.")
              else if action = "del" then do
                removeFilter chatId word
                sendMessage chatId (word ++ " حذف شد.")
              else pure ()

/-- The loop of `delete_handler`, at its `idx`-th message; it pauses after every 25. -/
def deleteEach (chatId : PyVal) (idx deleted failed : Nat) :
    List String → Suspending (Nat × Nat)
  | [] => pure (deleted, failed)
  | messageId :: messageIds => do
      let outcome ← (deleteMessage chatId (.str messageId)).attempt
      Coroutine.when (idx % 25 == 0) sleep
      if countsAsDeleted outcome then deleteEach chatId (idx + 1) (deleted + 1) failed messageIds
      else deleteEach chatId (idx + 1) deleted (failed + 1) messageIds

/-- `/del`: the newest messages of the chat, 10000 of them at most. -/
def deleteHandler : SuspendingHandler := fun env _ message args =>
  inChat message fun chatId =>
    match deleteLimit env.unicode args with
    | none => sendMessage chatId "عدد نامعتبر است. مثال: /del 100"
    | some limit => do
        let limit := (max 0 (min limit 10000)).toNat
        if limit = 0 then sendMessage chatId "هیچ پیامی برای حذف انتخاب نشد."
        else do
          let messageIds ←
            Coroutine.atomic (.query fun t => fetchRecentMessageIds t.messages chatId limit)
          if messageIds = [] then sendMessage chatId "پیامی برای حذف پیدا نشد."
          else do
            let (deleted, failed) ← deleteEach chatId 1 0 0 messageIds
            sendMessage chatId
              ("حذف شد: " ++ toString deleted ++ " | ناموفق: " ++ toString failed)

/-- `/ban`. -/
def banHandler : SuspendingHandler := fun _ _ message args => inChat message fun chatId => do
  let targetId ← Coroutine.lift (banTarget message args)
  if targetId.truthy then banChatMember chatId targetId else pure ()

/-- `/unban`: the id is the word after the command. -/
def unbanHandler : SuspendingHandler := fun _ _ message args => inChat message fun chatId =>
  match args with
  | [] => pure ()
  | word :: _ => do
      let _ ← callApi (.unbanChatMember chatId (.str word))

/-- The handlers by the names of their commands. -/
def handlers : List (String × SuspendingHandler) :=
  [("help", helpHandler), ("setcmd", setcmdHandler), ("ping", pingHandler),
    ("uptime", uptimeHandler), ("stats", statsHandler), ("echo", echoHandler), ("id", idHandler),
    ("time", timeHandler), ("calc", calcHandler), ("coin", coinHandler), ("roll", rollHandler),
    ("joke", jokeHandler), ("models", modelsHandler), ("about", aboutHandler),
    ("settings", settingsHandler), ("admins", adminsHandler), ("antilink", antilinkHandler),
    ("filter", filterHandler), ("del", deleteHandler), ("ban", banHandler),
    ("unban", unbanHandler)]

/-- The handler of the command, by its name. -/
def handlerOf (name : String) : SuspendingHandler :=
  (handlers.lookup name).getD fun _ _ _ _ => pure ()

/-! ## the plugins -/

/-- `IncomingSnapshotPlugin.handle`. -/
def incomingSnapshotPlugin : SuspendingPlugin := fun env ctx update => do
  let row ← Coroutine.lift (snapshotOf env ctx update)
  Coroutine.atomic (.update fun t =>
    { t with incomingUpdates := row.toList ++ t.incomingUpdates })
  return false

/-- `MessageLoggingPlugin.handle`. -/
def messageLoggingPlugin : SuspendingPlugin := fun _ _ update => do
  Coroutine.atomic (.tryUpdate fun t => do
    return { t with messages := ← logMessage t.messages update })
  return false

/-- A plugin that returns `False` unless it finds something to act on.  It finds it without
suspending. -/
def actOn {α : Type} (find : Tables → Except PyError (Option α)) (act : α → Suspending Bool) :
    Suspending Bool := do
  match ← Coroutine.atomic (Effect.query find) with
  | none => return false
  | some x => act x

/-- `AntiLinkPlugin.handle`. -/
def antiLinkPlugin : SuspendingPlugin := fun env ctx update =>
  actOn (fun t => antiLinkOffence env t.rules update) fun o => do
    Coroutine.when o.messageId.truthy (deleteMessage o.chatId o.messageId)
    Coroutine.when o.senderId.truthy (banChatMember o.chatId o.senderId)
    Coroutine.when ctx.reportAntiActions (sendMessage o.chatId linkNotice)
    return true

/-- What `AntiFloodPlugin` does once there are too many. -/
def punishFlood (s : FloodSubject) : Suspending Bool := do
  let messageId ← Coroutine.lift do
    (← s.message.get "message_id").orElse (s.message.get "id")
  Coroutine.when messageId.truthy (deleteMessage s.chatId messageId)
  banChatMember s.chatId s.senderId
  return true

/-- The message is counted before anything is awaited. -/
def countMessage (env : Env) (s : FloodSubject) : Suspending Bool := do
  let exceeded ← Coroutine.atomic (.query fun t => .ok (s.exceeds env t.floodEvents))
  Coroutine.atomic (.update fun t =>
    { t with
      floodEvents :=
        t.floodEvents.insert (s.key env) (floodHistory env t.floodEvents (s.key env)) })
  if exceeded then punishFlood s else return false

/-- `AntiFloodPlugin.handle`. -/
def antiFloodPlugin : SuspendingPlugin := fun env _ update =>
  actOn (fun t => antiFloodSubject t.rules update) (countMessage env)

/-- `FilterWordsPlugin.handle`. -/
def filterWordsPlugin : SuspendingPlugin := fun env _ update =>
  actOn (fun t => filterOffence env t.rules update) fun o => do
    Coroutine.when o.messageId.truthy (deleteMessage o.chatId o.messageId)
    return true

/-- `CommandsPlugin.handle`. -/
def commandsPlugin (registry : CommandRegistry) : SuspendingPlugin := fun env ctx update => do
  match ← Coroutine.atomic (.query fun t => commandVerdict env ctx registry t.rules update) with
  | .ignored => return false
  | .denied chatId => do
      sendMessage chatId deniedNotice
      return true
  | .invoked inv => do
      handlerOf inv.command.name env ctx inv.message inv.args
      return true

/-- `_refresh_panel`: the settings are asked for again, after the notice has been sent. -/
def refreshPanel (chatId callback : PyVal) : Suspending Unit := do
  let messageId ← Coroutine.lift (callback.get "message_id")
  if messageId.truthy then do
    let settings ← getGroup chatId
    let _ ← callApi (.editInlineKeypad chatId messageId (buildKeypad settings))
  else pure ()

/-- `panel:anti_link` and `panel:anti_flood`: the flag is read and written without suspending. -/
def togglePanel (chatId : PyVal) (key : Flag) (callback : PyVal) : Suspending Unit := do
  let settings ← getGroup chatId
  setGroupFlag chatId key (!settings.flag key)
  sendMessage chatId (toggleNotice key)
  refreshPanel chatId callback

/-- `panel:filters`. -/
def showFilters (chatId : PyVal) : Suspending Unit := do
  let filters ← listFilters chatId
  if filters = [] then
    sendMessage chatId "لیست فیلتر خالی است. با /filter add <word> اضافه کنید."
  else sendMessage chatId ("فیلترها:\n" ++ filterLines filters)

/-- `/panel`: the panel of the chat, if there is one. -/
def showPanel (chatId : PyVal) : Suspending Unit :=
  if chatId.truthy then do
    let settings ← getGroup chatId
    sendMessage chatId "پنل مدیریت" (some (buildKeypad settings))
  else pure ()

/-- The branches of `PanelPlugin.handle`. -/
def servePanel : PanelRequest → Suspending Unit
  | .panel chatId => showPanel chatId
  | .toggle chatId key callback => togglePanel chatId key callback
  | .filters chatId => showFilters chatId
  | .delete chatId => sendMessage chatId "برای حذف انبوه از /del <n> استفاده کنید."

/-- `PanelPlugin.handle`. -/
def panelPlugin : SuspendingPlugin := fun _ _ update => do
  match ← Coroutine.lift (panelRequest update) with
  | none => return false
  | some request => do
      servePanel request
      return true

/-! ## the chain -/

/-- `PluginRegistry.dispatch`: the first plugin that returns `True` is the last to be asked. -/
def dispatch (env : Env) (ctx : Context) (update : PyVal) :
    List SuspendingPlugin → Suspending Unit
  | [] => pure ()
  | plugin :: plugins => do
      let handled ← plugin env ctx update
      if handled then pure () else dispatch env ctx update plugins

/-- The plugins of `startup`, in the order in which they are registered. -/
def startupPlugins : List SuspendingPlugin :=
  [incomingSnapshotPlugin, messageLoggingPlugin, antiLinkPlugin, antiFloodPlugin, filterWordsPlugin,
    commandsPlugin startupRegistry, panelPlugin]

/-- What of a job is dispatched. -/
def updateOf (job : Job) : PyVal := job.rawPayload.or .emptyDict

/-- `_process_job`. -/
def processJob (env : Env) (ctx : Context) (job : Job) : Suspending Unit :=
  dispatch env { ctx with job := some job } (updateOf job) startupPlugins

end Suspending

end RubicaBot
