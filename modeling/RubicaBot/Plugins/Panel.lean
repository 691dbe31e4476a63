import RubicaBot.Plugins.Commands

/-!
# RubicaBot.Plugins.Panel

`app/services/plugins/panel.py`: the settings panel.

The chat of a button press comes from the callback, not from the message, and
nothing is asked about the sender.
-/

namespace RubicaBot

open Py BotM

/-- What an update asks of the panel. -/
inductive PanelRequest where
  /-- `/panel`. -/
  | panel (chatId : PyVal)
  /-- A press of one of the two toggles. -/
  | toggle (chatId : PyVal) (key : Flag) (callback : PyVal)
  | filters (chatId : PyVal)
  | delete (chatId : PyVal)

/-- `PanelPlugin.handle` up to the branch it takes. -/
def panelRequest (update : PyVal) : Except PyError (Option PanelRequest) := do
  let message ← extractMessage update
  unless message.truthy do return none
  let text ← ((← message.get "text").or (.str "")).asStr
  if startsWith text "/panel" then return some (.panel (← getChatId message))
  let callback ← update.get "callback_query"
  unless callback.truthy do return none
  let chatId ← callback.get "chat_id"
  let data ← callback.get "data"
  unless chatId.truthy && data.truthy do return none
  let data ← data.asStr
  unless startsWith data "panel:" do return none
  if data = "panel:anti_link" then return some (.toggle chatId .antiLink callback)
  if data = "panel:anti_flood" then return some (.toggle chatId .antiFlood callback)
  if data = "panel:filters" then return some (.filters chatId)
  if data = "panel:delete" then return some (.delete chatId)
  return none

/-- A button of the panel. -/
def button (text callbackData : String) : PyVal :=
  .dict [("text", .str text), ("callback_data", .str callbackData)]

/-- `_build_keypad`. -/
def buildKeypad (settings : GroupSettings) : PyVal :=
  .dict [("rows", .list
    [.dict [("buttons", .list
      [button ("Anti Link: " ++ onOff settings.antiLink) "panel:anti_link",
        button ("Anti Flood: " ++ onOff settings.antiFlood) "panel:anti_flood"])],
      .dict [("buttons", .list
        [button "Filters" "panel:filters", button "Delete Tools" "panel:delete"])]])]

/-- `_refresh_panel`. -/
def refreshPanel (env : Env) (chatId callback : PyVal) : BotM Unit := do
  let messageId ← Effect.lift (callback.get "message_id")
  if messageId.truthy then do
    let settings ← getGroup chatId
    let _ ← callApi env (.editInlineKeypad chatId messageId (buildKeypad settings))
  else pure ()

/-- What the chat is told about a toggle. -/
def toggleNotice : Flag → String
  | .antiLink => "تنظیم Anti Link به‌روزرسانی شد."
  | _ => "تنظیم Anti Flood به‌روزرسانی شد."

/-- `panel:anti_link` and `panel:anti_flood`. -/
def togglePanel (env : Env) (chatId : PyVal) (key : Flag) (callback : PyVal) : BotM Unit := do
  let settings ← getGroup chatId
  setGroupFlag chatId key (!settings.flag key)
  sendMessage env chatId (toggleNotice key)
  refreshPanel env chatId callback

/-- `panel:filters`. -/
def showFilters (env : Env) (chatId : PyVal) : BotM Unit := do
  let filters ← listFilters chatId
  if filters = [] then
    sendMessage env chatId "لیست فیلتر خالی است. با /filter add <word> اضافه کنید."
  else sendMessage env chatId ("فیلترها:\n" ++ filterLines filters)

/-- `/panel`: the panel of the chat, if there is one. -/
def showPanel (env : Env) (chatId : PyVal) : BotM Unit :=
  if chatId.truthy then do
    let settings ← getGroup chatId
    sendMessage env chatId "پنل مدیریت" (some (buildKeypad settings))
  else pure ()

/-- The branches of `PanelPlugin.handle`. -/
def servePanel (env : Env) : PanelRequest → BotM Unit
  | .panel chatId => showPanel env chatId
  | .toggle chatId key callback => togglePanel env chatId key callback
  | .filters chatId => showFilters env chatId
  | .delete chatId => sendMessage env chatId "برای حذف انبوه از /del <n> استفاده کنید."

/-- `PanelPlugin.handle`. -/
def panelPlugin : Plugin := fun env _ update => do
  match ← Effect.lift (panelRequest update) with
  | none => return false
  | some request => do
      servePanel env request
      return true

/-! ## what it leaves alone -/

variable {env : Env} {τ : Type} {f : World → τ}

theorem refreshPanel_leaves (hf : Overlooks f) (chatId callback : PyVal) :
    Effect.Leaves f (refreshPanel env chatId callback) := by
  refine (Effect.leaves_lift _ _).bind fun messageId =>
    Effect.Leaves.ite ?_ (Effect.leaves_pure _ _)
  refine (Effect.leaves_query _ _).bind fun settings => ?_
  exact (callApi_leaves hf _).bind fun _ => Effect.leaves_pure _ _

/-- Only a toggle configures a group. -/
theorem servePanel_leaves (hf : Overlooks f) {request : PanelRequest}
    (h : ∀ chatId key callback, request ≠ .toggle chatId key callback) :
    Effect.Leaves f (servePanel env request) := by
  cases request with
  | panel chatId =>
      refine Effect.Leaves.ite ?_ (Effect.leaves_pure _ _)
      exact (Effect.leaves_query _ _).bind fun _ => sendMessage_leaves hf _ _ _
  | toggle chatId key callback => exact absurd rfl (h chatId key callback)
  | filters chatId =>
      refine (Effect.leaves_query _ _).bind fun filters => ?_
      exact (sendMessage_leaves hf _ _ _).ite (sendMessage_leaves hf _ _ _)
  | delete chatId => exact sendMessage_leaves hf _ _ _

/-- What every branch keeps, `PanelPlugin` keeps. -/
theorem panelPlugin_preserves {I : World → Prop} {ctx : Context} {update : PyVal}
    (h : ∀ request, Effect.Preserves I (servePanel env request)) :
    Effect.Preserves I (panelPlugin env ctx update) := by
  refine Effect.Preserves.bind (fun _ hw => hw) fun request => ?_
  cases request with
  | none => exact Effect.preserves_pure _ _
  | some request => exact (h request).bind fun _ => Effect.preserves_pure _ _

/-- The panel does not touch the message log. -/
theorem servePanel_messages (request : PanelRequest) :
    Effect.Leaves World.messages (servePanel env request) := by
  cases request with
  | toggle chatId key callback =>
      refine (Effect.leaves_query _ _).bind fun settings =>
        (setGroupFlag_messages _ _ _).bind fun _ => ?_
      exact (sendMessage_leaves messages_overlooks _ _ _).bind fun _ =>
        refreshPanel_leaves messages_overlooks _ _
  | _ => exact servePanel_leaves messages_overlooks nofun

end RubicaBot
