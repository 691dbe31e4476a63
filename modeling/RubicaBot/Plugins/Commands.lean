import RubicaBot.Handlers
import RubicaBot.Plugins.Moderation

/-!
# RubicaBot.Plugins.Commands

`app/services/plugins/commands.py` and the commands `app/main.py` registers.

`CommandsPlugin.handle` is split in what it finds out (`commandVerdict`, which
reads only) and what it does about it; the handler of a command runs exactly
when the verdict is `invoked`.
-/

namespace RubicaBot

open Py BotM

/-- A command with its handler. -/
abbrev Command := CommandOf Handler

/-- `CommandRegistry`. -/
abbrev CommandRegistry := CommandRegistryOf Handler

/-- A command an update asks for, the message it comes in and its words. -/
structure Invocation where
  command : Command
  message : PyVal
  args : List String

/-- The command an update asks for: the first half of `CommandsPlugin.handle`. -/
def requestedCommand (env : Env) (registry : CommandRegistry) (update : PyVal) :
    Except PyError (Option Invocation) := do
  let message ← extractMessage update
  unless message.truthy do return none
  let text ← getText message
  unless text.truthy do return none
  let text ← text.asStr
  unless startsWith text "/" do return none
  match split (strip text) with
  | [] => throw .indexError
  | word :: args =>
      match registry.get (env.unicode.lower (lstrip (· == '/') word)) with
      | none => return none
      | some command => return some { command, message, args }

/-- The command found is a registered one, and its message is the update's. -/
theorem requestedCommand_eq_some {env : Env} {registry : CommandRegistry} {update : PyVal}
    {inv : Invocation} (h : requestedCommand env registry update = .ok (some inv)) :
    inv.command ∈ registry.commands ∧ extractMessage update = .ok inv.message := by
  simp only [requestedCommand, Effect.bind_eq_ok_iff, Effect.ite_none_eq_some_iff] at h
  obtain ⟨message, hmessage, -, _, -, -, text, -, -, h⟩ := h
  split at h
  · cases h
  · split at h
    · cases h
    · next command hcommand =>
        cases h
        exact ⟨(CommandRegistryOf.get_eq_some hcommand).1, hmessage⟩

/-- What `CommandsPlugin.handle` does with an update. -/
inductive Verdict where
  | ignored
  /-- The sender is told that the command is for admins. -/
  | denied (chatId : PyVal)
  /-- The handler of the command runs. -/
  | invoked (inv : Invocation)

/-- `sender_id != owner_id and not repo.is_admin(chat_id, sender_id)`, negated. -/
def Rules.mayCommand (rules : Rules) (ctx : Context) (chatId senderId : PyVal) :
    Except PyError Bool :=
  if ctx.isOwner senderId then .ok true else rules.isAdmin chatId senderId

/-- The checks of `CommandsPlugin.handle`. -/
def commandVerdict (env : Env) (ctx : Context) (registry : CommandRegistry) (rules : Rules)
    (update : PyVal) : Except PyError Verdict := do
  match ← requestedCommand env registry update with
  | none => return .ignored
  | some inv =>
      let chatId ← getChatId inv.message
      let senderId ← getSenderId inv.message
      if inv.command.adminOnly && chatId.truthy && senderId.truthy then
        if ← rules.mayCommand ctx chatId senderId then return .invoked inv
        else return .denied chatId
      else return .invoked inv

/-- What a sender without the rights is told. -/
def deniedNotice : String := "این دستور فقط برای ادمین‌هاست."

/-- `CommandsPlugin.handle`. -/
def commandsPlugin (registry : CommandRegistry) : Plugin := fun env ctx update => do
  match ← Effect.query fun w => commandVerdict env ctx registry w.rules update with
  | .ignored => return false
  | .denied chatId => do
      sendMessage env chatId deniedNotice
      return true
  | .invoked inv => do
      inv.command.handler env ctx inv.message inv.args
      return true

section Handle

variable {env : Env} {ctx : Context} {registry : CommandRegistry} {update : PyVal}

/-- The owner may, and an admin of the chat. -/
theorem Rules.mayCommand_iff {rules : Rules} {chatId senderId : PyVal} :
    rules.mayCommand ctx chatId senderId = .ok true ↔
      ctx.isOwner senderId ∨ rules.isAdmin chatId senderId = .ok true := by
  unfold Rules.mayCommand
  cases ctx.isOwner senderId <;> simp

/-- **Inversion.**  The handler of a command runs if the ids can be read and, for
an admin command whose message carries both, if the sender may command. -/
theorem commandVerdict_eq_invoked {rules : Rules} {inv : Invocation} :
    commandVerdict env ctx registry rules update = .ok (.invoked inv) ↔
      requestedCommand env registry update = .ok (some inv) ∧
        ∃ chatId senderId, getChatId inv.message = .ok chatId ∧
          getSenderId inv.message = .ok senderId ∧
          (inv.command.adminOnly → chatId.truthy → senderId.truthy →
            rules.mayCommand ctx chatId senderId = .ok true) := by
  constructor
  · intro h
    obtain ⟨requested, hrequested, h⟩ := Effect.exists_of_bind_eq_ok h
    cases requested with
    | none => cases h
    | some inv' =>
        obtain ⟨chatId, hchat, h⟩ := Effect.exists_of_bind_eq_ok h
        obtain ⟨senderId, hsender, h⟩ := Effect.exists_of_bind_eq_ok h
        split at h
        · obtain ⟨may, hmay, h⟩ := Effect.exists_of_bind_eq_ok h
          cases may with
          | false => cases h
          | true =>
              cases h
              exact ⟨hrequested, chatId, senderId, hchat, hsender, fun _ _ _ => hmay⟩
        · next hgate =>
            cases h
            refine ⟨hrequested, chatId, senderId, hchat, hsender, fun ha hc hs => ?_⟩
            exact absurd (by rw [ha, hc, hs]; rfl) hgate
  · intro h
    obtain ⟨hrequested, chatId, senderId, hchat, hsender, hmay⟩ := h
    unfold commandVerdict
    rw [hrequested]
    show (do
      let chatId ← getChatId inv.message
      let senderId ← getSenderId inv.message
      if inv.command.adminOnly && chatId.truthy && senderId.truthy then
        if ← rules.mayCommand ctx chatId senderId then return .invoked inv
        else return .denied chatId
      else return .invoked inv) = Except.ok (Verdict.invoked inv)
    rw [hchat, hsender]
    show (if inv.command.adminOnly && chatId.truthy && senderId.truthy then
        (do
          if ← rules.mayCommand ctx chatId senderId then return .invoked inv
          else return .denied chatId)
      else return .invoked inv) = Except.ok (Verdict.invoked inv)
    split
    · next hgate =>
        simp only [Bool.and_eq_true] at hgate
        rw [hmay hgate.1.1 hgate.1.2 hgate.2]
        rfl
    · rfl

/-- An update that names no command is not looked at any further. -/
theorem commandVerdict_eq_ignored {rules : Rules} :
    commandVerdict env ctx registry rules update = .ok .ignored ↔
      requestedCommand env registry update = .ok none := by
  constructor
  · intro h
    obtain ⟨requested, hrequested, h⟩ := Effect.exists_of_bind_eq_ok h
    cases requested with
    | none => exact hrequested
    | some inv =>
        obtain ⟨chatId, -, h⟩ := Effect.exists_of_bind_eq_ok h
        obtain ⟨senderId, -, h⟩ := Effect.exists_of_bind_eq_ok h
        split at h
        · obtain ⟨may, -, h⟩ := Effect.exists_of_bind_eq_ok h
          cases may <;> cases h
        · cases h
  · intro h
    unfold commandVerdict
    rw [h]
    rfl

variable {w : World}

/-- An update that cannot be read ends the dispatch. -/
theorem commandsPlugin_of_error {e : PyError}
    (h : commandVerdict env ctx registry w.rules update = .error e) :
    commandsPlugin registry env ctx update w = (.error e, w) :=
  Effect.bind_of_error (congrArg (·, w) h)

/-- One that is no command is passed on. -/
theorem commandsPlugin_of_ignored
    (h : commandVerdict env ctx registry w.rules update = .ok .ignored) :
    commandsPlugin registry env ctx update w = (.ok false, w) :=
  Effect.bind_of_ok (congrArg (·, w) h)

/-- A command that is denied is answered, and not passed on. -/
theorem commandsPlugin_of_denied {chatId : PyVal}
    (h : commandVerdict env ctx registry w.rules update = .ok (.denied chatId)) :
    (commandsPlugin registry env ctx update w).2 = (sendMessage env chatId deniedNotice none w).2 ∧
      (commandsPlugin registry env ctx update w).1 ≠ .ok false := by
  have hrun : commandsPlugin registry env ctx update w =
      (do sendMessage env chatId deniedNotice; return true : BotM Bool) w :=
    Effect.bind_of_ok (congrArg (·, w) h)
  rw [hrun]
  exact ⟨Effect.bind_pure_snd _ _ w,
    Effect.never_bind (fun _ => Effect.never_pure Bool.false_ne_true) w⟩

/-- One that is not denied runs its handler, and is not passed on either. -/
theorem commandsPlugin_of_invoked {inv : Invocation}
    (h : commandVerdict env ctx registry w.rules update = .ok (.invoked inv)) :
    (commandsPlugin registry env ctx update w).2 =
        (inv.command.handler env ctx inv.message inv.args w).2 ∧
      (commandsPlugin registry env ctx update w).1 ≠ .ok false := by
  have hrun : commandsPlugin registry env ctx update w =
      (do inv.command.handler env ctx inv.message inv.args; return true : BotM Bool) w :=
    Effect.bind_of_ok (congrArg (·, w) h)
  rw [hrun]
  exact ⟨Effect.bind_pure_snd _ _ w,
    Effect.never_bind (fun _ => Effect.never_pure Bool.false_ne_true) w⟩

/-- What the handlers and a denial keep, `CommandsPlugin` keeps. -/
theorem commandsPlugin_preserves {I : World → Prop}
    (hdenied : ∀ chatId, Effect.Preserves I (sendMessage env chatId deniedNotice))
    (hhandler : ∀ command ∈ registry.commands, ∀ message args,
      Effect.Preserves I (command.handler env ctx message args)) :
    Effect.Preserves I (commandsPlugin registry env ctx update) := by
  intro w hw
  cases hverdict : commandVerdict env ctx registry w.rules update with
  | error e =>
      rw [commandsPlugin_of_error hverdict]
      exact hw
  | ok verdict =>
      cases verdict with
      | ignored =>
          rw [commandsPlugin_of_ignored hverdict]
          exact hw
      | denied chatId =>
          rw [(commandsPlugin_of_denied hverdict).1]
          exact hdenied chatId w hw
      | invoked inv =>
          rw [(commandsPlugin_of_invoked hverdict).1]
          have hmem := (requestedCommand_eq_some (commandVerdict_eq_invoked.mp hverdict).1).1
          exact hhandler inv.command hmem inv.message inv.args w hw

end Handle

/-- The commands `startup` registers, in order. -/
def startupCommands : List Command :=
  [⟨"help", "نمایش راهنما", helpHandler, false⟩,
    ⟨"setcmd", "ثبت دستورات", setcmdHandler, true⟩,
    ⟨"ping", "تست سرعت", pingHandler, false⟩,
    ⟨"uptime", "نمایش مدت زمان اجرا", uptimeHandler, false⟩,
    ⟨"stats", "آمار پردازش", statsHandler, false⟩,
    ⟨"echo", "تکرار متن", echoHandler, false⟩,
    ⟨"id", "نمایش شناسه‌ها", idHandler, false⟩,
    ⟨"time", "زمان سرور", timeHandler, false⟩,
    ⟨"calc", "محاسبه ساده", calcHandler, false⟩,
    ⟨"coin", "شیر یا خط", coinHandler, false⟩,
    ⟨"roll", "تاس", rollHandler, false⟩,
    ⟨"joke", "جوک کوتاه", jokeHandler, false⟩,
    ⟨"models", "مدل ها", modelsHandler, false⟩,
    ⟨"about", "نسخه بات", aboutHandler, false⟩,
    ⟨"settings", "تنظیمات گروه", settingsHandler, true⟩,
    ⟨"admins", "تعداد ادمین‌ها", adminsHandler, true⟩,
    ⟨"antilink", "تنظیم ضد لینک", antilinkHandler, true⟩,
    ⟨"filter", "مدیریت فیلتر", filterHandler, true⟩,
    ⟨"del", "حذف انبوه", deleteHandler, true⟩,
    ⟨"ban", "بن کاربر", banHandler, true⟩,
    ⟨"unban", "رفع بن", unbanHandler, true⟩]

/-- The `command_registry` of `startup`. -/
def startupRegistry : CommandRegistry := startupCommands.foldl .register {}

/-- No name is registered twice. -/
theorem startupRegistry_commands : startupRegistry.commands = startupCommands := rfl

/-- There is one `/antilink`, and it is for admins. -/
theorem startupRegistry_antilink :
    ∀ command ∈ startupRegistry.commands, command.name = "antilink" →
      command.handler = antilinkHandler ∧ command.adminOnly := by
  simp [startupRegistry_commands, startupCommands]

/-- `/antilink` is the only command that configures a group. -/
theorem startupRegistry_leaves {τ : Type} {f : World → τ} (hf : Overlooks f) :
    ∀ command ∈ startupRegistry.commands, command.name ≠ "antilink" →
      ∀ env ctx message args,
        Effect.Leaves f (command.handler env ctx message args) := by
  simp only [startupRegistry_commands, startupCommands, List.forall_mem_cons]
  exact ⟨fun _ _ => replyWith_leaves hf _,
    fun _ _ => setcmdHandler_leaves hf,
    fun _ _ => replyWith_leaves hf _,
    fun _ _ => replyWith_leaves hf _,
    fun _ _ => replyWith_leaves hf _,
    fun _ _ => replyWith_leaves hf _,
    fun _ _ => idHandler_leaves hf,
    fun _ _ => replyWith_leaves hf _,
    fun _ _ => calcHandler_leaves hf,
    fun _ _ => replyWith_leaves hf _,
    fun _ _ => replyWith_leaves hf _,
    fun _ _ => replyWith_leaves hf _,
    fun _ _ => replyWith_leaves hf _,
    fun _ _ => replyWith_leaves hf _,
    fun _ _ => settingsHandler_leaves hf,
    fun _ _ => adminsHandler_leaves hf,
    fun h => absurd rfl h,
    fun _ _ => filterHandler_leaves hf,
    fun _ _ => deleteHandler_leaves hf,
    fun _ _ => banHandler_leaves hf,
    fun _ _ => unbanHandler_leaves hf,
    List.forall_mem_nil _⟩

/-- No command touches the message log. -/
theorem startupRegistry_messages :
    ∀ command ∈ startupRegistry.commands, ∀ env ctx message args,
      Effect.Leaves World.messages (command.handler env ctx message args) := by
  intro command hmem env ctx message args
  by_cases hname : command.name = "antilink"
  · rw [(startupRegistry_antilink command hmem hname).1]
    exact antilinkHandler_messages ctx message args
  · exact startupRegistry_leaves messages_overlooks command hmem hname env ctx message args

/-! ## the gate

`CommandsPlugin` asks for the sender's rights only if the message carries both a
chat id and a sender id.  `AsksAnonymously` is the complement of that guard, and
`gated_iff` says that it is exactly the hole: a command marked `admin_only` runs
for nobody but the owner and the admins of the chat, in any registry and any
state of the database, unless the update asks for it anonymously. -/

/-- The sender of the message is identified, in an identified chat, and is the
owner or an admin of that chat. -/
def Authorised (ctx : Context) (rules : Rules) (message : PyVal) : Prop :=
  ∃ chatId senderId, getChatId message = .ok chatId ∧ getSenderId message = .ok senderId ∧
    chatId.truthy ∧ senderId.truthy ∧
      (ctx.isOwner senderId ∨ rules.isAdmin chatId senderId = .ok true)

/-- Whenever `CommandsPlugin.handle` runs the handler of an admin-only command,
the sender is authorised. -/
def Gated (env : Env) (ctx : Context) (registry : CommandRegistry) (rules : Rules)
    (update : PyVal) : Prop :=
  ∀ inv, commandVerdict env ctx registry rules update = .ok (.invoked inv) →
    inv.command.adminOnly → Authorised ctx rules inv.message

/-- The update names an admin-only command in a message that lacks a chat id or
a sender id. -/
def AsksAnonymously (env : Env) (registry : CommandRegistry) (update : PyVal) : Prop :=
  ∃ inv chatId senderId, requestedCommand env registry update = .ok (some inv) ∧
    inv.command.adminOnly ∧ getChatId inv.message = .ok chatId ∧
    getSenderId inv.message = .ok senderId ∧ ¬ (chatId.truthy ∧ senderId.truthy)

/-- **The gate.** -/
theorem gated_iff (env : Env) (ctx : Context) (registry : CommandRegistry) (rules : Rules)
    (update : PyVal) :
    Gated env ctx registry rules update ↔ ¬ AsksAnonymously env registry update := by
  constructor
  · intro hgated hasks
    obtain ⟨inv, chatId, senderId, hrequested, hadmin, hchat, hsender, hmissing⟩ := hasks
    have hrun : commandVerdict env ctx registry rules update = .ok (.invoked inv) :=
      commandVerdict_eq_invoked.mpr
        ⟨hrequested, chatId, senderId, hchat, hsender, fun _ hc hs => absurd ⟨hc, hs⟩ hmissing⟩
    obtain ⟨chatId', senderId', hchat', hsender', hc, hs, -⟩ := hgated inv hrun hadmin
    cases hchat.symm.trans hchat'
    cases hsender.symm.trans hsender'
    exact hmissing ⟨hc, hs⟩
  · intro hnamed inv hrun hadmin
    obtain ⟨hrequested, chatId, senderId, hchat, hsender, hmay⟩ :=
      commandVerdict_eq_invoked.mp hrun
    have hids : chatId.truthy ∧ senderId.truthy := by
      by_contra hmissing
      exact hnamed ⟨inv, chatId, senderId, hrequested, hadmin, hchat, hsender, hmissing⟩
    refine ⟨chatId, senderId, hchat, hsender, hids.1, hids.2, ?_⟩
    exact Rules.mayCommand_iff.mp (hmay hadmin hids.1 hids.2)

/-- `/ban` in a message without a sender. -/
def senderlessBan : PyVal :=
  .dict [("message", .dict [("chat_id", .str "chat"), ("text", .str "/ban victim")])]

/-- With an owner configured and no admin anywhere, a message without a sender
bans. -/
theorem senderlessBan_not_gated :
    ¬ Gated .plain { ownerId := some "owner" } startupRegistry {} senderlessBan ∧
      (commandsPlugin startupRegistry .plain { ownerId := some "owner" } senderlessBan
        { rules := {} }).2.apiCalls = [.banChatMember (.str "chat") (.str "victim")] := by
  refine ⟨fun hgated => ?_, rfl⟩
  let inv : Invocation :=
    { command := ⟨"ban", "بن کاربر", banHandler, true⟩
      message := .dict [("chat_id", .str "chat"), ("text", .str "/ban victim")]
      args := ["victim"] }
  have hrun : commandVerdict .plain { ownerId := some "owner" } startupRegistry {} senderlessBan =
      .ok (.invoked inv) := rfl
  obtain ⟨chatId, senderId, -, hsender, -, htruthy, -⟩ := hgated inv hrun rfl
  have hnone : getSenderId inv.message = .ok .none := rfl
  cases hnone.symm.trans hsender
  cases htruthy

end RubicaBot
