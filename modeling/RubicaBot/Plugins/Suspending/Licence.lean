import RubicaBot.Coroutine.Allowed
import RubicaBot.Plugins.Privilege
import RubicaBot.Plugins.Suspending.Atomicity

/-!
# RubicaBot.Plugins.Suspending.Licence

What a dispatch may do, by the tables it starts on.

`Licensed` says of every call of the client what there has to be for it in the update and
in the rules: an offence, a command, a press of a button.  `Reconfigures` says the same of
what changes in the rules.  `processJob_allowed` is that a dispatch keeps to both, whatever
the client answers and whatever other dispatches do while it waits.
-/

namespace RubicaBot

open Py Coroutine

namespace Suspending

/-! ## what there has to be -/

/-- The message of the update, in a chat, by somebody who is no admin of it. -/
structure Moderated (rules : Rules) (update message chatId senderId : PyVal) : Prop where
  extracted : extractMessage update = .ok message
  inChat : getChatId message = .ok chatId
  chatTruthy : chatId.truthy
  sentBy : getSenderId message = .ok senderId
  notAdmin : rules.isExempt chatId senderId = .ok false

/-- The update is this command in this chat, from the owner, from an admin of the chat, or
from nobody: the gate lets a message pass that names no chat or no sender. -/
def Commanded (env : Env) (ctx : Context) (rules : Rules) (update : PyVal) (name : String)
    (chatId : PyVal) : Prop :=
  ∃ inv senderId, requestedCommand env startupRegistry update = .ok (some inv) ∧
    inv.command.name = name ∧ getChatId inv.message = .ok chatId ∧
    getSenderId inv.message = .ok senderId ∧
    (chatId.truthy → senderId.truthy →
      ctx.isOwner senderId ∨ rules.isAdmin chatId senderId = .ok true)

/-- The chat of the update's message. -/
def OwnChat (update chatId : PyVal) : Prop :=
  ∃ message, extractMessage update = .ok message ∧ getChatId message = .ok chatId

/-- The chat of the button that the update is a press of. -/
def PressedChat (update chatId : PyVal) : Prop :=
  ∃ callback, update.get "callback_query" = .ok callback ∧ callback.get "chat_id" = .ok chatId

/-- What there has to be for a call of the client. -/
def Licensed (env : Env) (ctx : Context) (t : Tables) (update : PyVal) : ApiCall → Prop
  | .sendMessage chatId _ _ => OwnChat update chatId ∨ PressedChat update chatId
  | .editInlineKeypad chatId _ _ => PressedChat update chatId
  | .deleteMessage chatId messageId =>
      (chatId.truthy ∧ Commanded env ctx t.rules update "del" chatId) ∨
        ∃ message senderId, Moderated t.rules update message chatId senderId ∧
          getMessageId message = .ok messageId ∧
          (LinkTrigger env t.rules message chatId ∨
            FloodTrigger env (t.world []) message chatId senderId ∨
            WordTrigger env t.rules message chatId)
  | .banChatMember chatId userId =>
      (chatId.truthy ∧ Commanded env ctx t.rules update "ban" chatId) ∨
        userId.truthy ∧ ∃ message, Moderated t.rules update message chatId userId ∧
          (LinkTrigger env t.rules message chatId ∨
            FloodTrigger env (t.world []) message chatId userId)
  | .unbanChatMember chatId _ =>
      chatId.truthy ∧ Commanded env ctx t.rules update "unban" chatId
  | .setCommands _ => ∃ chatId, Commanded env ctx t.rules update "setcmd" chatId

/-- A pause needs no licence. -/
def Licensed.suspension (env : Env) (ctx : Context) (t : Tables) (update : PyVal) :
    Suspension → Prop
  | .api call => Licensed env ctx t update call
  | .sleep => True

/-- A toggle of the panel, pressed for this chat. -/
def Toggled (update chatId : PyVal) : Prop :=
  ∃ key callback, panelRequest update = .ok (some (.toggle chatId key callback))

/-- What there has to be for a change of the rules from `t` to `t'`. -/
structure Reconfigures (env : Env) (ctx : Context) (rules : Rules) (update : PyVal)
    (t t' : Tables) : Prop where
  admins : t'.rules.admins = t.rules.admins
  settings : ∀ chat, t'.rules.groups.settings chat = t.rules.groups.settings chat ∨
    ∃ chatId, sqlText chatId = .ok (some chat) ∧
      (Commanded env ctx rules update "antilink" chatId ∨ Toggled update chatId)
  filters : ∀ chat word,
    t'.rules.filters.lookup (chat, word) = t.rules.filters.lookup (chat, word) ∨
      ∃ chatId, sqlText chatId = .ok (some chat) ∧
        Commanded env ctx rules update "filter" chatId

namespace Reconfigures

variable {env : Env} {ctx : Context} {rules : Rules} {update : PyVal} {t t₁ t₂ : Tables}

/-- Who changes no rules has reconfigured nothing. -/
theorem of_rules_eq (h : t₁.rules = t.rules) : Reconfigures env ctx rules update t t₁ := by
  refine ⟨?_, fun chat => .inl ?_, fun chat word => .inl ?_⟩ <;> rw [h]

/-- One change after the other. -/
theorem trans (h : Reconfigures env ctx rules update t t₁)
    (h' : Reconfigures env ctx rules update t₁ t₂) : Reconfigures env ctx rules update t t₂ where
  admins := h'.admins.trans h.admins
  settings := fun chat => by
    obtain hsame | hmay := h.settings chat
    · obtain hsame' | hmay := h'.settings chat
      · exact .inl (hsame'.trans hsame)
      · exact .inr hmay
    · exact .inr hmay
  filters := fun chat word => by
    obtain hsame | hmay := h.filters chat word
    · obtain hsame' | hmay := h'.filters chat word
      · exact .inl (hsame'.trans hsame)
      · exact .inr hmay
    · exact .inr hmay

end Reconfigures

/-! ## what a handler asks for -/

/-- The handler of the command `name` may do what it does about this message. -/
structure Licence (A : Suspension → Prop) (W : Tables → Tables → Prop) (message : PyVal)
    (name : String) : Prop where
  reads : ∀ t, W t t
  pauses : A .sleep
  replies : ∀ chatId, getChatId message = .ok chatId → ∀ text keypad,
    A (.api (.sendMessage chatId text keypad))
  menu : name = "setcmd" → ∀ commands, A (.api (.setCommands commands))
  deletes : name = "del" → ∀ chatId, getChatId message = .ok chatId → chatId.truthy →
    ∀ messageId, A (.api (.deleteMessage chatId messageId))
  bans : name = "ban" → ∀ chatId, getChatId message = .ok chatId → chatId.truthy →
    ∀ userId, A (.api (.banChatMember chatId userId))
  unbans : name = "unban" → ∀ chatId, getChatId message = .ok chatId → chatId.truthy →
    ∀ userId, A (.api (.unbanChatMember chatId userId))
  flags : name = "antilink" → ∀ chatId, getChatId message = .ok chatId → ∀ value,
    (setGroupFlag chatId .antiLink value).Confined A W
  adds : name = "filter" → ∀ chatId, getChatId message = .ok chatId → ∀ word,
    (addFilter chatId word false false).Confined A W
  removes : name = "filter" → ∀ chatId, getChatId message = .ok chatId → ∀ word,
    (removeFilter chatId word).Confined A W

section Handlers

variable {A : Suspension → Prop} {W : Tables → Tables → Prop} {env : Env} {ctx : Context}
  {message : PyVal} {args : List String} {name : String}

/-- A call that may be made. -/
theorem callApi_confined {call : ApiCall} (h : A (.api call)) : (callApi call).Confined A W :=
  confined_call h

theorem sendMessage_confined {chatId : PyVal} {text : String} {keypad : Option PyVal}
    (h : A (.api (.sendMessage chatId text keypad))) :
    (sendMessage chatId text keypad).Confined A W :=
  (callApi_confined h).bind fun _ => confined_pure _

theorem banChatMember_confined {chatId userId : PyVal}
    (h : A (.api (.banChatMember chatId userId))) : (banChatMember chatId userId).Confined A W :=
  (callApi_confined h).bind fun _ => confined_pure _

/-- Reading is no change. -/
theorem query_confined {α : Type} (hreads : ∀ t, W t t) (f : Tables → Except PyError α) :
    (atomic (Effect.query f) : Suspending α).Confined A W := confined_atomic hreads

/-- The chat is that of the message, and there is one. -/
theorem inChat_confined {act : PyVal → Suspending Unit}
    (h : ∀ chatId, getChatId message = .ok chatId → chatId.truthy → (act chatId).Confined A W) :
    (inChat message act).Confined A W := by
  intro t
  refine allowed_lift_bind fun chatId hchat => ?_
  exact Confined.ite (fun hc => h chatId hchat hc) (fun _ => confined_pure _) t

/-- What a handler may do, if it is the one of this command. -/
def HandlerConfined (name : String) (handler : SuspendingHandler) : Prop :=
  ∀ (A : Suspension → Prop) (W : Tables → Tables → Prop) env ctx message args,
    Licence A W message name → (handler env ctx message args).Confined A W

/-- An answer goes to that chat. -/
theorem replyWith_confined (text : Env → Context → List String → String) :
    HandlerConfined name (replyWith text) := by
  intro A W env ctx message args h
  exact inChat_confined fun chatId hchat _ => sendMessage_confined (h.replies chatId hchat _ _)

theorem setcmdHandler_confined : HandlerConfined "setcmd" setcmdHandler := by
  intro A W env ctx message args h
  exact (callApi_confined (h.menu rfl _)).bind fun _ => confined_pure _

theorem idHandler_confined : HandlerConfined name idHandler := by
  intro A W env ctx message args h
  refine inChat_confined fun chatId hchat _ => ?_
  exact (confined_lift _).bind fun _ => (confined_lift _).bind fun _ =>
    sendMessage_confined (h.replies chatId hchat _ _)

theorem calcHandler_confined : HandlerConfined name calcHandler := by
  intro A W env ctx message args h
  refine inChat_confined fun chatId hchat _ => ?_
  have hsay : ∀ text, (sendMessage chatId text).Confined A W := fun text =>
    sendMessage_confined (h.replies chatId hchat _ _)
  refine Confined.ite (fun _ => hsay _) fun _ => ?_
  cases env.safeEval (" ".intercalate args) with
  | ok result => exact hsay _
  | error e =>
      obtain ⟨e, text⟩ := e
      cases e <;> first | exact hsay _ | exact confined_lift _

theorem settingsHandler_confined : HandlerConfined name settingsHandler := by
  intro A W env ctx message args h
  exact inChat_confined fun chatId hchat _ => (query_confined h.reads _).bind fun _ =>
    sendMessage_confined (h.replies chatId hchat _ _)

theorem adminsHandler_confined : HandlerConfined name adminsHandler := by
  intro A W env ctx message args h
  exact inChat_confined fun chatId hchat _ => (query_confined h.reads _).bind fun _ =>
    sendMessage_confined (h.replies chatId hchat _ _)

theorem antilinkHandler_confined : HandlerConfined "antilink" antilinkHandler := by
  intro A W env ctx message args h
  refine inChat_confined fun chatId hchat _ => ?_
  cases args with
  | nil => exact confined_pure _
  | cons word rest =>
      exact (h.flags rfl chatId hchat _).bind fun _ =>
        sendMessage_confined (h.replies chatId hchat _ _)

theorem filterHandler_confined : HandlerConfined "filter" filterHandler := by
  intro A W env ctx message args h
  refine inChat_confined fun chatId hchat _ => ?_
  have hsay : ∀ text, (sendMessage chatId text).Confined A W := fun text =>
    sendMessage_confined (h.replies chatId hchat _ _)
  cases args with
  | nil => exact hsay _
  | cons word rest =>
      refine Confined.ite (fun _ => ?_) fun _ => ?_
      · exact (query_confined h.reads _).bind fun _ =>
          Confined.ite (fun _ => hsay _) fun _ => hsay _
      · cases rest with
        | nil => exact hsay _
        | cons word rest =>
            refine Confined.ite (fun _ => ?_) fun _ =>
              Confined.ite (fun _ => ?_) fun _ => confined_pure _
            · exact (h.adds rfl chatId hchat _).bind fun _ => hsay _
            · exact (h.removes rfl chatId hchat _).bind fun _ => hsay _

/-- By induction on the messages still to delete. -/
theorem deleteEach_confined {chatId : PyVal} (hpauses : A .sleep)
    (h : ∀ messageId, A (.api (.deleteMessage chatId messageId))) (idx deleted failed : Nat)
    (messageIds : List String) :
    (deleteEach chatId idx deleted failed messageIds).Confined A W := by
  induction messageIds generalizing idx deleted failed with
  | nil => exact confined_pure _
  | cons messageId messageIds ih =>
      refine (callApi_confined (h _)).attempt.bind fun outcome => ?_
      have hsleep : sleep.Confined A W := (confined_call hpauses).bind fun _ => confined_pure _
      exact (confined_when fun _ => hsleep).bind fun _ =>
        Confined.ite (fun _ => ih _ _ _) fun _ => ih _ _ _

theorem deleteHandler_confined : HandlerConfined "del" deleteHandler := by
  intro A W env ctx message args h
  refine inChat_confined fun chatId hchat hc => ?_
  have hsay : ∀ text, (sendMessage chatId text).Confined A W := fun text =>
    sendMessage_confined (h.replies chatId hchat _ _)
  cases deleteLimit env.unicode args with
  | none => exact hsay _
  | some limit =>
      refine Confined.ite (fun _ => hsay _) fun _ => ?_
      refine (query_confined h.reads _).bind fun messageIds => ?_
      refine Confined.ite (fun _ => hsay _) fun _ => ?_
      exact (deleteEach_confined h.pauses (h.deletes rfl chatId hchat hc) _ _ _ _).bind fun _ =>
        hsay _

theorem banHandler_confined : HandlerConfined "ban" banHandler := by
  intro A W env ctx message args h
  exact inChat_confined fun chatId hchat hc => (confined_lift _).bind fun _ =>
    Confined.ite (fun _ => banChatMember_confined (h.bans rfl chatId hchat hc _)) fun _ =>
      confined_pure _

theorem unbanHandler_confined : HandlerConfined "unban" unbanHandler := by
  intro A W env ctx message args h
  refine inChat_confined fun chatId hchat hc => ?_
  cases args with
  | nil => exact confined_pure _
  | cons word rest =>
      exact (callApi_confined (h.unbans rfl chatId hchat hc _)).bind fun _ => confined_pure _

/-- Every handler keeps to the licence of its command. -/
theorem handlers_confined : ∀ entry ∈ handlers, HandlerConfined entry.1 entry.2 := by
  simp only [handlers, List.forall_mem_cons]
  exact ⟨replyWith_confined _, setcmdHandler_confined, replyWith_confined _,
    replyWith_confined _, replyWith_confined _, replyWith_confined _, idHandler_confined,
    replyWith_confined _, calcHandler_confined, replyWith_confined _, replyWith_confined _,
    replyWith_confined _, replyWith_confined _, replyWith_confined _, settingsHandler_confined,
    adminsHandler_confined, antilinkHandler_confined, filterHandler_confined,
    deleteHandler_confined, banHandler_confined, unbanHandler_confined, List.forall_mem_nil _⟩

/-- So does the handler of the command. -/
theorem handlerOf_confined (name : String) : HandlerConfined name (handlerOf name) := by
  unfold handlerOf
  cases hlookup : handlers.lookup name with
  | none => exact fun _ _ _ _ _ _ _ => confined_pure _
  | some handler =>
      obtain ⟨before, after, hsplit, -⟩ := List.lookup_eq_some_iff.mp hlookup
      exact handlers_confined (name, handler) (hsplit ▸ by simp)

end Handlers

/-! ## what the repository changes -/

section Writers

variable {A : Suspension → Prop} {env : Env} {ctx : Context} {rules : Rules} {update : PyVal}

/-- A flag is no filter. -/
theorem Rules.setGroupFlag_filters {r r' : Rules} {chatId : PyVal} {key : Flag} {value : Bool}
    (h : r.setGroupFlag chatId key value = .ok r') : r'.filters = r.filters := by
  obtain ⟨t, -, h⟩ := Effect.exists_of_bind_eq_ok h
  cases t <;> cases h <;> rfl

/-- A flag is written for one chat. -/
theorem setGroupFlag_confined {chatId : PyVal} (key : Flag) (value : Bool)
    (h : Commanded env ctx rules update "antilink" chatId ∨ Toggled update chatId) :
    (setGroupFlag chatId key value).Confined A (Reconfigures env ctx rules update) := by
  refine confined_atomic fun t => ?_
  cases hrules : t.rules.setGroupFlag chatId key value with
  | error e =>
      rw [Effect.tryUpdate_of_error (by rw [hrules]; rfl)]
      exact .of_rules_eq rfl
  | ok r =>
      rw [Effect.tryUpdate_of_ok (by rw [hrules]; rfl)]
      obtain ⟨c, hsql, hadmins, hothers⟩ := RubicaBot.Rules.setGroupFlag_eq_ok hrules
      refine ⟨hadmins, fun chat => ?_, fun chat word => .inl ?_⟩
      · by_cases hc : c = some chat
        · exact .inr ⟨chatId, hsql.trans (congrArg _ hc), h⟩
        · exact .inl (hothers chat hc)
      · exact congrArg (·.lookup (chat, word)) (Rules.setGroupFlag_filters hrules)

/-- So is a word of the filter. -/
theorem filters_confined {chatId : PyVal} (write : Rules → Except PyError Rules)
    (hwrite : ∀ r r', write r = .ok r' → r'.admins = r.admins ∧ r'.groups = r.groups ∧
      ∀ chat, sqlText chatId ≠ .ok (some chat) → ∀ word,
        r'.filters.lookup (chat, word) = r.filters.lookup (chat, word))
    (h : Commanded env ctx rules update "filter" chatId) :
    (atomic (.tryUpdate fun t : Tables => do return { t with rules := ← write t.rules }) :
      Suspending Unit).Confined A (Reconfigures env ctx rules update) := by
  refine confined_atomic fun t => ?_
  cases hrules : write t.rules with
  | error e =>
      rw [Effect.tryUpdate_of_error (by rw [hrules]; rfl)]
      exact .of_rules_eq rfl
  | ok r =>
      rw [Effect.tryUpdate_of_ok (by rw [hrules]; rfl)]
      obtain ⟨hadmins, hgroups, hothers⟩ := hwrite _ _ hrules
      refine ⟨hadmins, fun chat => .inl ?_, fun chat word => ?_⟩
      · exact congrArg (·.settings chat) hgroups
      · by_cases hc : sqlText chatId = .ok (some chat)
        · exact .inr ⟨chatId, hc, h⟩
        · exact .inl (hothers chat hc word)

/-- A filter that a command adds. -/
theorem addFilter_confined {chatId : PyVal} (word : String)
    (h : Commanded env ctx rules update "filter" chatId) :
    (addFilter chatId word false false).Confined A (Reconfigures env ctx rules update) := by
  refine filters_confined (·.addFilter chatId word false false) (fun r r' hr => ?_) h
  obtain ⟨c, hc, hr⟩ := Effect.exists_of_bind_eq_ok hr
  cases hr
  refine ⟨rfl, rfl, fun chat hchat word' => AList.lookup_insert_ne ?_⟩
  rintro hkey
  obtain ⟨t, ht, hrequired⟩ := Effect.exists_of_bind_eq_ok hc
  cases t with
  | none => cases hrequired
  | some t =>
      cases hrequired
      exact hchat (ht.trans (by rw [(Prod.mk.inj hkey).1]))

/-- And one that it removes. -/
theorem removeFilter_confined {chatId : PyVal} (word : String)
    (h : Commanded env ctx rules update "filter" chatId) :
    (removeFilter chatId word).Confined A (Reconfigures env ctx rules update) := by
  refine filters_confined (·.removeFilter chatId word) (fun r r' hr => ?_) h
  obtain ⟨t, ht, hr⟩ := Effect.exists_of_bind_eq_ok hr
  cases t with
  | none =>
      cases hr
      exact ⟨rfl, rfl, fun _ _ _ => rfl⟩
  | some t =>
      cases hr
      refine ⟨rfl, rfl, fun chat hchat word' => AList.lookup_erase_ne ?_⟩
      rintro hkey
      exact hchat (ht.trans (by rw [(Prod.mk.inj hkey).1]))

end Writers

/-! ## offences -/

section Offences

variable {env : Env} {rules : Rules} {update : PyVal}

/-- What `AntiLinkPlugin` acts on. -/
theorem antiLinkOffence_eq_some {o : Offence}
    (h : antiLinkOffence env rules update = .ok (some o)) :
    ∃ message, Moderated rules update message o.chatId o.senderId ∧
      getMessageId message = .ok o.messageId ∧ LinkTrigger env rules message o.chatId := by
  simp only [antiLinkOffence, Effect.bind_eq_ok_iff, Effect.ite_none_eq_some_iff,
    Effect.ite_not_none_eq_some_iff] at h
  obtain ⟨message, hmessage, hm, chatId, hchat, hc, chat, hget, chatType, htype, moderated,
    hmoderated, hmod, settings, hgroup, hon, senderId, hsender, exempt, hexempt, hne, text, htext,
    link, hlink, hl, messageId, hid, ho⟩ := h
  cases ho
  subst hmod hl
  rw [Bool.eq_false_of_not_eq_true hne] at hexempt
  exact ⟨message, ⟨hmessage, hchat, hc, hsender, hexempt⟩, hid, chat, chatType, settings, text,
    hget, htype, hmoderated, hgroup, hon, htext, hlink⟩

/-- What `FilterWordsPlugin` acts on. -/
theorem filterOffence_eq_some {o : Offence}
    (h : filterOffence env rules update = .ok (some o)) :
    ∃ message, Moderated rules update message o.chatId o.senderId ∧
      getMessageId message = .ok o.messageId ∧ WordTrigger env rules message o.chatId := by
  simp only [filterOffence, filterOffenceWith, Effect.bind_eq_ok_iff,
    Effect.ite_none_eq_some_iff, Effect.ite_not_none_eq_some_iff] at h
  obtain ⟨message, hmessage, hm, chatId, hchat, hc, settings, hgroup, hon, senderId, hsender,
    exempt, hexempt, hne, text, htext, filters, hfilters, hnil, verdict, hverdict, hv, messageId,
    hid, ho⟩ := h
  cases ho
  subst hv
  rw [Bool.eq_false_of_not_eq_true hne] at hexempt
  exact ⟨message, ⟨hmessage, hchat, hc, hsender, hexempt⟩, hid, settings, text, filters, hgroup,
    hon, htext, hfilters, hverdict⟩

/-- What `AntiFloodPlugin` counts. -/
theorem antiFloodSubject_eq_some {s : FloodSubject}
    (h : antiFloodSubject rules update = .ok (some s)) :
    Moderated rules update s.message s.chatId s.senderId ∧ s.senderId.truthy ∧
      ∃ settings, rules.getGroup s.chatId = .ok settings ∧ settings.antiFlood ∧
        s.floodLimit = settings.floodLimit := by
  simp only [antiFloodSubject, Effect.bind_eq_ok_iff, Effect.ite_none_eq_some_iff,
    Effect.ite_not_none_eq_some_iff, Bool.and_eq_true] at h
  obtain ⟨message, hmessage, hm, chatId, hchat, senderId, hsender, htruthy, settings, hgroup, hon,
    admin, hadmin, hna, hs⟩ := h
  cases hs
  rw [Bool.eq_false_of_not_eq_true hna] at hadmin
  have hexempt : rules.isExempt chatId senderId = .ok false := (if_pos htruthy.2).trans hadmin
  exact ⟨⟨hmessage, hchat, htruthy.1, hsender, hexempt⟩, htruthy.2, settings, hgroup, hon, rfl⟩

end Offences

/-! ## commands and the panel -/

section Plugins

variable {env : Env} {ctx : Context} {update : PyVal} {t t₀ : Tables}

/-- What `CommandsPlugin` refuses, it refuses in the chat of the message. -/
theorem commandVerdict_eq_denied {rules : Rules} {chatId : PyVal}
    (h : commandVerdict env ctx startupRegistry rules update = .ok (.denied chatId)) :
    OwnChat update chatId := by
  obtain ⟨requested, hrequested, h⟩ := Effect.exists_of_bind_eq_ok h
  cases requested with
  | none => cases h
  | some inv =>
      obtain ⟨chatId', hchat, h⟩ := Effect.exists_of_bind_eq_ok h
      obtain ⟨senderId, -, h⟩ := Effect.exists_of_bind_eq_ok h
      split at h
      · obtain ⟨may, -, h⟩ := Effect.exists_of_bind_eq_ok h
        cases may with
        | true => cases h
        | false =>
            cases h
            exact ⟨inv.message, (requestedCommand_eq_some hrequested).2, hchat⟩
      · cases h

/-- The chat that a request of the panel is about. -/
theorem panelRequest_eq_some {request : PanelRequest}
    (h : panelRequest update = .ok (some request)) :
    match request with
    | .panel chatId => OwnChat update chatId
    | .toggle chatId _ _ => PressedChat update chatId
    | .filters chatId => PressedChat update chatId
    | .delete chatId => PressedChat update chatId := by
  simp only [panelRequest, Effect.bind_eq_ok_iff, Effect.ite_none_eq_some_iff] at h
  obtain ⟨message, hmessage, -, value, -, text, -, h⟩ := h
  split at h
  · obtain ⟨chatId, hchat, h⟩ := Effect.exists_of_bind_eq_ok h
    cases h
    exact ⟨message, hmessage, hchat⟩
  · simp only [Effect.bind_eq_ok_iff, Effect.ite_none_eq_some_iff] at h
    obtain ⟨callback, hcallback, -, chatId, hchat, data, -, -, text', -, -, h⟩ := h
    have hpressed : PressedChat update chatId := ⟨callback, hcallback, hchat⟩
    split at h
    · cases h
      exact hpressed
    · split at h
      · cases h
        exact hpressed
      · split at h
        · cases h
          exact hpressed
        · split at h <;> cases h
          exact hpressed

/-- The commands that need a licence are for admins. -/
theorem startupRegistry_adminOnly : ∀ command ∈ startupRegistry.commands,
    command.name ∈ ["setcmd", "antilink", "filter", "del", "ban", "unban"] →
      command.adminOnly := by
  simp [startupRegistry_commands, startupCommands]

/-- The handler of a command that passes the gate has the licence. -/
theorem licence_of_invoked {inv : Invocation}
    (h : commandVerdict env ctx startupRegistry t₀.rules update = .ok (.invoked inv)) :
    Licence (Licensed.suspension env ctx t₀ update) (Reconfigures env ctx t₀.rules update)
      inv.message inv.command.name := by
  obtain ⟨hrequested, chatId, senderId, hchat, hsender, hmay⟩ := commandVerdict_eq_invoked.mp h
  obtain ⟨hmem, hmessage⟩ := requestedCommand_eq_some hrequested
  have hcommanded : ∀ name, inv.command.name = name →
      name ∈ ["setcmd", "antilink", "filter", "del", "ban", "unban"] →
        ∀ chatId', getChatId inv.message = .ok chatId' →
          Commanded env ctx t₀.rules update name chatId' := by
    intro name hname hlisted chatId' hchat'
    cases hchat.symm.trans hchat'
    have hadmin := startupRegistry_adminOnly inv.command hmem (hname ▸ hlisted)
    exact ⟨inv, senderId, hrequested, hname, hchat, hsender, fun hc hs =>
      Rules.mayCommand_iff.mp (hmay hadmin hc hs)⟩
  refine ⟨fun _ => .of_rules_eq rfl, trivial, fun c hc _ _ => .inl ⟨inv.message, hmessage, hc⟩,
    fun hname _ => ⟨chatId, hcommanded _ hname (by decide) chatId hchat⟩,
    fun hname c hc htruthy _ => .inl ⟨htruthy, hcommanded _ hname (by decide) c hc⟩,
    fun hname c hc htruthy _ => .inl ⟨htruthy, hcommanded _ hname (by decide) c hc⟩,
    fun hname c hc htruthy _ => ⟨htruthy, hcommanded _ hname (by decide) c hc⟩,
    fun hname c hc value => ?_, fun hname c hc word => ?_, fun hname c hc word => ?_⟩
  · exact setGroupFlag_confined _ _ (.inl (hcommanded _ hname (by decide) c hc))
  · exact addFilter_confined word (hcommanded _ hname (by decide) c hc)
  · exact removeFilter_confined word (hcommanded _ hname (by decide) c hc)

/-- A command is allowed what it is licensed to do. -/
theorem commandsPlugin_allowed (hrules : t.rules = t₀.rules) :
    (commandsPlugin startupRegistry env ctx update).Allowed
      (Licensed.suspension env ctx t₀ update) (Reconfigures env ctx t₀.rules update) t := by
  refine allowed_atomic_bind (.of_rules_eq rfl) fun verdict hverdict => ?_
  have hverdict : commandVerdict env ctx startupRegistry t₀.rules update = .ok verdict :=
    hrules ▸ hverdict
  cases verdict with
  | ignored => trivial
  | denied chatId =>
      have hsay : (sendMessage chatId deniedNotice).Confined
          (Licensed.suspension env ctx t₀ update) (Reconfigures env ctx t₀.rules update) :=
        sendMessage_confined (.inl (commandVerdict_eq_denied hverdict))
      exact (hsay.bind fun _ => confined_pure _) t
  | invoked inv =>
      have hhandler := handlerOf_confined inv.command.name _ _ env ctx inv.message inv.args
        (licence_of_invoked hverdict)
      exact (hhandler.bind fun _ => confined_pure _) t

/-- The panel answers where it is asked, and configures only by a toggle. -/
theorem servePanel_confined {request : PanelRequest}
    (h : panelRequest update = .ok (some request)) :
    (servePanel request).Confined (Licensed.suspension env ctx t₀ update)
      (Reconfigures env ctx t₀.rules update) := by
  have hreads : ∀ t, Reconfigures env ctx t₀.rules update t t := fun _ => .of_rules_eq rfl
  have hchat := panelRequest_eq_some h
  cases request with
  | panel chatId =>
      refine Confined.ite (fun _ => ?_) fun _ => confined_pure _
      exact (query_confined hreads _).bind fun _ => sendMessage_confined (.inl hchat)
  | toggle chatId key callback =>
      refine (query_confined hreads _).bind fun settings => ?_
      refine (setGroupFlag_confined _ _ (.inr ⟨key, callback, h⟩)).bind fun _ => ?_
      refine (sendMessage_confined (.inr hchat)).bind fun _ => (confined_lift _).bind fun _ => ?_
      refine Confined.ite (fun _ => ?_) fun _ => confined_pure _
      exact (query_confined hreads _).bind fun _ =>
        (callApi_confined hchat).bind fun _ => confined_pure _
  | filters chatId =>
      refine (query_confined hreads _).bind fun filters => ?_
      exact Confined.ite (fun _ => sendMessage_confined (.inr hchat)) fun _ =>
        sendMessage_confined (.inr hchat)
  | delete chatId => exact sendMessage_confined (.inr hchat)

/-- A pressed button likewise. -/
theorem panelPlugin_allowed :
    (panelPlugin env ctx update).Allowed (Licensed.suspension env ctx t₀ update)
      (Reconfigures env ctx t₀.rules update) t := by
  refine allowed_lift_bind fun request hrequest => ?_
  cases request with
  | none => trivial
  | some request => exact ((servePanel_confined hrequest).bind fun _ => confined_pure _) t

/-! ## the plugins in front -/

/-- The rules and the flood histories are as they were. -/
def Before (t t' : Tables) : Prop := t'.rules = t.rules ∧ t'.floodEvents = t.floodEvents

/-- A snapshot calls nobody. -/
theorem incomingSnapshotPlugin_allowed {A : Suspension → Prop} :
    (incomingSnapshotPlugin env ctx update).Allowed A Before t :=
  allowed_lift_bind fun _ _ => allowed_atomic_bind ⟨rfl, rfl⟩ fun _ _ => trivial

/-- Nor does logging a message. -/
theorem messageLoggingPlugin_allowed {A : Suspension → Prop} :
    (messageLoggingPlugin env ctx update).Allowed A Before t := by
  refine allowed_atomic_bind ?_ fun _ _ => trivial
  cases hlog : logMessage t.messages update with
  | error e =>
      rw [Effect.tryUpdate_of_error (by rw [hlog]; rfl)]
      exact ⟨rfl, rfl⟩
  | ok messages =>
      rw [Effect.tryUpdate_of_ok (by rw [hlog]; rfl)]
      exact ⟨rfl, rfl⟩

/-- What is found in the tables may be used. -/
theorem actOn_allowed {α : Type} {A : Suspension → Prop} {W : Tables → Tables → Prop}
    {find : Tables → Except PyError (Option α)} {act : α → Suspending Bool} (hW : W t t)
    (hact : ∀ x, find t = .ok (some x) → (act x).Allowed A W t) :
    (actOn find act).Allowed A W t := by
  refine allowed_atomic_bind hW fun found hfound => ?_
  cases found with
  | none => trivial
  | some x => exact hact x hfound

/-- A link licenses the deletion, the ban and the notice. -/
theorem antiLinkPlugin_allowed (hrules : t.rules = t₀.rules) :
    (antiLinkPlugin env ctx update).Allowed (Licensed.suspension env ctx t₀ update) Before t := by
  refine actOn_allowed ⟨rfl, rfl⟩ fun o ho => ?_
  rw [hrules] at ho
  obtain ⟨message, hmoderated, hid, htrigger⟩ := antiLinkOffence_eq_some ho
  refine Confined.bind (confined_when fun _ => callApi_confined ?_) (fun _ =>
    Confined.bind (confined_when fun hs => banChatMember_confined ?_) fun _ =>
      Confined.bind (confined_when fun _ => sendMessage_confined ?_) fun _ => confined_pure _) t
  · exact .inr ⟨message, o.senderId, hmoderated, hid, .inl htrigger⟩
  · exact .inr ⟨hs, message, hmoderated, .inl htrigger⟩
  · exact .inl ⟨message, hmoderated.extracted, hmoderated.inChat⟩

/-- A flood licenses the deletion and the ban. -/
theorem punishFlood_confined {W : Tables → Tables → Prop} {s : FloodSubject}
    (hs : antiFloodSubject t₀.rules update = .ok (some s))
    (hexceeds : s.exceeds env t₀.floodEvents) :
    (punishFlood s).Confined (Licensed.suspension env ctx t₀ update) W := by
  obtain ⟨hmoderated, hsender, settings, hgroup, hon, hlimit⟩ := antiFloodSubject_eq_some hs
  have htrigger : FloodTrigger env (t₀.world []) s.message s.chatId s.senderId :=
    ⟨settings, hgroup, hon, hlimit ▸ hexceeds⟩
  have hm := truthy_of_getChatId hmoderated.inChat hmoderated.chatTruthy
  intro t
  refine allowed_lift_bind fun messageId hid => ?_
  have hid : getMessageId s.message = .ok messageId := (if_pos hm).trans hid
  refine Confined.bind (confined_when fun _ => callApi_confined ?_) (fun _ =>
    Confined.bind (banChatMember_confined ?_) fun _ => confined_pure _) t
  · exact .inr ⟨s.message, s.senderId, hmoderated, hid, .inr (.inl htrigger)⟩
  · exact .inr ⟨hsender, s.message, hmoderated, .inr htrigger⟩

/-- The history is all that `AntiFloodPlugin` changes. -/
theorem antiFloodPlugin_allowed (hrules : t.rules = t₀.rules)
    (hfloods : t.floodEvents = t₀.floodEvents) :
    (antiFloodPlugin env ctx update).Allowed (Licensed.suspension env ctx t₀ update)
      (fun t t' => t'.rules = t.rules) t := by
  refine actOn_allowed rfl fun s hs => ?_
  rw [hrules] at hs
  refine allowed_atomic_bind rfl fun exceeded hexceeded => allowed_atomic_bind rfl fun _ _ => ?_
  have hexceeded : s.exceeds env t₀.floodEvents = exceeded :=
    hfloods ▸ Except.ok.inj hexceeded
  refine Confined.ite (fun hex => ?_) (fun _ => confined_pure _) _
  exact punishFlood_confined hs (hexceeded.trans hex)

/-- A word licenses the deletion. -/
theorem filterWordsPlugin_allowed (hrules : t.rules = t₀.rules) :
    (filterWordsPlugin env ctx update).Allowed (Licensed.suspension env ctx t₀ update)
      (fun t t' => t'.rules = t.rules) t := by
  refine actOn_allowed rfl fun o ho => ?_
  rw [hrules] at ho
  obtain ⟨message, hmoderated, hid, htrigger⟩ := filterOffence_eq_some ho
  refine Confined.bind (confined_when fun _ => callApi_confined ?_) (fun _ => confined_pure _) t
  exact .inr ⟨message, o.senderId, hmoderated, hid, .inr (.inr htrigger)⟩

/-! ## the chain -/

/-- The rest of the chain goes on from where a plugin hands over. -/
theorem dispatch_allowed {A : Suspension → Prop} {W W' : Tables → Tables → Prop}
    {plugin : SuspendingPlugin} {plugins : List SuspendingPlugin}
    (hplugin : (plugin env ctx update).Allowed A W' t) (hW : ∀ t t', W' t t' → W t t')
    (hrefl : ∀ t, W' t t) (htrans : ∀ t₁ t₂ t₃, W' t₁ t₂ → W' t₂ t₃ → W' t₁ t₃)
    (hwrites : (plugin env ctx update).WritesFirst true (· = true))
    (hnext : ∀ t', W' t t' → (dispatch env ctx update plugins).Allowed A W t') :
    (dispatch env ctx update (plugin :: plugins)).Allowed A W t := by
  refine Allowed.bind (hplugin.mono (fun _ h => h) hW) (fun handled t' hadvance => ?_) hwrites ?_
  · have ht' : W' t t' := by
      have h := hplugin.advance_snd hrefl htrans
      rwa [hadvance] at h
    cases handled with
    | true => trivial
    | false => exact hnext t' ht'
  · rintro handled rfl
    exact confined_pure _

/-- So all of a dispatch is allowed. -/
theorem dispatch_startupPlugins_allowed :
    (dispatch env ctx update startupPlugins).Allowed (Licensed.suspension env ctx t update)
      (Reconfigures env ctx t.rules update) t := by
  have hbefore : ∀ t₁ t₂ t₃ : Tables, Before t₁ t₂ → Before t₂ t₃ → Before t₁ t₃ :=
    fun _ _ _ h h' => ⟨h'.1.trans h.1, h'.2.trans h.2⟩
  have hsame : ∀ t₁ t₂ t₃ : Tables, t₂.rules = t₁.rules → t₃.rules = t₂.rules →
      t₃.rules = t₁.rules := fun _ _ _ h h' => h'.trans h
  refine dispatch_allowed incomingSnapshotPlugin_allowed (fun _ _ h => .of_rules_eq h.1)
    (fun _ => ⟨rfl, rfl⟩) hbefore incomingSnapshotPlugin_writesFirst fun t₁ h₁ => ?_
  refine dispatch_allowed messageLoggingPlugin_allowed (fun _ _ h => .of_rules_eq h.1)
    (fun _ => ⟨rfl, rfl⟩) hbefore messageLoggingPlugin_writesFirst fun t₂ h₂ => ?_
  have h₂ := hbefore _ _ _ h₁ h₂
  refine dispatch_allowed (antiLinkPlugin_allowed h₂.1) (fun _ _ h => .of_rules_eq h.1)
    (fun _ => ⟨rfl, rfl⟩) hbefore antiLinkPlugin_writesFirst fun t₃ h₃ => ?_
  have h₃ := hbefore _ _ _ h₂ h₃
  refine dispatch_allowed (antiFloodPlugin_allowed h₃.1 h₃.2) (fun _ _ h => .of_rules_eq h)
    (fun _ => rfl) hsame antiFloodPlugin_writesFirst fun t₄ h₄ => ?_
  have h₄ := hsame _ _ _ h₃.1 h₄
  refine dispatch_allowed (filterWordsPlugin_allowed h₄) (fun _ _ h => .of_rules_eq h)
    (fun _ => rfl) hsame filterWordsPlugin_writesFirst fun t₅ h₅ => ?_
  have h₅ := hsame _ _ _ h₄ h₅
  refine dispatch_allowed (commandsPlugin_allowed h₅) (fun _ _ h => h)
    (fun _ => .of_rules_eq rfl) (fun _ _ _ h h' => h.trans h')
    (commandsPlugin_writesFirst _).reading fun t₆ _ => ?_
  exact dispatch_allowed panelPlugin_allowed (fun _ _ h => h) (fun _ => .of_rules_eq rfl)
    (fun _ _ _ h h' => h.trans h') panelPlugin_writesFirst fun _ _ => trivial

/-- **A dispatch keeps to what it is allowed**, by the tables that it starts on. -/
theorem processJob_allowed (env : Env) (ctx : Context) (job : Job) (t : Tables) :
    (processJob env ctx job).Allowed (Licensed.suspension env ctx t (updateOf job))
      (Reconfigures env ctx t.rules (updateOf job)) t := by
  -- the job in the context is nothing that a licence asks for
  refine dispatch_startupPlugins_allowed.mono (fun c hc => ?_)
    fun _ _ h => ⟨h.admins, h.settings, h.filters⟩
  cases c with
  | sleep => trivial
  | api call => cases call <;> exact hc

end Plugins

end Suspending

end RubicaBot
