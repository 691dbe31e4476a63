import RubicaBot.Coroutine.Blind
import RubicaBot.Plugins.Suspending.Atomicity

/-!
# RubicaBot.Plugins.Suspending.Blind

A dispatch does not see the two logs.

It adds to the messages and to the snapshots, but whatever it writes is the same for tables
that differ in nothing else (`processJob_blind`): the one handler that reads messages is
that of `/del`, and all it does with them is to call the client.
-/

namespace RubicaBot

open Py Coroutine

/-- The tables differ in the logs only, and there as `M` and `I` allow. -/
structure SameButLogs (M : List MessageRow → List MessageRow → Prop)
    (I : List IncomingRow → List IncomingRow → Prop) (t t' : Tables) : Prop where
  rules : t.rules = t'.rules
  floodEvents : t.floodEvents = t'.floodEvents
  flagWrites : t.flagWrites = t'.flagWrites
  messages : M t.messages t'.messages
  incomingUpdates : I t.incomingUpdates t'.incomingUpdates

/-- The relation stays when the same is logged on both sides. -/
def Logs {ρ : Type} (R : List ρ → List ρ → Prop) : Prop :=
  ∀ rows xs ys, R xs ys → R (rows ++ xs) (rows ++ ys)

/-- What is logged does not depend on what has been logged before. -/
def Uniform (log : List MessageRow → Except PyError (List MessageRow)) : Prop :=
  ∃ logged : Except PyError (List MessageRow),
    ∀ messages, log messages = logged.map (· ++ messages)

/-- What is decided before the log is looked at. -/
theorem uniform_bind {α : Type} {x : Except PyError α}
    {log : α → List MessageRow → Except PyError (List MessageRow)}
    (h : ∀ a, Uniform (log a)) : Uniform fun messages => x >>= fun a => log a messages := by
  cases x with
  | error e => exact ⟨.error e, fun _ => rfl⟩
  | ok a => exact h a

/-- Nothing is logged. -/
theorem uniform_pure : Uniform pure := ⟨.ok [], fun _ => rfl⟩

/-- A row is added whatever the log is. -/
theorem uniform_saveMessage (chatId messageId senderId text : PyVal) :
    Uniform fun messages => saveMessage messages chatId messageId senderId text := by
  refine uniform_bind fun chat => uniform_bind fun message => uniform_bind fun sender =>
    uniform_bind fun body => ?_
  cases chat with
  | none => exact ⟨.error .sqliteIntegrity, fun _ => rfl⟩
  | some chat =>
      cases message with
      | none => exact ⟨.error .sqliteIntegrity, fun _ => rfl⟩
      | some message => exact ⟨.ok [⟨chat, message, sender, body⟩], fun _ => rfl⟩

/-- So a message is logged, or fails to be, whatever the log is. -/
theorem uniform_logMessage (update : PyVal) :
    Uniform fun messages => logMessage messages update := by
  refine uniform_bind fun message => ?_
  cases message.truthy with
  | false => exact uniform_pure
  | true =>
      refine uniform_bind fun chatId => uniform_bind fun messageId => ?_
      cases chatId.truthy && messageId.truthy with
      | false => exact uniform_pure
      | true =>
          exact uniform_bind fun senderId => uniform_bind fun text =>
            uniform_saveMessage chatId messageId senderId text

namespace Suspending

variable {M : List MessageRow → List MessageRow → Prop}
  {I : List IncomingRow → List IncomingRow → Prop}

/-! ## the effects -/

/-- A query of what is not in the logs. -/
theorem query_same {α : Type} {f : Tables → Except PyError α}
    (hf : ∀ t t', SameButLogs M I t t' → f t = f t') :
    ∀ t t', SameButLogs M I t t' → (Effect.query f t).1 = (Effect.query f t').1 ∧
      SameButLogs M I (Effect.query f t).2 (Effect.query f t').2 :=
  fun t t' h => ⟨hf t t' h, h⟩

/-- What two updates do that fail alike. -/
theorem tryUpdate_same {f : Tables → Except PyError Tables}
    (hf : ∀ t t', SameButLogs M I t t' → (∃ e, f t = .error e ∧ f t' = .error e) ∨
      ∃ u u', f t = .ok u ∧ f t' = .ok u' ∧ SameButLogs M I u u') :
    ∀ t t', SameButLogs M I t t' → (Effect.tryUpdate f t).1 = (Effect.tryUpdate f t').1 ∧
      SameButLogs M I (Effect.tryUpdate f t).2 (Effect.tryUpdate f t').2 := by
  intro t t' h
  obtain ⟨e, ht, ht'⟩ | ⟨u, u', ht, ht', hsame⟩ := hf t t' h
  · rw [Effect.tryUpdate_of_error ht, Effect.tryUpdate_of_error ht']
    exact ⟨rfl, h⟩
  · rw [Effect.tryUpdate_of_ok ht, Effect.tryUpdate_of_ok ht']
    exact ⟨rfl, hsame⟩

/-- A write that works on the rules, and notes the same. -/
theorem writeRules_same (write : Rules → Except PyError Rules)
    (note : List FlagWrite → List FlagWrite) {f : Tables → Except PyError Tables}
    (hf : ∀ t, f t = (write t.rules).map fun rules =>
      { t with rules := rules, flagWrites := note t.flagWrites }) :
    ∀ t t', SameButLogs M I t t' → (Effect.tryUpdate f t).1 = (Effect.tryUpdate f t').1 ∧
      SameButLogs M I (Effect.tryUpdate f t).2 (Effect.tryUpdate f t').2 := by
  refine tryUpdate_same fun t t' h => ?_
  rw [hf, hf, ← h.rules]
  cases write t.rules with
  | error e => exact .inl ⟨e, rfl, rfl⟩
  | ok rules =>
      exact .inr ⟨_, _, rfl, rfl, rfl, h.floodEvents, congrArg note h.flagWrites, h.messages,
        h.incomingUpdates⟩

/-- The flags are not among the logs. -/
theorem setGroupFlag_blind (chatId : PyVal) (key : Flag) (value : Bool) {P : Unit → Prop} :
    (setGroupFlag chatId key value).Blind (SameButLogs M I) P :=
  blind_atomic <| writeRules_same (·.setGroupFlag chatId key value)
    (· ++ [⟨chatId, key, value⟩]) fun t => by cases t.rules.setGroupFlag chatId key value <;> rfl

/-- Nor are the filters. -/
theorem addFilter_blind (chatId : PyVal) (word : String) (isWhitelist regexEnabled : Bool)
    {P : Unit → Prop} :
    (addFilter chatId word isWhitelist regexEnabled).Blind (SameButLogs M I) P :=
  blind_atomic <| writeRules_same (·.addFilter chatId word isWhitelist regexEnabled) id
    fun t => by cases t.rules.addFilter chatId word isWhitelist regexEnabled <;> rfl

/-- And here as well. -/
theorem removeFilter_blind (chatId : PyVal) (word : String) {P : Unit → Prop} :
    (removeFilter chatId word).Blind (SameButLogs M I) P :=
  blind_atomic <| writeRules_same (·.removeFilter chatId word) id
    fun t => by cases t.rules.removeFilter chatId word <;> rfl

/-! ## the handlers -/

/-- The handler is blind to the logs. -/
def HandlerBlind (M : List MessageRow → List MessageRow → Prop)
    (I : List IncomingRow → List IncomingRow → Prop) (handler : SuspendingHandler) : Prop :=
  ∀ env ctx message args, (handler env ctx message args).Blind (SameButLogs M I) fun _ => True

/-- The chat is read from the message. -/
theorem inChat_blind {message : PyVal} {act : PyVal → Suspending Unit}
    (h : ∀ chatId, (act chatId).Blind (SameButLogs M I) fun _ => True) :
    (inChat message act).Blind (SameButLogs M I) fun _ => True :=
  blind_lift_bind fun chatId => (h chatId).ite (blind_pure _)

theorem sendMessage_blind (chatId : PyVal) (text : String) (keypad : Option PyVal) :
    (sendMessage chatId text keypad).Blind (SameButLogs M I) fun _ => True :=
  (sendMessage_quiet chatId text keypad).blind

theorem replyWith_blind (text : Env → Context → List String → String) :
    HandlerBlind M I (replyWith text) :=
  fun _ _ _ _ => inChat_blind fun _ => sendMessage_blind _ _ _

theorem setcmdHandler_blind : HandlerBlind M I setcmdHandler :=
  fun _ _ _ _ => ((callApi_quiet _).bind fun _ _ => quiet_pure trivial).blind

theorem idHandler_blind : HandlerBlind M I idHandler :=
  fun _ _ _ _ => inChat_blind fun _ => blind_lift_bind fun _ => blind_lift_bind fun _ =>
    sendMessage_blind _ _ _

theorem calcHandler_blind : HandlerBlind M I calcHandler := by
  intro env ctx message args
  refine inChat_blind fun chatId => (sendMessage_blind _ _ _).ite ?_
  cases env.safeEval (" ".intercalate args) with
  | ok result => exact sendMessage_blind _ _ _
  | error e =>
      obtain ⟨e, text⟩ := e
      cases e <;> first | exact sendMessage_blind _ _ _ | exact blind_lift _

/-- The settings are not read from the logs. -/
theorem getGroup_same (chatId : PyVal) : ∀ t t', SameButLogs M I t t' →
    t.rules.getGroup chatId = t'.rules.getGroup chatId := fun t t' h => by rw [h.rules]

theorem settingsHandler_blind : HandlerBlind M I settingsHandler :=
  fun _ _ _ _ => inChat_blind fun chatId =>
    blind_atomic_bind (query_same (getGroup_same chatId)) fun _ => sendMessage_blind _ _ _

theorem adminsHandler_blind : HandlerBlind M I adminsHandler :=
  fun _ _ _ _ => inChat_blind fun _ =>
    blind_atomic_bind (query_same fun t t' h => by rw [h.rules]) fun _ => sendMessage_blind _ _ _

theorem antilinkHandler_blind : HandlerBlind M I antilinkHandler := by
  intro env ctx message args
  refine inChat_blind fun chatId => ?_
  cases args with
  | nil => exact blind_pure _
  | cons word rest =>
      exact (setGroupFlag_blind (P := fun _ => False) _ _ _).bind
        (fun _ => sendMessage_blind _ _ _) fun _ hfalse => hfalse.elim

theorem filterHandler_blind : HandlerBlind M I filterHandler := by
  intro env ctx message args
  refine inChat_blind fun chatId => ?_
  cases args with
  | nil => exact sendMessage_blind _ _ _
  | cons word rest =>
      refine Blind.ite ?_ ?_
      · refine blind_atomic_bind (query_same fun t t' h => by rw [h.rules]) fun filters => ?_
        exact (sendMessage_blind _ _ _).ite (sendMessage_blind _ _ _)
      · cases rest with
        | nil => exact sendMessage_blind _ _ _
        | cons word rest =>
            refine Blind.ite ?_ (Blind.ite ?_ (blind_pure _))
            · exact (addFilter_blind (P := fun _ => False) _ _ _ _).bind
                (fun _ => sendMessage_blind _ _ _) fun _ hfalse => hfalse.elim
            · exact (removeFilter_blind (P := fun _ => False) _ _).bind
                (fun _ => sendMessage_blind _ _ _) fun _ hfalse => hfalse.elim

/-- `/del` reads the messages, and writes nothing. -/
theorem deleteHandler_blind : HandlerBlind M I deleteHandler := by
  intro env ctx message args
  refine inChat_blind fun chatId => ?_
  cases deleteLimit env.unicode args with
  | none => exact sendMessage_blind _ _ _
  | some limit =>
      refine (sendMessage_blind _ _ _).ite (Quiet.blind ?_)
      refine (quiet_query _).bind fun messageIds _ => (sendMessage_quiet _ _ _).ite ?_
      exact (deleteEach_quiet _ _ _ _ _).bind fun _ _ => sendMessage_quiet _ _ _

theorem banHandler_blind : HandlerBlind M I banHandler :=
  fun _ _ _ _ => inChat_blind fun _ => blind_lift_bind fun _ =>
    ((banChatMember_quiet _ _).blind).ite (blind_pure _)

theorem unbanHandler_blind : HandlerBlind M I unbanHandler := by
  intro env ctx message args
  refine inChat_blind fun chatId => ?_
  cases args with
  | nil => exact blind_pure _
  | cons word rest => exact ((callApi_quiet _).bind fun _ _ => quiet_pure trivial).blind

/-- All handlers are blind: what `/del` reads of the messages decides only its calls. -/
theorem handlers_blind : ∀ entry ∈ handlers, HandlerBlind M I entry.2 := by
  simp only [handlers, List.forall_mem_cons]
  exact ⟨replyWith_blind _, setcmdHandler_blind, replyWith_blind _, replyWith_blind _,
    replyWith_blind _, replyWith_blind _, idHandler_blind, replyWith_blind _, calcHandler_blind,
    replyWith_blind _, replyWith_blind _, replyWith_blind _, replyWith_blind _,
    replyWith_blind _, settingsHandler_blind, adminsHandler_blind, antilinkHandler_blind,
    filterHandler_blind, deleteHandler_blind, banHandler_blind, unbanHandler_blind,
    List.forall_mem_nil _⟩

theorem handlerOf_blind (name : String) : HandlerBlind M I (handlerOf name) := by
  unfold handlerOf
  cases hlookup : handlers.lookup name with
  | none => exact fun _ _ _ _ => blind_pure _
  | some handler =>
      obtain ⟨before, after, hsplit, -⟩ := List.lookup_eq_some_iff.mp hlookup
      exact handlers_blind (name, handler) (hsplit ▸ by simp)

/-! ## the plugins -/

variable {env : Env} {ctx : Context} {update : PyVal}

theorem incomingSnapshotPlugin_blind (hI : Logs I) :
    (incomingSnapshotPlugin env ctx update).Blind (SameButLogs M I) (· = true) := by
  refine blind_lift_bind fun row =>
    blind_atomic_bind (fun t t' h => ⟨rfl, ?_⟩) fun _ => blind_pure _
  exact ⟨h.rules, h.floodEvents, h.flagWrites, h.messages, hI _ _ _ h.incomingUpdates⟩

theorem messageLoggingPlugin_blind (hM : Logs M) :
    (messageLoggingPlugin env ctx update).Blind (SameButLogs M I) (· = true) := by
  obtain ⟨logged, hlogged⟩ := uniform_logMessage update
  simp only at hlogged
  refine blind_atomic_bind (tryUpdate_same fun t t' h => ?_) fun _ => blind_pure _
  rw [hlogged, hlogged]
  cases logged with
  | error e => exact .inl ⟨e, rfl, rfl⟩
  | ok rows =>
      exact .inr ⟨_, _, rfl, rfl, h.rules, h.floodEvents, h.flagWrites,
        hM _ _ _ h.messages, h.incomingUpdates⟩

/-- The search does not look at the logs. -/
theorem actOn_blind {α : Type} {find : Tables → Except PyError (Option α)}
    {act : α → Suspending Bool} (hfind : ∀ t t', SameButLogs M I t t' → find t = find t')
    (hact : ∀ x, (act x).Blind (SameButLogs M I) (· = true)) :
    (actOn find act).Blind (SameButLogs M I) (· = true) := by
  refine blind_atomic_bind (query_same hfind) fun found => ?_
  cases found with
  | none => exact blind_pure _
  | some x => exact hact x

theorem antiLinkPlugin_blind :
    (antiLinkPlugin env ctx update).Blind (SameButLogs M I) (· = true) :=
  actOn_blind (fun t t' h => by rw [h.rules]) fun _ => Quiet.blind <|
    ((callApi_quiet _).when _).bind fun _ _ => ((banChatMember_quiet _ _).when _).bind fun _ _ =>
      ((sendMessage_quiet _ _ _).when _).bind fun _ _ => quiet_pure rfl

theorem punishFlood_blind (s : FloodSubject) :
    (punishFlood s).Blind (SameButLogs M I) (· = true) :=
  blind_lift_bind fun _ => Quiet.blind <|
    ((callApi_quiet _).when _).bind fun _ _ => (banChatMember_quiet _ _).bind fun _ _ =>
      quiet_pure rfl

theorem antiFloodPlugin_blind :
    (antiFloodPlugin env ctx update).Blind (SameButLogs M I) (· = true) := by
  refine actOn_blind (fun t t' h => by rw [h.rules]) fun s => ?_
  refine blind_atomic_bind (query_same fun t t' h => by rw [h.floodEvents]) fun exceeded => ?_
  refine blind_atomic_bind (fun t t' h => ⟨rfl, ?_⟩) fun _ =>
    (punishFlood_blind s).ite (blind_pure _)
  refine ⟨h.rules, ?_, h.flagWrites, h.messages, h.incomingUpdates⟩
  simp only [Effect.update, h.floodEvents]

theorem filterWordsPlugin_blind :
    (filterWordsPlugin env ctx update).Blind (SameButLogs M I) (· = true) :=
  actOn_blind (fun t t' h => by rw [h.rules]) fun _ => Quiet.blind <|
    ((callApi_quiet _).when _).bind fun _ _ => quiet_pure rfl

theorem commandsPlugin_blind (registry : CommandRegistry) :
    (commandsPlugin registry env ctx update).Blind (SameButLogs M I) (· = true) := by
  refine blind_atomic_bind (query_same fun t t' h => by rw [h.rules]) fun verdict => ?_
  cases verdict with
  | ignored => exact blind_pure _
  | denied chatId =>
      exact ((sendMessage_quiet _ _ _).bind fun _ _ =>
        quiet_pure (P := (· = true)) rfl).blind
  | invoked inv =>
      exact (handlerOf_blind _ env ctx inv.message inv.args).bind (fun _ => blind_pure _)
        fun _ _ => quiet_pure rfl

theorem servePanel_blind (request : PanelRequest) :
    (servePanel request).Blind (SameButLogs M I) fun _ => True := by
  cases request with
  | panel chatId =>
      refine Blind.ite ?_ (blind_pure _)
      exact blind_atomic_bind (query_same (getGroup_same chatId)) fun _ => sendMessage_blind _ _ _
  | toggle chatId key callback =>
      refine blind_atomic_bind (query_same (getGroup_same chatId)) fun settings => ?_
      refine (setGroupFlag_blind (P := fun _ => False) _ _ _).bind (fun _ => Quiet.blind ?_)
        fun _ hfalse => hfalse.elim
      exact (sendMessage_quiet _ _ _).bind fun _ _ => refreshPanel_quiet _ _
  | filters chatId =>
      refine blind_atomic_bind (query_same fun t t' h => by rw [h.rules]) fun filters => ?_
      exact (sendMessage_blind _ _ _).ite (sendMessage_blind _ _ _)
  | delete chatId => exact sendMessage_blind _ _ _

theorem panelPlugin_blind :
    (panelPlugin env ctx update).Blind (SameButLogs M I) (· = true) := by
  refine blind_lift_bind fun request => ?_
  cases request with
  | none => exact blind_pure _
  | some request =>
      exact (servePanel_blind request).bind (fun _ => blind_pure _) fun _ _ => quiet_pure rfl

/-! ## the chain -/

/-- If every plugin is blind, the chain is. -/
theorem dispatch_blind {plugins : List SuspendingPlugin}
    (h : ∀ plugin ∈ plugins, (plugin env ctx update).Blind (SameButLogs M I) (· = true)) :
    (dispatch env ctx update plugins).Blind (SameButLogs M I) fun _ => True := by
  induction plugins with
  | nil => exact blind_pure _
  | cons plugin plugins ih =>
      obtain ⟨hfirst, hrest⟩ := List.forall_mem_cons.mp h
      refine hfirst.bind (fun handled => (blind_pure _).ite (ih hrest)) ?_
      rintro handled rfl
      exact quiet_pure trivial

/-- **A dispatch does not see the logs.**  On tables that differ only there it writes the
same. -/
theorem processJob_blind (hM : Logs M) (hI : Logs I) (env : Env) (ctx : Context) (job : Job) :
    (processJob env ctx job).Blind (SameButLogs M I) fun _ => True := by
  refine dispatch_blind ?_
  simp only [startupPlugins, List.forall_mem_cons]
  exact ⟨incomingSnapshotPlugin_blind hI, messageLoggingPlugin_blind hM, antiLinkPlugin_blind,
    antiFloodPlugin_blind, filterWordsPlugin_blind, commandsPlugin_blind _, panelPlugin_blind,
    List.forall_mem_nil _⟩

end Suspending

end RubicaBot
