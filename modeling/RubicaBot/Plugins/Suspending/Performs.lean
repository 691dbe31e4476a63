import RubicaBot.Plugins.Suspending

/-!
# RubicaBot.Plugins.Suspending.Performs

A dispatch that has the process to itself: each coroutine of `Suspending`, with a client
that answers at once, is the computation that the other modules prove things about.
-/

namespace RubicaBot

open Py

/-- The environment with another client. -/
def Env.answering (env : Env) (reply : Nat → ApiCall → Except PyError PyVal) : Env :=
  { env with reply := reply }

/-- By induction on the filters. -/
theorem filterVerdict_answering (env : Env) (reply : Nat → ApiCall → Except PyError PyVal)
    (text : PyVal) (matched : Bool) (filters : List Filter) :
    filterVerdict (env.answering reply) text matched filters =
      filterVerdict env text matched filters := by
  induction filters generalizing matched with
  | nil => rfl
  | cons f fs ih =>
      have hhits : f.hits (env.answering reply) text = f.hits env text := rfl
      simp only [filterVerdict, hhits, ih]

namespace Suspending

variable {α β : Type} (env : Env)

/-- The client answers at once, and a pause is over at once. -/
def answer : Suspension → List ApiCall → Except PyError PyVal × List ApiCall
  | .api call, calls => (env.reply calls.length call, calls ++ [call])
  | .sleep, calls => (.ok .none, calls)

/-- What a coroutine does that has the process to itself. -/
def perform (m : Suspending α) : BotM α := fun w =>
  ((m.run (answer env) (w.tables, w.apiCalls)).1,
    (m.run (answer env) (w.tables, w.apiCalls)).2.1.world
      (m.run (answer env) (w.tables, w.apiCalls)).2.2)

/-- The coroutine `m` and the computation `b` are the same. -/
def Performs (m : Suspending α) (b : BotM α) : Prop := perform env m = b

variable {env}

/-- A value. -/
theorem performs_pure (a : α) : Performs env (pure a) (pure a) := rfl

/-- A result. -/
theorem performs_lift (x : Except PyError α) :
    Performs env (Coroutine.lift x) (Effect.lift x) := rfl

/-- Both read the same. -/
theorem performs_query {f : Tables → Except PyError α} {g : World → Except PyError α}
    (h : ∀ w, f w.tables = g w) : Performs env (.atomic (.query f)) (.query g) := by
  funext w
  exact congrArg (·, w) (h w)

/-- And write the same. -/
theorem performs_update {f : Tables → Tables} {g : World → World}
    (h : ∀ w, (f w.tables).world w.apiCalls = g w) :
    Performs env (.atomic (.update f)) (.update g) := by
  funext w
  exact congrArg (Except.ok (), ·) (h w)

/-- A write that raises, raises in both. -/
theorem performs_tryUpdate {f : Tables → Except PyError Tables}
    {g : World → Except PyError World}
    (h : ∀ w, (f w.tables).map (·.world w.apiCalls) = g w) :
    Performs env (.atomic (.tryUpdate f)) (.tryUpdate g) := by
  funext w
  have hw := h w
  show ((Effect.tryUpdate f w.tables).1, (Effect.tryUpdate f w.tables).2.world w.apiCalls) = _
  cases hf : f w.tables with
  | error e =>
      rw [hf] at hw
      rw [Effect.tryUpdate_of_error hf, Effect.tryUpdate_of_error hw.symm]
      rfl
  | ok t =>
      rw [hf] at hw
      rw [Effect.tryUpdate_of_ok hf, Effect.tryUpdate_of_ok hw.symm]

/-- One after the other. -/
theorem Performs.bind {m : Suspending α} {b : BotM α} {g : α → Suspending β} {k : α → BotM β}
    (hm : Performs env m b) (hg : ∀ a, Performs env (g a) (k a)) :
    Performs env (m >>= g) (b >>= k) := by
  funext w
  rw [← hm, ← funext hg]
  cases h : m.run (answer env) (w.tables, w.apiCalls) with
  | mk result s =>
      cases result with
      | ok a => simp only [perform, Coroutine.run_bind, Effect.bind_apply, h, World.tables_world,
          World.apiCalls_world]
      | error e => simp only [perform, Coroutine.run_bind, Effect.bind_apply, h]

/-- What is done with the result of a query may rest on its being one. -/
theorem performs_query_bind {f : Tables → Except PyError α} {g : World → Except PyError α}
    {m : α → Suspending β} {b : α → BotM β} (hf : ∀ w, f w.tables = g w)
    (hg : ∀ w a, g w = .ok a → Performs env (m a) (b a)) :
    Performs env (.atomic (.query f) >>= m) (.query g >>= b) := by
  funext w
  cases hgw : g w with
  | error e =>
      have hrun : Effect.query g w = (.error e, w) := congrArg (·, w) hgw
      rw [Effect.bind_of_error hrun]
      simp only [perform, Coroutine.run_bind, Effect.bind_apply, Coroutine.run_atomic,
        Effect.query, hf, hgw, World.world_tables]
  | ok a =>
      have hrun : Effect.query g w = (.ok a, w) := congrArg (·, w) hgw
      rw [Effect.bind_of_ok hrun, ← hg w a hgw]
      simp only [perform, Coroutine.run_bind, Effect.bind_apply, Coroutine.run_atomic,
        Effect.query, hf, hgw]

/-- The exception is caught by either. -/
theorem Performs.attempt {m : Suspending α} {b : BotM α} (hm : Performs env m b) :
    Performs env m.attempt b.attempt := by
  funext w
  rw [← hm, perform, Coroutine.run_attempt]
  rfl

/-- On both branches. -/
theorem Performs.ite {c : Prop} [Decidable c] {m m' : Suspending α} {b b' : BotM α}
    (hm : Performs env m b) (hm' : Performs env m' b') :
    Performs env (if c then m else m') (if c then b else b') := by
  split
  · exact hm
  · exact hm'

/-- Whether it is run or not. -/
theorem Performs.when {m : Suspending α} {b : BotM α} (hm : Performs env m b) (c : Bool) :
    Performs env (m.when c) (b.when c) :=
  Performs.ite (hm.bind fun _ => performs_pure _) (performs_pure _)

/-! ## the client and the repository -/

/-- The call is recorded, and answered by the client. -/
theorem callApi_performs (call : ApiCall) :
    Performs env (callApi call) (BotM.callApi env call) := rfl

theorem sendMessage_performs (chatId : PyVal) (text : String) (keypad : Option PyVal) :
    Performs env (sendMessage chatId text keypad) (BotM.sendMessage env chatId text keypad) :=
  (callApi_performs _).bind fun _ => performs_pure _

theorem banChatMember_performs (chatId userId : PyVal) :
    Performs env (banChatMember chatId userId) (BotM.banChatMember env chatId userId) :=
  (callApi_performs _).bind fun _ => performs_pure _

/-- A pause does nothing. -/
theorem sleep_performs : Performs env sleep (pure ()) := rfl

theorem getGroup_performs (chatId : PyVal) :
    Performs env (getGroup chatId) (BotM.getGroup chatId) :=
  performs_query fun _ => rfl

theorem listFilters_performs (chatId : PyVal) :
    Performs env (listFilters chatId) (BotM.listFilters chatId) :=
  performs_query fun _ => rfl

theorem setGroupFlag_performs (chatId : PyVal) (key : Flag) (value : Bool) :
    Performs env (setGroupFlag chatId key value) (BotM.setGroupFlag chatId key value) := by
  refine performs_tryUpdate fun w => ?_
  show Except.map _ (w.rules.setGroupFlag chatId key value >>= _) =
    w.rules.setGroupFlag chatId key value >>= _
  cases w.rules.setGroupFlag chatId key value <;> rfl

theorem addFilter_performs (chatId : PyVal) (word : String) (isWhitelist regexEnabled : Bool) :
    Performs env (addFilter chatId word isWhitelist regexEnabled)
      (BotM.addFilter chatId word isWhitelist regexEnabled) := by
  refine performs_tryUpdate fun w => ?_
  show Except.map _ (w.rules.addFilter chatId word isWhitelist regexEnabled >>= _) =
    w.rules.addFilter chatId word isWhitelist regexEnabled >>= _
  cases w.rules.addFilter chatId word isWhitelist regexEnabled <;> rfl

theorem removeFilter_performs (chatId : PyVal) (word : String) :
    Performs env (removeFilter chatId word) (BotM.removeFilter chatId word) := by
  refine performs_tryUpdate fun w => ?_
  show Except.map _ (w.rules.removeFilter chatId word >>= _) =
    w.rules.removeFilter chatId word >>= _
  cases w.rules.removeFilter chatId word <;> rfl

/-! ## the handlers -/

/-- The two versions of a handler are the same. -/
def HandlerPerforms (handler : SuspendingHandler) (handler' : Handler) : Prop :=
  ∀ env ctx message args,
    Performs env (handler env ctx message args) (handler' env ctx message args)

variable {message : PyVal}

/-- Both read the chat from the message. -/
theorem inChat_performs {act : PyVal → Suspending Unit} {act' : PyVal → BotM Unit}
    (h : ∀ chatId, Performs env (act chatId) (act' chatId)) :
    Performs env (inChat message act) (RubicaBot.inChat message act') :=
  (performs_lift _).bind fun chatId => (h chatId).ite (performs_pure _)

theorem replyWith_performs (text : Env → Context → List String → String) :
    HandlerPerforms (replyWith text) (RubicaBot.replyWith text) :=
  fun _ _ _ _ => inChat_performs fun _ => sendMessage_performs _ _ _

theorem setcmdHandler_performs :
    HandlerPerforms setcmdHandler RubicaBot.setcmdHandler := fun _ _ _ _ =>
  (callApi_performs _).bind fun _ => performs_pure _

theorem idHandler_performs : HandlerPerforms idHandler RubicaBot.idHandler := fun _ _ _ _ =>
  inChat_performs fun _ => (performs_lift _).bind fun _ =>
    (performs_lift _).bind fun _ => sendMessage_performs _ _ _

theorem calcHandler_performs : HandlerPerforms calcHandler RubicaBot.calcHandler := by
  intro env ctx message args
  refine inChat_performs fun chatId => (sendMessage_performs _ _ _).ite ?_
  cases env.safeEval (" ".intercalate args) with
  | ok result => exact sendMessage_performs _ _ _
  | error e =>
      obtain ⟨e, text⟩ := e
      cases e <;> first | exact sendMessage_performs _ _ _ | exact performs_lift _

theorem settingsHandler_performs :
    HandlerPerforms settingsHandler RubicaBot.settingsHandler := fun _ _ _ _ =>
  inChat_performs fun _ => (getGroup_performs _).bind fun _ => sendMessage_performs _ _ _

theorem adminsHandler_performs :
    HandlerPerforms adminsHandler RubicaBot.adminsHandler := fun _ _ _ _ =>
  inChat_performs fun _ => (performs_query fun _ => rfl).bind fun _ => sendMessage_performs _ _ _

theorem antilinkHandler_performs : HandlerPerforms antilinkHandler RubicaBot.antilinkHandler := by
  intro env ctx message args
  refine inChat_performs fun chatId => ?_
  cases args with
  | nil => exact performs_pure _
  | cons word rest =>
      exact (setGroupFlag_performs _ _ _).bind fun _ => sendMessage_performs _ _ _

theorem filterHandler_performs : HandlerPerforms filterHandler RubicaBot.filterHandler := by
  intro env ctx message args
  refine inChat_performs fun chatId => ?_
  cases args with
  | nil => exact sendMessage_performs _ _ _
  | cons word rest =>
      refine Performs.ite ?_ ?_
      · refine (listFilters_performs _).bind fun filters => ?_
        exact (sendMessage_performs _ _ _).ite (sendMessage_performs _ _ _)
      · cases rest with
        | nil => exact sendMessage_performs _ _ _
        | cons word rest =>
            refine Performs.ite ?_ (Performs.ite ?_ (performs_pure _))
            · exact (addFilter_performs _ _ _ _).bind fun _ => sendMessage_performs _ _ _
            · exact (removeFilter_performs _ _).bind fun _ => sendMessage_performs _ _ _

/-- By induction on the messages still to delete. -/
theorem deleteEach_performs (chatId : PyVal) (idx deleted failed : Nat)
    (messageIds : List String) :
    Performs env (deleteEach chatId idx deleted failed messageIds)
      (RubicaBot.deleteEach env chatId deleted failed messageIds) := by
  induction messageIds generalizing idx deleted failed with
  | nil => exact performs_pure _
  | cons messageId messageIds ih =>
      refine Performs.bind (Performs.attempt (callApi_performs _)) fun outcome => ?_
      have hpause : Performs env (Coroutine.when (idx % 25 == 0) sleep) (pure ()) := by
        cases idx % 25 == 0 with
        | false => exact performs_pure _
        | true => exact sleep_performs
      exact hpause.bind fun _ => (ih _ _ _).ite (ih _ _ _)

theorem deleteHandler_performs : HandlerPerforms deleteHandler RubicaBot.deleteHandler := by
  intro env ctx message args
  refine inChat_performs fun chatId => ?_
  cases deleteLimit env.unicode args with
  | none => exact sendMessage_performs _ _ _
  | some limit =>
      refine (sendMessage_performs _ _ _).ite ?_
      refine (performs_query fun _ => rfl).bind fun messageIds => ?_
      refine (sendMessage_performs _ _ _).ite ?_
      exact (deleteEach_performs _ _ _ _ _).bind fun _ => sendMessage_performs _ _ _

theorem banHandler_performs : HandlerPerforms banHandler RubicaBot.banHandler := fun _ _ _ _ =>
  inChat_performs fun _ => (performs_lift _).bind fun _ =>
    (banChatMember_performs _ _).ite (performs_pure _)

theorem unbanHandler_performs : HandlerPerforms unbanHandler RubicaBot.unbanHandler := by
  intro env ctx message args
  refine inChat_performs fun chatId => ?_
  cases args with
  | nil => exact performs_pure _
  | cons word rest => exact (callApi_performs _).bind fun _ => performs_pure _

/-- The handler that stands where the command stands is found under its name. -/
theorem lookup_of_forall₂ {commands : List Command} {entries : List (String × SuspendingHandler)}
    (h : List.Forall₂ (fun command entry =>
      command.name = entry.1 ∧ HandlerPerforms entry.2 command.handler) commands entries)
    (hnodup : (commands.map (·.name)).Nodup) {command : Command} (hmem : command ∈ commands) :
    ∃ handler, entries.lookup command.name = some handler ∧
      HandlerPerforms handler command.handler := by
  induction h with
  | nil => exact absurd hmem List.not_mem_nil
  | @cons first entry rest entries hfirst _ ih =>
      obtain ⟨hnot, hnodup⟩ := List.nodup_cons.mp hnodup
      rw [← Prod.eta entry, List.lookup_cons]
      obtain rfl | hmem := List.mem_cons.mp hmem
      · exact ⟨entry.2, by rw [hfirst.1, beq_self_eq_true], hfirst.2⟩
      · have hne : command.name ≠ entry.1 := fun heq =>
          hnot (List.mem_map.mpr ⟨command, hmem, heq.trans hfirst.1.symm⟩)
        rw [beq_eq_false_iff_ne.mpr hne]
        exact ih hnodup hmem

/-- The handlers stand in the order in which the commands are registered. -/
theorem handlers_perform :
    List.Forall₂ (fun command entry =>
        command.name = entry.1 ∧ HandlerPerforms entry.2 command.handler)
      startupCommands handlers :=
  .cons ⟨rfl, replyWith_performs _⟩ <| .cons ⟨rfl, setcmdHandler_performs⟩ <|
  .cons ⟨rfl, replyWith_performs _⟩ <| .cons ⟨rfl, replyWith_performs _⟩ <|
  .cons ⟨rfl, replyWith_performs _⟩ <| .cons ⟨rfl, replyWith_performs _⟩ <|
  .cons ⟨rfl, idHandler_performs⟩ <| .cons ⟨rfl, replyWith_performs _⟩ <|
  .cons ⟨rfl, calcHandler_performs⟩ <| .cons ⟨rfl, replyWith_performs _⟩ <|
  .cons ⟨rfl, replyWith_performs _⟩ <| .cons ⟨rfl, replyWith_performs _⟩ <|
  .cons ⟨rfl, replyWith_performs _⟩ <| .cons ⟨rfl, replyWith_performs _⟩ <|
  .cons ⟨rfl, settingsHandler_performs⟩ <| .cons ⟨rfl, adminsHandler_performs⟩ <|
  .cons ⟨rfl, antilinkHandler_performs⟩ <| .cons ⟨rfl, filterHandler_performs⟩ <|
  .cons ⟨rfl, deleteHandler_performs⟩ <| .cons ⟨rfl, banHandler_performs⟩ <|
  .cons ⟨rfl, unbanHandler_performs⟩ .nil

/-- The handlers of the two models are the same. -/
theorem handlerOf_performs {command : Command} (hmem : command ∈ startupRegistry.commands) :
    HandlerPerforms (handlerOf command.name) command.handler := by
  rw [startupRegistry_commands] at hmem
  obtain ⟨handler, hlookup, hperforms⟩ := lookup_of_forall₂ handlers_perform (by decide) hmem
  rw [handlerOf, hlookup]
  exact hperforms

/-! ## the plugins -/

variable {ctx : Context} {update : PyVal}

theorem incomingSnapshotPlugin_performs :
    Performs env (incomingSnapshotPlugin env ctx update)
      (RubicaBot.incomingSnapshotPlugin env ctx update) :=
  (performs_lift _).bind fun _ => (performs_update fun _ => rfl).bind fun _ => performs_pure _

theorem messageLoggingPlugin_performs :
    Performs env (messageLoggingPlugin env ctx update)
      (RubicaBot.messageLoggingPlugin env ctx update) := by
  refine Performs.bind (performs_tryUpdate fun w => ?_) fun _ => performs_pure _
  show Except.map _ (logMessage w.messages update >>= _) = logMessage w.messages update >>= _
  cases logMessage w.messages update <;> rfl

/-- Both find the same, and do the same about it. -/
theorem actOn_performs {find : Tables → Except PyError (Option α)}
    {find' : World → Except PyError (Option α)} {act : α → Suspending Bool} {act' : α → BotM Bool}
    (hfind : ∀ w, find w.tables = find' w) (hact : ∀ x, Performs env (act x) (act' x)) :
    Performs env (actOn find act) (RubicaBot.actOn find' act') := by
  refine (performs_query hfind).bind fun found => ?_
  cases found with
  | none => exact performs_pure _
  | some x => exact hact x

theorem antiLinkPlugin_performs :
    Performs env (antiLinkPlugin env ctx update) (RubicaBot.antiLinkPlugin env ctx update) :=
  actOn_performs (fun _ => rfl) fun _ =>
    ((callApi_performs _).when _).bind fun _ =>
      ((banChatMember_performs _ _).when _).bind fun _ =>
        ((sendMessage_performs _ _ _).when _).bind fun _ => performs_pure _

theorem punishFlood_performs (s : FloodSubject) :
    Performs env (punishFlood s) (RubicaBot.punishFlood env s) :=
  (performs_lift _).bind fun _ =>
    ((callApi_performs _).when _).bind fun _ =>
      (banChatMember_performs _ _).bind fun _ => performs_pure _

theorem antiFloodPlugin_performs :
    Performs env (antiFloodPlugin env ctx update) (RubicaBot.antiFloodPlugin env ctx update) :=
  actOn_performs (fun _ => rfl) fun s =>
    (performs_query fun _ => rfl).bind fun _ =>
      (performs_update fun _ => rfl).bind fun _ => (punishFlood_performs s).ite (performs_pure _)

theorem filterWordsPlugin_performs :
    Performs env (filterWordsPlugin env ctx update)
      (RubicaBot.filterWordsPlugin env ctx update) :=
  actOn_performs (fun _ => rfl) fun _ =>
    ((callApi_performs _).when _).bind fun _ => performs_pure _

/-- The handler that runs is that of a registered command. -/
theorem commandsPlugin_performs :
    Performs env (commandsPlugin startupRegistry env ctx update)
      (RubicaBot.commandsPlugin startupRegistry env ctx update) := by
  refine performs_query_bind (fun _ => rfl) fun w verdict hverdict => ?_
  cases verdict with
  | ignored => exact performs_pure _
  | denied chatId => exact (sendMessage_performs _ _ _).bind fun _ => performs_pure _
  | invoked inv =>
      have hmem := (requestedCommand_eq_some (commandVerdict_eq_invoked.mp hverdict).1).1
      exact (handlerOf_performs hmem env ctx inv.message inv.args).bind fun _ => performs_pure _

theorem refreshPanel_performs (chatId callback : PyVal) :
    Performs env (refreshPanel chatId callback) (RubicaBot.refreshPanel env chatId callback) :=
  (performs_lift _).bind fun _ => Performs.ite
    ((getGroup_performs _).bind fun _ => (callApi_performs _).bind fun _ => performs_pure _)
    (performs_pure _)

theorem togglePanel_performs (chatId : PyVal) (key : Flag) (callback : PyVal) :
    Performs env (togglePanel chatId key callback)
      (RubicaBot.togglePanel env chatId key callback) :=
  (getGroup_performs _).bind fun _ => (setGroupFlag_performs _ _ _).bind fun _ =>
    (sendMessage_performs _ _ _).bind fun _ => refreshPanel_performs _ _

theorem servePanel_performs (request : PanelRequest) :
    Performs env (servePanel request) (RubicaBot.servePanel env request) := by
  cases request with
  | panel chatId =>
      exact Performs.ite ((getGroup_performs _).bind fun _ => sendMessage_performs _ _ _)
        (performs_pure _)
  | toggle chatId key callback => exact togglePanel_performs chatId key callback
  | filters chatId =>
      exact (listFilters_performs _).bind fun _ =>
        (sendMessage_performs _ _ _).ite (sendMessage_performs _ _ _)
  | delete chatId => exact sendMessage_performs _ _ _

theorem panelPlugin_performs :
    Performs env (panelPlugin env ctx update) (RubicaBot.panelPlugin env ctx update) := by
  refine (performs_lift _).bind fun request => ?_
  cases request with
  | none => exact performs_pure _
  | some request => exact (servePanel_performs request).bind fun _ => performs_pure _

/-! ## the chain -/

/-- If the plugins are the same, the chains are. -/
theorem dispatch_performs {plugins : List SuspendingPlugin} {plugins' : List Plugin}
    (h : List.Forall₂ (fun p p' => Performs env (p env ctx update) (p' env ctx update)) plugins
      plugins') :
    Performs env (dispatch env ctx update plugins)
      (RubicaBot.dispatch env ctx update plugins') := by
  induction h with
  | nil => exact performs_pure _
  | cons hp _ ih => exact hp.bind fun _ => (performs_pure _).ite ih

/-- **One dispatch, two models.** -/
theorem processJob_performs (job : Job) :
    Performs env (processJob env ctx job) (RubicaBot.processJob env ctx job) :=
  dispatch_performs
    (.cons incomingSnapshotPlugin_performs <| .cons messageLoggingPlugin_performs <|
      .cons antiLinkPlugin_performs <| .cons antiFloodPlugin_performs <|
      .cons filterWordsPlugin_performs <| .cons commandsPlugin_performs <|
      .cons panelPlugin_performs .nil)

/-! ## another client -/

section Answering

variable (env : Env) (reply : Nat → ApiCall → Except PyError PyVal)

/-- No handler asks what the client will answer. -/
theorem handlers_answering : ∀ entry ∈ handlers, entry.2 (env.answering reply) = entry.2 env := by
  simp only [handlers, List.forall_mem_cons]
  exact ⟨rfl, rfl, rfl, rfl, rfl, rfl, rfl, rfl, rfl, rfl, rfl, rfl, rfl, rfl, rfl, rfl, rfl, rfl,
    rfl, rfl, rfl, List.forall_mem_nil _⟩

/-- So the handler of a command does not. -/
theorem handlerOf_answering (name : String) :
    handlerOf name (env.answering reply) = handlerOf name env := by
  unfold handlerOf
  cases hlookup : handlers.lookup name with
  | none => rfl
  | some handler =>
      obtain ⟨before, after, hsplit, -⟩ := List.lookup_eq_some_iff.mp hlookup
      exact handlers_answering env reply (name, handler) (hsplit ▸ by simp)

/-- Nor does the search for words. -/
theorem filterOffence_answering (rules : Rules) (update : PyVal) :
    filterOffence (env.answering reply) rules update = filterOffence env rules update := by
  simp only [filterOffence, filterOffenceWith, filterVerdict_answering]

theorem filterWordsPlugin_answering (update : PyVal) :
    filterWordsPlugin (env.answering reply) ctx update = filterWordsPlugin env ctx update := by
  simp only [filterWordsPlugin, filterOffence_answering]

theorem commandsPlugin_answering (registry : CommandRegistry) (update : PyVal) :
    commandsPlugin registry (env.answering reply) ctx update =
      commandsPlugin registry env ctx update := by
  have hrequested : requestedCommand (env.answering reply) registry update =
      requestedCommand env registry update := by
    simp only [requestedCommand, Env.answering]
  simp only [commandsPlugin, commandVerdict, hrequested, handlerOf_answering]

theorem panelPlugin_answering (update : PyVal) :
    panelPlugin (env.answering reply) ctx update = panelPlugin env ctx update := by
  simp only [panelPlugin]

/-- Nor any plugin. -/
theorem startupPlugins_answering (update : PyVal) : ∀ plugin ∈ startupPlugins,
    plugin (env.answering reply) ctx update = plugin env ctx update := by
  simp only [startupPlugins, List.forall_mem_cons]
  exact ⟨rfl, rfl, rfl, rfl, filterWordsPlugin_answering env reply update,
    commandsPlugin_answering env reply _ update, panelPlugin_answering env reply update,
    List.forall_mem_nil _⟩

/-- Nor the chain. -/
theorem dispatch_answering {update : PyVal} {plugins : List SuspendingPlugin}
    (h : ∀ plugin ∈ plugins, plugin (env.answering reply) ctx update = plugin env ctx update) :
    dispatch (env.answering reply) ctx update plugins = dispatch env ctx update plugins := by
  induction plugins with
  | nil => rfl
  | cons plugin plugins ih =>
      obtain ⟨hfirst, hrest⟩ := List.forall_mem_cons.mp h
      simp only [dispatch, hfirst, ih hrest]

/-- A dispatch does not depend on the client before it is answered. -/
theorem processJob_answering (job : Job) :
    processJob (env.answering reply) ctx job = processJob env ctx job :=
  dispatch_answering env reply (startupPlugins_answering env reply _)

end Answering

end Suspending

end RubicaBot
