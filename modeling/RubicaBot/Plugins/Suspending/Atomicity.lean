import RubicaBot.Plugins.Suspending.Performs

/-!
# RubicaBot.Plugins.Suspending.Atomicity

A dispatch writes first: whatever it does to the database and to the flood histories, it
has done when it first waits for the client.  After that it does not read them either,
unless the update is a press of a toggle of the panel, whose keypad is built from the
settings as they are once the notice has been sent.

A plugin suspends only if it then ends the dispatch, so what it awaits does not stand
between the writes of the plugins after it.
-/

namespace RubicaBot

open Py Coroutine

namespace Suspending

variable {reads : Bool}

/-! ## the client -/

/-- A call of the client reads and writes nothing. -/
theorem callApi_quiet (call : ApiCall) : (callApi call).Quiet reads fun _ => True := quiet_call _

/-- Nor does a message. -/
theorem sendMessage_quiet (chatId : PyVal) (text : String) (keypad : Option PyVal) :
    (sendMessage chatId text keypad).Quiet reads fun _ => True :=
  (callApi_quiet _).bind fun _ _ => quiet_pure trivial

theorem sendMessage_writesFirst (chatId : PyVal) (text : String) (keypad : Option PyVal) :
    (sendMessage chatId text keypad).WritesFirst reads fun _ => True :=
  (sendMessage_quiet chatId text keypad).writesFirst

/-- Nor a ban. -/
theorem banChatMember_quiet (chatId userId : PyVal) :
    (banChatMember chatId userId).Quiet reads fun _ => True :=
  (callApi_quiet _).bind fun _ _ => quiet_pure trivial

/-- Nor a pause. -/
theorem sleep_quiet : sleep.Quiet reads fun _ => True :=
  (quiet_call _).bind fun _ _ => quiet_pure trivial

/-! ## the handlers -/

/-- The handler writes first, and does not look at the tables after that. -/
def HandlerWritesFirst (handler : SuspendingHandler) : Prop :=
  ∀ env ctx message args, (handler env ctx message args).WritesFirst false fun _ => True

/-- Reading the chat does not suspend. -/
theorem inChat_writesFirst {message : PyVal} {act : PyVal → Suspending Unit}
    (h : ∀ chatId, (act chatId).WritesFirst reads fun _ => True) :
    (inChat message act).WritesFirst reads fun _ => True :=
  writesFirst_lift_bind fun chatId => (h chatId).ite (writesFirst_pure _)

theorem replyWith_writesFirst (text : Env → Context → List String → String) :
    HandlerWritesFirst (replyWith text) :=
  fun _ _ _ _ => inChat_writesFirst fun _ => sendMessage_writesFirst _ _ _

theorem setcmdHandler_writesFirst : HandlerWritesFirst setcmdHandler :=
  fun _ _ _ _ => ((callApi_quiet _).bind fun _ _ => quiet_pure trivial).writesFirst

theorem idHandler_writesFirst : HandlerWritesFirst idHandler :=
  fun _ _ _ _ => inChat_writesFirst fun _ => writesFirst_lift_bind fun _ =>
    writesFirst_lift_bind fun _ => sendMessage_writesFirst _ _ _

theorem calcHandler_writesFirst : HandlerWritesFirst calcHandler := by
  intro env ctx message args
  refine inChat_writesFirst fun chatId => (sendMessage_writesFirst _ _ _).ite ?_
  cases env.safeEval (" ".intercalate args) with
  | ok result => exact sendMessage_writesFirst _ _ _
  | error e =>
      obtain ⟨e, text⟩ := e
      cases e <;> first | exact sendMessage_writesFirst _ _ _ | exact writesFirst_lift _

theorem settingsHandler_writesFirst : HandlerWritesFirst settingsHandler :=
  fun _ _ _ _ => inChat_writesFirst fun _ => writesFirst_atomic_bind fun _ =>
    sendMessage_writesFirst _ _ _

theorem adminsHandler_writesFirst : HandlerWritesFirst adminsHandler :=
  fun _ _ _ _ => inChat_writesFirst fun _ => writesFirst_atomic_bind fun _ =>
    sendMessage_writesFirst _ _ _

/-- And so is the flag. -/
theorem antilinkHandler_writesFirst : HandlerWritesFirst antilinkHandler := by
  intro env ctx message args
  refine inChat_writesFirst fun chatId => ?_
  cases args with
  | nil => exact writesFirst_pure _
  | cons word rest => exact writesFirst_atomic_bind fun _ => sendMessage_writesFirst _ _ _

/-- The filter is written before the chat is told. -/
theorem filterHandler_writesFirst : HandlerWritesFirst filterHandler := by
  intro env ctx message args
  refine inChat_writesFirst fun chatId => ?_
  cases args with
  | nil => exact sendMessage_writesFirst _ _ _
  | cons word rest =>
      refine WritesFirst.ite ?_ ?_
      · exact writesFirst_atomic_bind fun filters =>
          (sendMessage_writesFirst _ _ _).ite (sendMessage_writesFirst _ _ _)
      · cases rest with
        | nil => exact sendMessage_writesFirst _ _ _
        | cons word rest =>
            refine WritesFirst.ite ?_ (WritesFirst.ite ?_ (writesFirst_pure _))
            · exact writesFirst_atomic_bind fun _ => sendMessage_writesFirst _ _ _
            · exact writesFirst_atomic_bind fun _ => sendMessage_writesFirst _ _ _

/-- By induction on the messages still to delete. -/
theorem deleteEach_quiet (chatId : PyVal) (idx deleted failed : Nat) (messageIds : List String) :
    (deleteEach chatId idx deleted failed messageIds).Quiet reads fun _ => True := by
  induction messageIds generalizing idx deleted failed with
  | nil => exact quiet_pure trivial
  | cons messageId messageIds ih =>
      refine Quiet.bind (Quiet.attempt (callApi_quiet _)) fun outcome _ => ?_
      exact (sleep_quiet.when _).bind fun _ _ => (ih _ _ _).ite (ih _ _ _)

theorem deleteHandler_writesFirst : HandlerWritesFirst deleteHandler := by
  intro env ctx message args
  refine inChat_writesFirst fun chatId => ?_
  cases deleteLimit env.unicode args with
  | none => exact sendMessage_writesFirst _ _ _
  | some limit =>
      refine (sendMessage_writesFirst _ _ _).ite (writesFirst_atomic_bind fun messageIds => ?_)
      refine (sendMessage_writesFirst _ _ _).ite ?_
      exact ((deleteEach_quiet _ _ _ _ _).bind fun _ _ => sendMessage_quiet _ _ _).writesFirst

theorem banHandler_writesFirst : HandlerWritesFirst banHandler :=
  fun _ _ _ _ => inChat_writesFirst fun _ => writesFirst_lift_bind fun _ =>
    ((banChatMember_quiet _ _).writesFirst).ite (writesFirst_pure _)

theorem unbanHandler_writesFirst : HandlerWritesFirst unbanHandler := by
  intro env ctx message args
  refine inChat_writesFirst fun chatId => ?_
  cases args with
  | nil => exact writesFirst_pure _
  | cons word rest => exact ((callApi_quiet _).bind fun _ _ => quiet_pure trivial).writesFirst

/-- Every handler writes before it first suspends, if at all. -/
theorem handlers_writesFirst : ∀ entry ∈ handlers, HandlerWritesFirst entry.2 := by
  simp only [handlers, List.forall_mem_cons]
  exact ⟨replyWith_writesFirst _, setcmdHandler_writesFirst, replyWith_writesFirst _,
    replyWith_writesFirst _, replyWith_writesFirst _, replyWith_writesFirst _,
    idHandler_writesFirst, replyWith_writesFirst _, calcHandler_writesFirst,
    replyWith_writesFirst _, replyWith_writesFirst _, replyWith_writesFirst _,
    replyWith_writesFirst _, replyWith_writesFirst _, settingsHandler_writesFirst,
    adminsHandler_writesFirst, antilinkHandler_writesFirst, filterHandler_writesFirst,
    deleteHandler_writesFirst, banHandler_writesFirst, unbanHandler_writesFirst,
    List.forall_mem_nil _⟩

theorem handlerOf_writesFirst (name : String) : HandlerWritesFirst (handlerOf name) := by
  unfold handlerOf
  cases hlookup : handlers.lookup name with
  | none => exact fun _ _ _ _ => writesFirst_pure _
  | some handler =>
      obtain ⟨before, after, hsplit, -⟩ := List.lookup_eq_some_iff.mp hlookup
      exact handlers_writesFirst (name, handler) (hsplit ▸ by simp)

/-! ## the plugins -/

variable {env : Env} {ctx : Context} {update : PyVal}

/-- A plugin that returns after a suspension ends the dispatch. -/
theorem incomingSnapshotPlugin_writesFirst :
    (incomingSnapshotPlugin env ctx update).WritesFirst reads (· = true) :=
  writesFirst_lift_bind fun _ => writesFirst_atomic_bind fun _ => writesFirst_pure _

theorem messageLoggingPlugin_writesFirst :
    (messageLoggingPlugin env ctx update).WritesFirst reads (· = true) :=
  writesFirst_atomic_bind fun _ => writesFirst_pure _

/-- The search does not suspend. -/
theorem actOn_writesFirst {α : Type} {find : Tables → Except PyError (Option α)}
    {act : α → Suspending Bool} (hact : ∀ x, (act x).WritesFirst reads (· = true)) :
    (actOn find act).WritesFirst reads (· = true) := by
  refine writesFirst_atomic_bind fun found => ?_
  cases found with
  | none => exact writesFirst_pure _
  | some x => exact hact x

theorem antiLinkPlugin_writesFirst :
    (antiLinkPlugin env ctx update).WritesFirst reads (· = true) :=
  actOn_writesFirst fun _ => Quiet.writesFirst <|
    ((callApi_quiet _).when _).bind fun _ _ => ((banChatMember_quiet _ _).when _).bind fun _ _ =>
      ((sendMessage_quiet _ _ _).when _).bind fun _ _ => quiet_pure rfl

theorem punishFlood_writesFirst (s : FloodSubject) :
    (punishFlood s).WritesFirst reads (· = true) :=
  writesFirst_lift_bind fun _ => Quiet.writesFirst <|
    ((callApi_quiet _).when _).bind fun _ _ => (banChatMember_quiet _ _).bind fun _ _ =>
      quiet_pure rfl

theorem antiFloodPlugin_writesFirst :
    (antiFloodPlugin env ctx update).WritesFirst reads (· = true) :=
  actOn_writesFirst fun s => writesFirst_atomic_bind fun _ => writesFirst_atomic_bind fun _ =>
    (punishFlood_writesFirst s).ite (writesFirst_pure _)

theorem filterWordsPlugin_writesFirst :
    (filterWordsPlugin env ctx update).WritesFirst reads (· = true) :=
  actOn_writesFirst fun _ => Quiet.writesFirst <|
    ((callApi_quiet _).when _).bind fun _ _ => quiet_pure rfl

theorem commandsPlugin_writesFirst (registry : CommandRegistry) :
    (commandsPlugin registry env ctx update).WritesFirst false (· = true) := by
  refine writesFirst_atomic_bind fun verdict => ?_
  cases verdict with
  | ignored => exact writesFirst_pure _
  | denied chatId =>
      exact ((sendMessage_quiet _ _ _).bind fun _ _ =>
        quiet_pure (P := (· = true)) rfl).writesFirst
  | invoked inv =>
      exact (handlerOf_writesFirst _ env ctx inv.message inv.args).bind
        (fun _ => writesFirst_pure _) fun _ _ => quiet_pure rfl

/-! ## the panel -/

/-- The update presses a toggle of the panel. -/
def Toggles (update : PyVal) : Prop :=
  ∃ chatId key callback, panelRequest update = .ok (some (.toggle chatId key callback))

/-- The panel reads once more, but writes nothing. -/
theorem refreshPanel_quiet (chatId callback : PyVal) :
    (refreshPanel chatId callback).Quiet true fun _ => True := by
  refine (quiet_lift (P := fun _ => True) fun _ _ => trivial).bind fun messageId _ => ?_
  refine Quiet.ite ?_ (quiet_pure trivial)
  exact (quiet_query _).bind fun _ _ => (callApi_quiet _).bind fun _ _ => quiet_pure trivial

/-- The flag is written before the notice, and read once more after it. -/
theorem togglePanel_writesFirst (chatId : PyVal) (key : Flag) (callback : PyVal) :
    (togglePanel chatId key callback).WritesFirst true fun _ => True :=
  writesFirst_atomic_bind fun _ => writesFirst_atomic_bind fun _ => Quiet.writesFirst <|
    (sendMessage_quiet _ _ _).bind fun _ _ => refreshPanel_quiet _ _

/-- Only a toggle looks at the tables again. -/
theorem servePanel_writesFirst {request : PanelRequest}
    (h : ∀ chatId key callback, request ≠ .toggle chatId key callback) :
    (servePanel request).WritesFirst false fun _ => True := by
  cases request with
  | panel chatId =>
      exact WritesFirst.ite (writesFirst_atomic_bind fun _ => sendMessage_writesFirst _ _ _)
        (writesFirst_pure _)
  | toggle chatId key callback => exact absurd rfl (h chatId key callback)
  | filters chatId =>
      exact writesFirst_atomic_bind fun filters =>
        (sendMessage_writesFirst _ _ _).ite (sendMessage_writesFirst _ _ _)
  | delete chatId => exact sendMessage_writesFirst _ _ _

/-- What is no toggle does not even read again. -/
theorem panelPlugin_writesFirst_of_not_toggles (h : ¬ Toggles update) :
    (panelPlugin env ctx update).WritesFirst false (· = true) := by
  show (Coroutine.bind (Coroutine.lift (panelRequest update)) _).WritesFirst false _
  cases hrequest : panelRequest update with
  | error e => trivial
  | ok request =>
      cases request with
      | none => exact writesFirst_pure _
      | some request =>
          have hnot : ∀ chatId key callback, request ≠ .toggle chatId key callback := by
            rintro chatId key callback rfl
            exact h ⟨chatId, key, callback, hrequest⟩
          exact (servePanel_writesFirst hnot).bind (fun _ => writesFirst_pure _) fun _ _ =>
            quiet_pure rfl

theorem panelPlugin_writesFirst :
    (panelPlugin env ctx update).WritesFirst true (· = true) := by
  refine writesFirst_lift_bind fun request => ?_
  cases request with
  | none => exact writesFirst_pure _
  | some request =>
      have hserve : (servePanel request).WritesFirst true fun _ => True := by
        cases request with
        | toggle chatId key callback => exact togglePanel_writesFirst chatId key callback
        | _ =>
            refine WritesFirst.reading ?_
            exact servePanel_writesFirst nofun
      exact hserve.bind (fun _ => writesFirst_pure _) fun _ _ => quiet_pure rfl

/-! ## the chain -/

/-- What a plugin awaits, it awaits last. -/
theorem dispatch_writesFirst {plugins : List SuspendingPlugin}
    (h : ∀ plugin ∈ plugins, (plugin env ctx update).WritesFirst reads (· = true)) :
    (dispatch env ctx update plugins).WritesFirst reads fun _ => True := by
  induction plugins with
  | nil => exact writesFirst_pure _
  | cons plugin plugins ih =>
      obtain ⟨hfirst, hrest⟩ := List.forall_mem_cons.mp h
      refine hfirst.bind (fun handled => (writesFirst_pure _).ite (ih hrest)) ?_
      rintro handled rfl
      exact quiet_pure trivial

/-- **A dispatch writes first.** -/
theorem processJob_writesFirst (job : Job) :
    (processJob env ctx job).WritesFirst true fun _ => True := by
  refine dispatch_writesFirst ?_
  simp only [startupPlugins, List.forall_mem_cons]
  exact ⟨incomingSnapshotPlugin_writesFirst, messageLoggingPlugin_writesFirst,
    antiLinkPlugin_writesFirst, antiFloodPlugin_writesFirst, filterWordsPlugin_writesFirst,
    (commandsPlugin_writesFirst _).reading, panelPlugin_writesFirst, List.forall_mem_nil _⟩

/-- And reads no more after that, unless a toggle is pressed. -/
theorem processJob_writesFirst_of_not_toggles {job : Job} (h : ¬ Toggles (updateOf job)) :
    (processJob env ctx job).WritesFirst false fun _ => True := by
  refine dispatch_writesFirst ?_
  simp only [startupPlugins, List.forall_mem_cons]
  exact ⟨incomingSnapshotPlugin_writesFirst, messageLoggingPlugin_writesFirst,
    antiLinkPlugin_writesFirst, antiFloodPlugin_writesFirst, filterWordsPlugin_writesFirst,
    commandsPlugin_writesFirst _, panelPlugin_writesFirst_of_not_toggles h,
    List.forall_mem_nil _⟩

/-! ## one dispatch -/

/-- What a job makes of the tables, whatever its client answers. -/
def effect (env : Env) (ctx : Context) (job : Job) (t : Tables) : Tables :=
  ((processJob env ctx job).advance t).2

/-- **One stretch.**  Of what a dispatch does to the tables, everything is done before it
waits for the first time: the client has no part in it. -/
theorem processJob_tables (env : Env) (ctx : Context) (job : Job) (w : World) :
    (RubicaBot.processJob env ctx job w).2.tables = effect env ctx job w.tables := by
  rw [← processJob_performs job]
  exact (processJob_writesFirst job).run_snd (w.tables, w.apiCalls)

/-- **The client cannot write.**  Whatever the API answers to which of the calls, and
whatever has been called before, a dispatch leaves the same rules, messages, snapshots and
flood histories. -/
theorem client_cannot_write (env : Env) (ctx : Context) (job : Job)
    (reply reply' : Nat → ApiCall → Except PyError PyVal) (calls calls' : List ApiCall)
    (t : Tables) :
    (RubicaBot.processJob (env.answering reply) ctx job (t.world calls)).2.tables =
      (RubicaBot.processJob (env.answering reply') ctx job (t.world calls')).2.tables := by
  have heffect : ∀ r, effect (env.answering r) ctx job = effect env ctx job := by
    intro r
    funext t
    rw [effect, processJob_answering]
    rfl
  rw [processJob_tables, processJob_tables, heffect, heffect]
  rfl

end Suspending

end RubicaBot
