import RubicaBot.Coroutine.Awaits
import RubicaBot.Plugins.Suspending.Atomicity

/-!
# RubicaBot.Plugins.Suspending.Length

How often a dispatch suspends.  The longest is `/del` with the highest limit: 10000
deletions, a pause after every 25 of them, and the report.
-/

namespace RubicaBot

open Py Coroutine

namespace Suspending

/-- The suspensions of the longest dispatch. -/
def longest : Nat := 10000 + 10000 / 25 + 1

/-! ## the handlers -/

/-- A call suspends once. -/
theorem sendMessage_awaits (chatId : PyVal) (text : String) (keypad : Option PyVal) :
    (sendMessage chatId text keypad).Awaits 1 :=
  (awaits_call _).bind fun _ => awaits_pure (n := 0) _

theorem banChatMember_awaits (chatId userId : PyVal) : (banChatMember chatId userId).Awaits 1 :=
  (awaits_call _).bind fun _ => awaits_pure (n := 0) _

/-- Reading the chat does not suspend. -/
theorem inChat_awaits {message : PyVal} {act : PyVal → Suspending Unit} {n : Nat}
    (h : ∀ chatId, (act chatId).Awaits n) : (inChat message act).Awaits n :=
  awaits_lift_bind fun chatId _ => (h chatId).ite (awaits_pure _)

/-- The handler suspends at most `n` times. -/
def HandlerAwaits (n : Nat) (handler : SuspendingHandler) : Prop :=
  ∀ env ctx message args, (handler env ctx message args).Awaits n

/-- So often is at most more often. -/
theorem HandlerAwaits.mono {n k : Nat} {handler : SuspendingHandler} (h : HandlerAwaits n handler)
    (hle : n ≤ k) : HandlerAwaits k handler :=
  fun env ctx message args => (h env ctx message args).mono hle

theorem replyWith_awaits (text : Env → Context → List String → String) :
    HandlerAwaits 1 (replyWith text) :=
  fun _ _ _ _ => inChat_awaits fun _ => sendMessage_awaits _ _ _

theorem setcmdHandler_awaits : HandlerAwaits 1 setcmdHandler :=
  fun _ _ _ _ => (awaits_call _).bind fun _ => awaits_pure (n := 0) _

theorem idHandler_awaits : HandlerAwaits 1 idHandler :=
  fun _ _ _ _ => inChat_awaits fun _ => awaits_lift_bind fun _ _ =>
    awaits_lift_bind fun _ _ => sendMessage_awaits _ _ _

theorem calcHandler_awaits : HandlerAwaits 1 calcHandler := by
  intro env ctx message args
  refine inChat_awaits fun chatId => (sendMessage_awaits _ _ _).ite ?_
  cases env.safeEval (" ".intercalate args) with
  | ok result => exact sendMessage_awaits _ _ _
  | error e =>
      obtain ⟨e, text⟩ := e
      cases e <;> first | exact sendMessage_awaits _ _ _ | exact awaits_lift _

theorem settingsHandler_awaits : HandlerAwaits 1 settingsHandler :=
  fun _ _ _ _ => inChat_awaits fun _ => awaits_atomic_bind fun _ _ _ => sendMessage_awaits _ _ _

theorem adminsHandler_awaits : HandlerAwaits 1 adminsHandler :=
  fun _ _ _ _ => inChat_awaits fun _ => awaits_atomic_bind fun _ _ _ => sendMessage_awaits _ _ _

theorem antilinkHandler_awaits : HandlerAwaits 1 antilinkHandler := by
  intro env ctx message args
  refine inChat_awaits fun chatId => ?_
  cases args with
  | nil => exact awaits_pure _
  | cons word rest => exact awaits_atomic_bind fun _ _ _ => sendMessage_awaits _ _ _

theorem filterHandler_awaits : HandlerAwaits 1 filterHandler := by
  intro env ctx message args
  refine inChat_awaits fun chatId => ?_
  cases args with
  | nil => exact sendMessage_awaits _ _ _
  | cons word rest =>
      refine Awaits.ite ?_ ?_
      · exact awaits_atomic_bind fun _ _ _ =>
          (sendMessage_awaits _ _ _).ite (sendMessage_awaits _ _ _)
      · cases rest with
        | nil => exact sendMessage_awaits _ _ _
        | cons word rest =>
            refine Awaits.ite ?_ (Awaits.ite ?_ (awaits_pure _))
            · exact awaits_atomic_bind fun _ _ _ => sendMessage_awaits _ _ _
            · exact awaits_atomic_bind fun _ _ _ => sendMessage_awaits _ _ _

/-- By induction on the messages still to delete: each is a call, and every 25th index has
its pause. -/
theorem deleteEach_awaits (chatId : PyVal) (idx deleted failed : Nat) (messageIds : List String)
    (hidx : 0 < idx) :
    (deleteEach chatId idx deleted failed messageIds).Awaits
      (messageIds.length + ((idx - 1 + messageIds.length) / 25 - (idx - 1) / 25)) := by
  induction messageIds generalizing idx deleted failed with
  | nil => exact awaits_pure _
  | cons messageId messageIds ih =>
      have hrest := fun deleted failed => ih (idx + 1) deleted failed (Nat.succ_pos idx)
      have hnext : ∀ outcome, (if countsAsDeleted outcome then
          deleteEach chatId (idx + 1) (deleted + 1) failed messageIds
        else deleteEach chatId (idx + 1) deleted (failed + 1) messageIds).Awaits _ :=
        fun _ => (hrest _ _).ite (hrest _ _)
      have hsleep : sleep.Awaits 1 := (awaits_call _).bind fun _ => awaits_pure (n := 0) _
      have hcall : (deleteMessage chatId (.str messageId)).attempt.Awaits 1 :=
        Awaits.attempt (awaits_call _)
      by_cases hpause : idx % 25 = 0
      · refine (hcall.bind fun outcome => hsleep.when.bind fun _ => hnext outcome).mono ?_
        rw [List.length_cons]
        omega
      · have hno : (idx % 25 == 0) = false := by simpa using hpause
        refine (hcall.bind fun outcome =>
          Awaits.bind (n := 0) (?_ : (Coroutine.when (idx % 25 == 0) sleep).Awaits 0) fun _ =>
            hnext outcome).mono ?_
        · rw [hno]
          exact awaits_pure _
        · rw [List.length_cons]
          omega

/-- No more ids are fetched than are asked for. -/
theorem length_fetchRecentMessageIds {messages : List MessageRow} {chatId : PyVal} {limit : Nat}
    {ids : List String} (h : fetchRecentMessageIds messages chatId limit = .ok ids) :
    ids.length ≤ limit := by
  obtain ⟨c, -, h⟩ := Effect.exists_of_bind_eq_ok h
  cases c with
  | none =>
      cases h
      exact Nat.zero_le _
  | some c =>
      cases h
      rw [List.length_map]
      exact List.length_take_le _ _

/-- `/del` suspends for each message, for the pauses between, and for its report. -/
theorem deleteHandler_awaits : HandlerAwaits longest deleteHandler := by
  intro env ctx message args
  have hsay : ∀ chatId text, (sendMessage chatId text).Awaits longest := fun chatId text =>
    (sendMessage_awaits chatId text none).mono (by decide)
  refine inChat_awaits fun chatId => ?_
  cases deleteLimit env.unicode args with
  | none => exact hsay _ _
  | some limit =>
      refine (hsay _ _).ite (awaits_atomic_bind fun t messageIds hids => (hsay _ _).ite ?_)
      have hlength := length_fetchRecentMessageIds hids
      refine ((deleteEach_awaits chatId 1 0 0 messageIds Nat.one_pos).bind fun _ =>
        sendMessage_awaits _ _ _).mono ?_
      unfold longest
      omega

theorem banHandler_awaits : HandlerAwaits 1 banHandler :=
  fun _ _ _ _ => inChat_awaits fun _ => awaits_lift_bind fun _ _ =>
    (banChatMember_awaits _ _).ite (awaits_pure _)

theorem unbanHandler_awaits : HandlerAwaits 1 unbanHandler := by
  intro env ctx message args
  refine inChat_awaits fun chatId => ?_
  cases args with
  | nil => exact awaits_pure _
  | cons word rest => exact (awaits_call _).bind fun _ => awaits_pure (n := 0) _

/-- No handler suspends more often than `/del`. -/
theorem handlers_awaits : ∀ entry ∈ handlers, HandlerAwaits longest entry.2 := by
  have hone : ∀ {handler : SuspendingHandler}, HandlerAwaits 1 handler →
      HandlerAwaits longest handler := fun h => h.mono (by decide)
  simp only [handlers, List.forall_mem_cons]
  exact ⟨hone (replyWith_awaits _), hone setcmdHandler_awaits, hone (replyWith_awaits _),
    hone (replyWith_awaits _), hone (replyWith_awaits _), hone (replyWith_awaits _),
    hone idHandler_awaits, hone (replyWith_awaits _), hone calcHandler_awaits,
    hone (replyWith_awaits _), hone (replyWith_awaits _), hone (replyWith_awaits _),
    hone (replyWith_awaits _), hone (replyWith_awaits _), hone settingsHandler_awaits,
    hone adminsHandler_awaits, hone antilinkHandler_awaits, hone filterHandler_awaits,
    deleteHandler_awaits, hone banHandler_awaits, hone unbanHandler_awaits, List.forall_mem_nil _⟩

theorem handlerOf_awaits (name : String) : HandlerAwaits longest (handlerOf name) := by
  unfold handlerOf
  cases hlookup : handlers.lookup name with
  | none => exact fun _ _ _ _ => awaits_pure _
  | some handler =>
      obtain ⟨before, after, hsplit, -⟩ := List.lookup_eq_some_iff.mp hlookup
      exact handlers_awaits (name, handler) (hsplit ▸ by simp)

/-! ## the plugins -/

variable {env : Env} {ctx : Context} {update : PyVal}

theorem incomingSnapshotPlugin_awaits : (incomingSnapshotPlugin env ctx update).Awaits 0 :=
  awaits_lift_bind fun _ _ => awaits_atomic_bind fun _ _ _ => awaits_pure _

theorem messageLoggingPlugin_awaits : (messageLoggingPlugin env ctx update).Awaits 0 :=
  awaits_atomic_bind fun _ _ _ => awaits_pure _

/-- The search does not suspend. -/
theorem actOn_awaits {α : Type} {find : Tables → Except PyError (Option α)}
    {act : α → Suspending Bool} {n : Nat} (h : ∀ x, (act x).Awaits n) :
    (actOn find act).Awaits n := by
  refine awaits_atomic_bind fun _ found _ => ?_
  cases found with
  | none => exact awaits_pure _
  | some x => exact h x

/-- A deletion, a ban and a notice. -/
theorem antiLinkPlugin_awaits : (antiLinkPlugin env ctx update).Awaits 3 :=
  actOn_awaits fun _ => (awaits_call _).when.bind fun _ =>
    (banChatMember_awaits _ _).when.bind fun _ =>
      (sendMessage_awaits _ _ _).when.bind fun _ => awaits_pure (n := 0) _

/-- A deletion and a ban. -/
theorem antiFloodPlugin_awaits : (antiFloodPlugin env ctx update).Awaits 2 := by
  refine actOn_awaits fun s => awaits_atomic_bind fun _ _ _ => awaits_atomic_bind fun _ _ _ => ?_
  refine Awaits.ite (awaits_lift_bind fun _ _ => ?_) (awaits_pure _)
  exact (awaits_call _).when.bind fun _ => (banChatMember_awaits _ _).bind fun _ =>
    awaits_pure (n := 0) _

/-- A deletion. -/
theorem filterWordsPlugin_awaits : (filterWordsPlugin env ctx update).Awaits 1 :=
  actOn_awaits fun _ => (awaits_call _).when.bind fun _ => awaits_pure (n := 0) _

theorem commandsPlugin_awaits (registry : CommandRegistry) :
    (commandsPlugin registry env ctx update).Awaits longest := by
  refine awaits_atomic_bind fun _ verdict _ => ?_
  cases verdict with
  | ignored => exact awaits_pure _
  | denied chatId =>
      exact ((sendMessage_awaits _ _ _).bind fun _ => awaits_pure (n := 0) _).mono (by decide)
  | invoked inv =>
      exact (handlerOf_awaits _ env ctx inv.message inv.args).bind fun _ => awaits_pure (n := 0) _

theorem refreshPanel_awaits (chatId callback : PyVal) :
    (refreshPanel chatId callback).Awaits 1 := by
  refine awaits_lift_bind fun messageId _ => Awaits.ite ?_ (awaits_pure _)
  exact awaits_atomic_bind fun _ _ _ => (awaits_call _).bind fun _ => awaits_pure (n := 0) _

theorem servePanel_awaits (request : PanelRequest) : (servePanel request).Awaits 2 := by
  have hsay : ∀ chatId text keypad, (sendMessage chatId text keypad).Awaits 2 :=
    fun chatId text keypad => (sendMessage_awaits chatId text keypad).mono (by decide)
  cases request with
  | panel chatId => exact Awaits.ite (awaits_atomic_bind fun _ _ _ => hsay _ _ _) (awaits_pure _)
  | toggle chatId key callback =>
      refine awaits_atomic_bind fun _ _ _ => awaits_atomic_bind fun _ _ _ => ?_
      exact (sendMessage_awaits _ _ _).bind fun _ => refreshPanel_awaits _ _
  | filters chatId => exact awaits_atomic_bind fun _ _ _ => (hsay _ _ _).ite (hsay _ _ _)
  | delete chatId => exact hsay _ _ _

/-- A notice, and the panel. -/
theorem panelPlugin_awaits : (panelPlugin env ctx update).Awaits 2 := by
  refine awaits_lift_bind fun request _ => ?_
  cases request with
  | none => exact awaits_pure _
  | some request => exact (servePanel_awaits request).bind fun _ => awaits_pure (n := 0) _

/-! ## the chain -/

/-- The chain suspends in one of its plugins only. -/
theorem dispatch_awaits {n : Nat} {plugins : List SuspendingPlugin}
    (h : ∀ plugin ∈ plugins, (plugin env ctx update).Awaits n ∧
      (plugin env ctx update).WritesFirst true (· = true)) :
    (dispatch env ctx update plugins).Awaits n := by
  induction plugins with
  | nil => exact awaits_pure _
  | cons plugin plugins ih =>
      obtain ⟨hfirst, hrest⟩ := List.forall_mem_cons.mp h
      refine hfirst.1.bind_of_writesFirst hfirst.2 (fun handled => ?_) ?_
      · exact (awaits_pure _).ite (ih hrest)
      · rintro handled rfl
        exact awaits_pure _

/-- **No dispatch suspends more often** than the longest one. -/
theorem processJob_awaits (env : Env) (ctx : Context) (job : Job) :
    (processJob env ctx job).Awaits longest := by
  refine dispatch_awaits ?_
  simp only [startupPlugins, List.forall_mem_cons]
  exact ⟨⟨incomingSnapshotPlugin_awaits.mono (by decide), incomingSnapshotPlugin_writesFirst⟩,
    ⟨messageLoggingPlugin_awaits.mono (by decide), messageLoggingPlugin_writesFirst⟩,
    ⟨antiLinkPlugin_awaits.mono (by decide), antiLinkPlugin_writesFirst⟩,
    ⟨antiFloodPlugin_awaits.mono (by decide), antiFloodPlugin_writesFirst⟩,
    ⟨filterWordsPlugin_awaits.mono (by decide), filterWordsPlugin_writesFirst⟩,
    ⟨commandsPlugin_awaits _, (commandsPlugin_writesFirst _).reading⟩,
    ⟨panelPlugin_awaits.mono (by decide), panelPlugin_writesFirst⟩, List.forall_mem_nil _⟩

end Suspending

end RubicaBot
