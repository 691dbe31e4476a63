import RubicaBot.Plugins.Dispatch
import RubicaBot.Router.Reading

/-!
# RubicaBot.Plugins.Precedence

Who acts on an update.

The chain of plugins logs first, moderates next and commands last, and a plugin
that returns `False` has not called the API.  So a message is in the log
whatever becomes of it, one plugin acts, and it is the moderation where it has
reason to (`precedence`).

A message is logged with the getters `handle_request` has read it with before it
built a job, so in an update that was enqueued they do not raise
(`identified_of_buildJob`).
-/

namespace RubicaBot

open Py BotM

/-! ## the plugins that are run -/

/-- A plugin that was run, with the worlds before and after. -/
structure PluginRun where
  name : String
  before : World
  after : World

/-- The plugins of `startup`, by their names. -/
def startupChain : List (String × Plugin) :=
  [("incoming_snapshot", incomingSnapshotPlugin), ("logging", messageLoggingPlugin),
    ("anti_link", antiLinkPlugin), ("anti_flood", antiFloodPlugin), ("filters", filterWordsPlugin),
    ("commands", commandsPlugin startupRegistry), ("panel", panelPlugin)]

/-- The plugins a dispatch runs, in order. -/
def pluginRuns (env : Env) (ctx : Context) (update : PyVal) :
    List (String × Plugin) → World → List PluginRun
  | [], _ => []
  | (name, plugin) :: chain, w =>
      match plugin env ctx update w with
      | (.ok false, w') => ⟨name, w, w'⟩ :: pluginRuns env ctx update chain w'
      | (_, w') => [⟨name, w, w'⟩]

/-- A plugin that hands over has not called the API. -/
def Quiet (env : Env) (ctx : Context) (update : PyVal) (plugin : Plugin) : Prop :=
  ∀ w w', plugin env ctx update w = (.ok false, w') → w'.apiCalls = w.apiCalls

section Runs

variable {env : Env} {ctx : Context} {update : PyVal} {name : String} {plugin : Plugin}
  {chain : List (String × Plugin)}

/-- A plugin that returns `False` is followed by the next. -/
theorem pluginRuns_of_passed {w w' : World} (h : plugin env ctx update w = (.ok false, w')) :
    pluginRuns env ctx update ((name, plugin) :: chain) w =
      ⟨name, w, w'⟩ :: pluginRuns env ctx update chain w' := by
  simp only [pluginRuns, h]

/-- Any other is the last to run. -/
theorem pluginRuns_of_stopped {w : World} (h : (plugin env ctx update w).1 ≠ .ok false) :
    pluginRuns env ctx update ((name, plugin) :: chain) w =
      [⟨name, w, (plugin env ctx update w).2⟩] := by
  unfold pluginRuns
  split
  · next w' hp =>
      rw [hp] at h
      exact absurd rfl h
  · next result w' hp => rw [hp]

/-- Only plugins of the chain run. -/
theorem name_mem_of_mem_pluginRuns {run : PluginRun} {w : World}
    (h : run ∈ pluginRuns env ctx update chain w) : run.name ∈ chain.map Prod.fst := by
  induction chain generalizing w with
  | nil => cases h
  | cons entry chain ih =>
      obtain ⟨name, plugin⟩ := entry
      unfold pluginRuns at h
      split at h
      · rcases List.mem_cons.mp h with rfl | h
        · exact List.mem_cons_self
        · exact List.mem_cons_of_mem _ (ih h)
      · rw [List.mem_singleton.mp h]
        exact List.mem_cons_self

/-- If one of the plugins before does not hand over, those after are not run. -/
theorem pluginRuns_append_of_none {after : List (String × Plugin)} {w : World}
    (h : handsOver env ctx update (chain.map Prod.snd) w = none) :
    pluginRuns env ctx update (chain ++ after) w = pluginRuns env ctx update chain w := by
  induction chain generalizing w with
  | nil => cases h
  | cons entry chain ih =>
      obtain ⟨name, plugin⟩ := entry
      by_cases hp : (plugin env ctx update w).1 = .ok false
      · have hpass : plugin env ctx update w = (.ok false, (plugin env ctx update w).2) :=
          Prod.ext hp rfl
        rw [List.map_cons, handsOver_of_passed hpass] at h
        rw [List.cons_append, pluginRuns_of_passed hpass, pluginRuns_of_passed hpass, ih h]
      · rw [List.cons_append, pluginRuns_of_stopped hp, pluginRuns_of_stopped hp]

/-- **One actor.**  If the plugins of a chain are quiet, all the calls of a dispatch
are made by the plugin it runs last. -/
theorem exists_last_run (hquiet : ∀ entry ∈ chain, Quiet env ctx update entry.2) (hne : chain ≠ [])
    (w : World) :
    ∃ first last, pluginRuns env ctx update chain w = first ++ [last] ∧
      (∀ run ∈ first, run.after.apiCalls = run.before.apiCalls) ∧
      last.before.apiCalls = w.apiCalls ∧
      last.after = (dispatch env ctx update (chain.map Prod.snd) w).2 := by
  induction chain generalizing w with
  | nil => exact absurd rfl hne
  | cons entry chain ih =>
      obtain ⟨name, plugin⟩ := entry
      obtain ⟨hfirst, hrest⟩ := List.forall_mem_cons.mp hquiet
      by_cases hp : (plugin env ctx update w).1 = .ok false
      · have hpass : plugin env ctx update w = (.ok false, (plugin env ctx update w).2) :=
          Prod.ext hp rfl
        have hsame := hfirst w _ hpass
        rw [pluginRuns_of_passed hpass, List.map_cons, dispatch_of_passed hpass]
        by_cases hchain : chain = []
        · subst hchain
          exact ⟨[], _, rfl, fun run hrun => absurd hrun List.not_mem_nil, rfl, rfl⟩
        · obtain ⟨first, last, hruns, hquietly, hbefore, hafter⟩ := ih hrest hchain _
          refine ⟨_ :: first, last, by rw [hruns, List.cons_append], fun run hrun => ?_,
            hbefore.trans hsame, hafter⟩
          rcases List.mem_cons.mp hrun with rfl | hrun
          · exact hsame
          · exact hquietly run hrun
      · rw [pluginRuns_of_stopped hp, List.map_cons, dispatch_of_stopped hp]
        exact ⟨[], _, rfl, fun run hrun => absurd hrun List.not_mem_nil, rfl, rfl⟩

/-! ## no plugin calls the API and hands over -/

/-- Either it hands over, with the calls as they were, or it does not. -/
theorem quiet_of_cases (h : ∀ w, (∃ w', plugin env ctx update w = (.ok false, w') ∧
    w'.apiCalls = w.apiCalls) ∨ (plugin env ctx update w).1 ≠ .ok false) :
    Quiet env ctx update plugin := by
  intro w w' hpass
  obtain ⟨w₁, hpass', hcalls⟩ | hstop := h w
  · rw [hpass] at hpass'
    cases hpass'
    exact hcalls
  · rw [hpass] at hstop
    exact absurd rfl hstop

theorem incomingSnapshotPlugin_quiet : Quiet env ctx update incomingSnapshotPlugin := by
  refine quiet_of_cases fun w => ?_
  obtain ⟨row, -, hpass⟩ | ⟨-, hstop⟩ := incomingSnapshotPlugin_cases env ctx update w
  · exact .inl ⟨_, hpass, rfl⟩
  · exact .inr hstop

theorem messageLoggingPlugin_quiet : Quiet env ctx update messageLoggingPlugin := by
  refine quiet_of_cases fun w => ?_
  obtain ⟨messages, -, hpass⟩ | ⟨-, hstop⟩ := messageLoggingPlugin_cases env ctx update w
  · exact .inl ⟨_, hpass, rfl⟩
  · exact .inr hstop

theorem antiLinkPlugin_quiet : Quiet env ctx update antiLinkPlugin := by
  refine quiet_of_cases fun w => ?_
  obtain ⟨-, hpass⟩ | ⟨-, hstop⟩ := antiLinkPlugin_cases env ctx update w
  · exact .inl ⟨_, hpass, rfl⟩
  · exact .inr hstop

theorem antiFloodPlugin_quiet : Quiet env ctx update antiFloodPlugin := by
  refine quiet_of_cases fun w => ?_
  obtain ⟨-, events, hpass⟩ | ⟨-, hstop⟩ := antiFloodPlugin_cases env ctx update w
  · exact .inl ⟨_, hpass, rfl⟩
  · exact .inr hstop

theorem filterWordsPlugin_quiet : Quiet env ctx update filterWordsPlugin := by
  refine quiet_of_cases fun w => ?_
  obtain ⟨-, hpass⟩ | ⟨-, hstop⟩ := filterWordsPlugin_cases env ctx update w
  · exact .inl ⟨_, hpass, rfl⟩
  · exact .inr hstop

theorem commandsPlugin_quiet (registry : CommandRegistry) :
    Quiet env ctx update (commandsPlugin registry) := by
  intro w w' h
  cases hverdict : commandVerdict env ctx registry w.rules update with
  | error e =>
      rw [commandsPlugin_of_error hverdict] at h
      cases h
  | ok verdict =>
      cases verdict with
      | ignored =>
          rw [commandsPlugin_of_ignored hverdict] at h
          cases h
          rfl
      | denied chatId => exact absurd (congrArg Prod.fst h) (commandsPlugin_of_denied hverdict).2
      | invoked inv => exact absurd (congrArg Prod.fst h) (commandsPlugin_of_invoked hverdict).2

theorem panelPlugin_quiet : Quiet env ctx update panelPlugin := by
  intro w w' h
  cases hrequest : panelRequest update with
  | error e =>
      have hraises : panelPlugin env ctx update w = (.error e, w) :=
        Effect.bind_of_error (congrArg (·, w) hrequest)
      rw [hraises] at h
      cases h
  | ok request =>
      cases request with
      | none =>
          have hpass : panelPlugin env ctx update w = (.ok false, w) :=
            Effect.bind_of_ok (congrArg (·, w) hrequest)
          rw [hpass] at h
          cases h
          rfl
      | some request =>
          have hserves : panelPlugin env ctx update w =
              (do servePanel env request; return true : BotM Bool) w :=
            Effect.bind_of_ok (congrArg (·, w) hrequest)
          rw [hserves] at h
          exact absurd (congrArg Prod.fst h)
            (Effect.never_bind (fun _ => Effect.never_pure Bool.false_ne_true) w)

/-- A plugin of `startup` that passes the update on has called nobody. -/
theorem startupChain_quiet : ∀ entry ∈ startupChain, Quiet env ctx update entry.2 := by
  simp only [startupChain, List.forall_mem_cons]
  exact ⟨incomingSnapshotPlugin_quiet, messageLoggingPlugin_quiet, antiLinkPlugin_quiet,
    antiFloodPlugin_quiet, filterWordsPlugin_quiet, commandsPlugin_quiet _, panelPlugin_quiet,
    List.forall_mem_nil _⟩

end Runs

/-! ## the message log -/

/-- The update has a message with both ids, and its sender can be read. -/
structure Identified (update message chatId messageId senderId : PyVal) : Prop where
  extracted : extractMessage update = .ok message
  inChat : getChatId message = .ok chatId
  chatTruthy : chatId.truthy = true
  hasId : getMessageId message = .ok messageId
  idTruthy : messageId.truthy = true
  sentBy : getSenderId message = .ok senderId

section Log

variable {env : Env} {ctx : Context} {update message chatId messageId senderId text : PyVal}

/-- A message without anything in it has no chat. -/
theorem Identified.messageTruthy (h : Identified update message chatId messageId senderId) :
    message.truthy = true := by
  by_contra hfalse
  have hnone : getChatId message = .ok .none := if_neg hfalse
  have hchat := h.chatTruthy
  cases hnone.symm.trans h.inChat
  cases hchat

/-- What `MessageLoggingPlugin` does with it is a call of `save_message`. -/
theorem Identified.logMessage (h : Identified update message chatId messageId senderId)
    (htext : getText message = .ok text) (messages : List MessageRow) :
    RubicaBot.logMessage messages update =
      saveMessage messages chatId messageId senderId text := by
  simp only [RubicaBot.logMessage, h.extracted, h.inChat, h.hasId, h.sentBy, htext,
    h.messageTruthy, h.chatTruthy, h.idTruthy, bind, Except.bind, Bool.and_self, if_true]

/-- A row that is saved is the newest, and has the ids as they are bound. -/
theorem saveMessage_eq_ok {messages rows : List MessageRow}
    (h : saveMessage messages chatId messageId senderId text = .ok rows) :
    ∃ row, rows = row :: messages ∧ sqlText chatId = .ok (some row.chatId) ∧
      sqlText messageId = .ok (some row.messageId) := by
  obtain ⟨chat, hchat, h⟩ := Effect.exists_of_bind_eq_ok h
  obtain ⟨id, hid, h⟩ := Effect.exists_of_bind_eq_ok h
  obtain ⟨sender, -, h⟩ := Effect.exists_of_bind_eq_ok h
  obtain ⟨body, -, h⟩ := Effect.exists_of_bind_eq_ok h
  cases chat with
  | none => cases h
  | some chat =>
      cases id with
      | none => cases h
      | some id =>
          cases h
          exact ⟨_, rfl, hchat, hid⟩

/-- The snapshot is taken if `json.dumps` raises nothing but a `TypeError`. -/
theorem exists_snapshotOf (hdumps : ∀ e, env.jsonDumps update = .error e → e = .typeError) :
    ∃ row, snapshotOf env ctx update = .ok row := by
  have hpayload (settings : Settings) :
      ∃ payload, snapshotPayload env settings update = .ok payload := by
    unfold snapshotPayload
    split
    · cases hjson : env.jsonDumps update with
      | ok s => exact ⟨_, rfl⟩
      | error e =>
          rw [hdumps e hjson]
          exact ⟨_, rfl⟩
    · exact ⟨_, rfl⟩
  unfold snapshotOf
  split
  · next settings job _ _ =>
      obtain ⟨payload, hp⟩ := hpayload settings
      split
      · rw [hp]
        exact ⟨_, rfl⟩
      · exact ⟨_, rfl⟩
  · exact ⟨_, rfl⟩

/-- No command touches the log. -/
theorem commandsPlugin_messages :
    Effect.Leaves World.messages (commandsPlugin startupRegistry env ctx update) := by
  rw [Effect.leaves_iff_preserves]
  intro rows
  refine commandsPlugin_preserves (fun chatId => ?_) fun command hmem message args => ?_
  · exact Effect.leaves_iff_preserves.mp (sendMessage_leaves messages_overlooks _ _ _) rows
  · exact Effect.leaves_iff_preserves.mp
      (startupRegistry_messages command hmem env ctx message args) rows

/-- Nor does the panel. -/
theorem panelPlugin_messages : Effect.Leaves World.messages (panelPlugin env ctx update) := by
  rw [Effect.leaves_iff_preserves]
  intro rows
  exact panelPlugin_preserves fun request =>
    Effect.leaves_iff_preserves.mp (servePanel_messages request) rows

/-- The plugins after the logging leave the log alone. -/
theorem dispatch_messages {w : World} {rows : List MessageRow}
    (hsnapshot : ∃ row, snapshotOf env ctx update = .ok row)
    (hlog : logMessage w.messages update = .ok rows) :
    (dispatch env ctx update startupPlugins w).2.messages = rows := by
  obtain ⟨row, hrow⟩ := hsnapshot
  obtain ⟨row', hrow', hstored⟩ | ⟨hno, -⟩ := incomingSnapshotPlugin_cases env ctx update w
  · rw [startupPlugins, dispatch_of_passed hstored]
    obtain ⟨rows', hlog', hlogged⟩ | ⟨hno, -⟩ := messageLoggingPlugin_cases env ctx update
      { w with incomingUpdates := row'.toList ++ w.incomingUpdates }
    · rw [dispatch_of_passed hlogged]
      rw [hlog, Except.ok.injEq] at hlog'
      refine (dispatch_leaves (f := World.messages) ?_ _).trans hlog'.symm
      simp only [List.forall_mem_cons]
      exact ⟨antiLinkPlugin_leaves messages_overlooks, antiFloodPlugin_leaves messages_overlooks,
        filterWordsPlugin_leaves messages_overlooks, commandsPlugin_messages, panelPlugin_messages,
        List.forall_mem_nil _⟩
    · exact absurd ⟨rows, hlog⟩ hno
  · exact absurd ⟨row, hrow⟩ hno

/-- **The updates that are enqueued.**  `handle_request` has read the sender of any
message it builds a job for. -/
theorem identified_of_buildJob {rt : Runtime} {r : Request} {job : Job}
    (h : buildJob rt update r = .ok job) (hchat : job.chatId.truthy = true)
    (hid : job.messageId.truthy = true) :
    Identified update (Payload.message update) job.chatId job.messageId job.senderId := by
  obtain ⟨hread, priority, -, rfl⟩ := job_of_buildJob h
  have hinChat : getChatId (Payload.message update) = .ok (Payload.chatId update) :=
    getIdOf_of_isDict hread.message hread.chat "chat_id"
  have htruthy : (Payload.message update).truthy = true := by
    by_contra hfalse
    have hnone : getChatId (Payload.message update) = .ok .none := if_neg hfalse
    have hchatId : Payload.chatId update = .none := Except.ok.inj (hinChat.symm.trans hnone)
    rw [show (Payload.job rt update r priority).chatId = Payload.chatId update from rfl,
      hchatId] at hchat
    cases hchat
  have hmessage : Payload.message update =
      (update.field "message").or ((update.field "data").or (update.field "inline_message")) :=
    PyVal.or_emptyDict_of_truthy htruthy
  refine ⟨?_, hinChat, hchat, getMessageId_of_isDict hread.message, hid,
    getIdOf_of_isDict hread.message hread.sender "sender_id"⟩
  rw [extractMessage_of_isDict hread.payload, hmessage]

/-- It has read the text as well. -/
theorem getText_of_buildJob {rt : Runtime} {r : Request} {job : Job}
    (h : buildJob rt update r = .ok job) : getText (Payload.message update) = .ok job.text := by
  obtain ⟨hread, priority, -, rfl⟩ := job_of_buildJob h
  exact getText_of_isDict hread.message

/-- And the ids of the job are strings, or nothing. -/
theorem exists_str_of_buildJob {rt : Runtime} {r : Request} {job : Job}
    (h : buildJob rt update r = .ok job) :
    (job.chatId.truthy = true → ∃ s, job.chatId = .str s) ∧
      (job.messageId.truthy = true → ∃ s, job.messageId = .str s) := by
  obtain ⟨hread, priority, -, rfl⟩ := job_of_buildJob h
  exact ⟨hread.strings (Payload.chatId update) (by simp),
    hread.strings (Payload.messageId update) (by simp)⟩

end Log

/-! ## precedence -/

/-- A moderation plugin finds something to act on. -/
def Condemned (env : Env) (w : World) (update : PyVal) : Prop :=
  (∃ o, antiLinkOffence env w.rules update = .ok (some o)) ∨
    (∃ s, antiFloodSubject w.rules update = .ok (some s) ∧ s.exceeds env w.floodEvents = true) ∨
    ∃ o, filterOffence env w.rules update = .ok (some o)

/-- Such an update does not reach `CommandsPlugin`. -/
theorem Condemned.not_reaches {env : Env} {ctx : Context} {w : World} {update : PyVal}
    (h : Condemned env w update) : ¬ Reaches env ctx update w := by
  intro hreach
  obtain ⟨o, ho⟩ | ⟨s, hs, hexceeds⟩ | ⟨o, ho⟩ := h
  · cases ho.symm.trans hreach.noLink
  · obtain ⟨counted, hcounted, hfew⟩ := hreach.noFlood
    rw [hs, Except.ok.injEq] at hcounted
    have hno := hfew s hcounted.symm
    rw [hexceeds] at hno
    cases hno
  · cases ho.symm.trans hreach.noBadWord

/-- Each update has one actor, and the moderation comes first. -/
structure Precedence (env : Env) (ctx : Context) (update : PyVal) (w : World) : Prop where
  /-- A message with both ids is saved once, if nothing raises in saving it. -/
  saved : ∀ rt request job rows, buildJob rt update request = .ok job →
    job.chatId.truthy = true → job.messageId.truthy = true →
    (∀ e, env.jsonDumps update = .error e → e = .typeError) →
    saveMessage w.messages job.chatId job.messageId job.senderId job.text = .ok rows →
      ∃ row, (dispatch env ctx update startupPlugins w).2.messages = row :: w.messages ∧
        job.chatId = .str row.chatId ∧ job.messageId = .str row.messageId
  /-- All the calls of the API are made by the last plugin that is run. -/
  oneActor : ∃ first last, pluginRuns env ctx update startupChain w = first ++ [last] ∧
    (∀ run ∈ first, run.after.apiCalls = run.before.apiCalls) ∧
    last.before.apiCalls = w.apiCalls ∧
    last.after = (dispatch env ctx update startupPlugins w).2
  /-- No command and no panel action is run for a message that is condemned. -/
  moderated : Condemned env w update →
    ∀ run ∈ pluginRuns env ctx update startupChain w, run.name ∉ ["commands", "panel"]

/-- **Precedence.**  For every update, in every world; the log for every update
`handle_request` has built a job from. -/
theorem precedence (env : Env) (ctx : Context) (update : PyVal) (w : World) :
    Precedence env ctx update w where
  saved rt request job rows hjob hchat hid hdumps hsave := by
    obtain ⟨row, hrows, hchatText, hidText⟩ := saveMessage_eq_ok hsave
    have hlog := ((identified_of_buildJob hjob hchat hid).logMessage (getText_of_buildJob hjob)
      w.messages).trans hsave
    obtain ⟨hchatStr, hidStr⟩ := exists_str_of_buildJob hjob
    obtain ⟨chat, hchat⟩ := hchatStr hchat
    obtain ⟨id, hid⟩ := hidStr hid
    rw [hchat, sqlText, Except.ok.injEq, Option.some.injEq] at hchatText
    rw [hid, sqlText, Except.ok.injEq, Option.some.injEq] at hidText
    refine ⟨row, ?_, by rw [hchat, hchatText], by rw [hid, hidText]⟩
    rw [dispatch_messages (exists_snapshotOf hdumps) hlog, hrows]
  oneActor := exists_last_run startupChain_quiet (List.cons_ne_nil _ _) w
  moderated := by
    intro hcondemned run hrun hname
    obtain ⟨hreach, -⟩ | ⟨-, hstop⟩ := handsOver_front env ctx update w
    · exact hcondemned.not_reaches hreach
    · have hchain : startupChain = startupChain.take 5 ++ startupChain.drop 5 := rfl
      rw [hchain, pluginRuns_append_of_none hstop] at hrun
      have hfront := name_mem_of_mem_pluginRuns hrun
      simp only [startupChain, List.take_succ_cons, List.take_zero, List.map_cons, List.map_nil,
        List.mem_cons, List.not_mem_nil, or_false] at hfront hname
      rcases hname with h | h <;> rw [h] at hfront <;> revert hfront <;> decide

/-- A message with a link in it, from nobody. -/
def linkMessage : PyVal :=
  .dict [("message", .dict [("chat_id", .str "c0"), ("message_id", .str "m0"),
    ("text", .str "http://a.b")])]

/-- It is in the log. -/
theorem linkMessage_saved :
    ∃ row, (dispatch .plain {} linkMessage startupPlugins { rules := {} }).2.messages = [row] ∧
      row.chatId = "c0" ∧ row.messageId = "m0" := by
  obtain ⟨job, hjob, hchat, hid, hsender, htext⟩ :
      ∃ job, buildJob .plain linkMessage ⟨.empty, none, 0, 0, 0, "u0"⟩ = .ok job ∧
        job.chatId = .str "c0" ∧ job.messageId = .str "m0" ∧ job.senderId = .none ∧
          job.text = .str "http://a.b" := ⟨_, rfl, rfl, rfl, rfl, rfl⟩
  obtain ⟨row, hrows, hchatRow, hidRow⟩ :=
    (precedence .plain {} linkMessage { rules := {} }).saved .plain _ job
      [⟨"c0", "m0", none, some "http://a.b"⟩] hjob (by rw [hchat]; rfl) (by rw [hid]; rfl)
      (fun e h => by cases h) (by rw [hchat, hid, hsender, htext]; rfl)
  rw [hchat, PyVal.str.injEq] at hchatRow
  rw [hid, PyVal.str.injEq] at hidRow
  exact ⟨row, hrows, hchatRow.symm, hidRow.symm⟩

end RubicaBot
