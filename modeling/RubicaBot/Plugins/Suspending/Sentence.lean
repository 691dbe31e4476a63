import RubicaBot.Coroutine.Script
import RubicaBot.Plugins.Suspending.Licence

/-!
# RubicaBot.Plugins.Suspending.Sentence

What a dispatch must do.

`Sentenced` is the other half of `Licensed`: it says for which messages there have to be
deletions and bans, and which.  The first of the three moderation plugins that has a reason
passes the sentence, and `processJob_executes` is that the dispatch then has nothing to do
but to carry it out.
-/

namespace RubicaBot

open Py Coroutine

namespace Suspending

/-! ## sentences -/

/-- The deletion of the message, if it has an id. -/
def deletion (chatId messageId : PyVal) : List ApiCall :=
  if messageId.truthy then [.deleteMessage chatId messageId] else []

/-- The ban of the sender, if there is one. -/
def ban (chatId userId : PyVal) : List ApiCall :=
  if userId.truthy then [.banChatMember chatId userId] else []

/-- The notice to the chat, if it is configured. -/
def notice (ctx : Context) (chatId : PyVal) : List ApiCall :=
  if ctx.reportAntiActions then [.sendMessage chatId linkNotice none] else []

/-- `AntiLinkPlugin` lets the update pass. -/
def PassesLinks (env : Env) (t : Tables) (update : PyVal) : Prop :=
  antiLinkOffence env t.rules update = .ok none

/-- So does `AntiFloodPlugin`. -/
def PassesFloods (env : Env) (t : Tables) (update : PyVal) : Prop :=
  ∃ counted, antiFloodSubject t.rules update = .ok counted ∧
    ∀ s ∈ counted, s.exceeds env t.floodEvents = false

/-- A message in a moderated chat, by somebody who is no admin of it, and what there is to do
about it. -/
inductive Sentenced (env : Env) (ctx : Context) (t : Tables) (update : PyVal) :
    List ApiCall → Prop where
  | link {message chatId senderId messageId : PyVal}
      (hmoderated : Moderated t.rules update message chatId senderId)
      (hid : getMessageId message = .ok messageId)
      (htrigger : LinkTrigger env t.rules message chatId) :
      Sentenced env ctx t update
        (deletion chatId messageId ++ (ban chatId senderId ++ notice ctx chatId))
  | flood {message chatId senderId messageId : PyVal} (hlinks : PassesLinks env t update)
      (hmoderated : Moderated t.rules update message chatId senderId)
      (hsender : senderId.truthy) (hid : getMessageId message = .ok messageId)
      (htrigger : FloodTrigger env (t.world []) message chatId senderId) :
      Sentenced env ctx t update (deletion chatId messageId ++ ban chatId senderId)
  | word {message chatId senderId messageId : PyVal} (hlinks : PassesLinks env t update)
      (hfloods : PassesFloods env t update)
      (hmoderated : Moderated t.rules update message chatId senderId)
      (hid : getMessageId message = .ok messageId)
      (htrigger : WordTrigger env t.rules message chatId) :
      Sentenced env ctx t update (deletion chatId messageId)

/-- The two plugins in front of the moderation have their way. -/
structure Recorded (env : Env) (ctx : Context) (t : Tables) (update : PyVal) : Prop where
  stored : ∃ row, snapshotOf env ctx update = .ok row
  logged : ∃ messages, logMessage t.messages update = .ok messages

/-! ## what the plugins find -/

section Offences

variable {env : Env} {rules : Rules} {update message chatId senderId messageId : PyVal}

/-- A link in a moderated chat is an offence. -/
theorem antiLinkOffence_of_trigger (hmoderated : Moderated rules update message chatId senderId)
    (hid : getMessageId message = .ok messageId) (htrigger : LinkTrigger env rules message chatId) :
    antiLinkOffence env rules update = .ok (some ⟨chatId, messageId, senderId⟩) := by
  have hm := truthy_of_getChatId hmoderated.inChat hmoderated.chatTruthy
  obtain ⟨chat, chatType, settings, text, hget, htype, hmod, hgroup, hon, htext, hlink⟩ := htrigger
  simp only [antiLinkOffence, Effect.bind_eq_ok_iff, Effect.ite_none_eq_some_iff,
    Effect.ite_not_none_eq_some_iff]
  exact ⟨message, hmoderated.extracted, hm, chatId, hmoderated.inChat, hmoderated.chatTruthy,
    chat, hget, chatType, htype, true, hmod, rfl, settings, hgroup, hon, senderId,
    hmoderated.sentBy, false, hmoderated.notAdmin, Bool.false_ne_true, text, htext, true, hlink,
    rfl, messageId, hid, rfl⟩

/-- A message in a chat with `anti_flood` on is counted. -/
theorem antiFloodSubject_of_settings {settings : GroupSettings}
    (hmoderated : Moderated rules update message chatId senderId) (hsender : senderId.truthy)
    (hgroup : rules.getGroup chatId = .ok settings) (hon : settings.antiFlood) :
    antiFloodSubject rules update =
      .ok (some { message, chatId, senderId, floodLimit := settings.floodLimit }) := by
  have hm := truthy_of_getChatId hmoderated.inChat hmoderated.chatTruthy
  have hadmin : rules.isAdmin chatId senderId = .ok false :=
    (if_pos hsender).symm.trans hmoderated.notAdmin
  simp only [antiFloodSubject, Effect.bind_eq_ok_iff, Effect.ite_none_eq_some_iff,
    Effect.ite_not_none_eq_some_iff, Bool.and_eq_true]
  exact ⟨message, hmoderated.extracted, hm, chatId, hmoderated.inChat, senderId,
    hmoderated.sentBy, ⟨hmoderated.chatTruthy, hsender⟩, settings, hgroup, hon, false, hadmin,
    Bool.false_ne_true, rfl⟩

/-- A word of the filters is an offence. -/
theorem filterOffence_of_trigger (hmoderated : Moderated rules update message chatId senderId)
    (hid : getMessageId message = .ok messageId) (htrigger : WordTrigger env rules message chatId) :
    filterOffence env rules update = .ok (some ⟨chatId, messageId, senderId⟩) := by
  have hm := truthy_of_getChatId hmoderated.inChat hmoderated.chatTruthy
  obtain ⟨settings, text, filters, hgroup, hon, htext, hfilters, hverdict⟩ := htrigger
  have hne : filters ≠ [] := by
    rintro rfl
    cases hverdict
  simp only [filterOffence, filterOffenceWith, Effect.bind_eq_ok_iff,
    Effect.ite_none_eq_some_iff, Effect.ite_not_none_eq_some_iff]
  exact ⟨message, hmoderated.extracted, hm, chatId, hmoderated.inChat, hmoderated.chatTruthy,
    settings, hgroup, hon, senderId, hmoderated.sentBy, false, hmoderated.notAdmin,
    Bool.false_ne_true, text, htext, filters, hfilters, hne, true, hverdict, rfl, messageId, hid,
    rfl⟩

end Offences

/-! ## the plugins -/

section Plugins

variable {env : Env} {ctx : Context} {update : PyVal} {t t' : Tables}

/-- A call of the client. -/
theorem callApi_recites (call : ApiCall) :
    (callApi call).Recites (fun _ => True) [.api call] := recites_call _

theorem sendMessage_recites (chatId : PyVal) (text : String) (keypad : Option PyVal) :
    (sendMessage chatId text keypad).Recites (fun _ => True)
      [.api (.sendMessage chatId text keypad)] :=
  (callApi_recites _).bind fun _ _ => recites_pure trivial

theorem banChatMember_recites (chatId userId : PyVal) :
    (banChatMember chatId userId).Recites (fun _ => True) [.api (.banChatMember chatId userId)] :=
  (callApi_recites _).bind fun _ _ => recites_pure trivial

/-- A call that is made only if `c` holds. -/
theorem recites_when {α : Type} {m : Suspending α} {call : ApiCall}
    (hm : m.Recites (fun _ => True) [.api call]) (c : Bool) :
    (Coroutine.when c m).Recites (fun _ => True)
      ((if c then [call] else []).map Suspension.api) := by
  have hwhen := hm.when c
  cases c <;> exact hwhen

/-- There is nothing to act on. -/
theorem actOn_advance_of_none {α : Type} {find : Tables → Except PyError (Option α)}
    {act : α → Suspending Bool} (h : find t = .ok none) :
    (actOn find act).advance t = (.finished (.ok false), t) := by
  have hfind : (atomic (Effect.query find) : Suspending _).advance t =
      (.finished (.ok none), t) := congrArg (fun x => (Outcome.finished x, t)) h
  rw [actOn, advance_bind_of_finished hfind]
  rfl

/-- There is something. -/
theorem actOn_advance_of_some {α : Type} {find : Tables → Except PyError (Option α)}
    {act : α → Suspending Bool} {x : α} (h : find t = .ok (some x)) :
    (actOn find act).advance t = (act x).advance t := by
  have hfind : (atomic (Effect.query find) : Suspending _).advance t =
      (.finished (.ok (some x)), t) := congrArg (fun x => (Outcome.finished x, t)) h
  rw [actOn, advance_bind_of_finished hfind]

/-- The snapshot is stored, and the update passed on. -/
theorem incomingSnapshotPlugin_advance {row : Option IncomingRow}
    (hrow : snapshotOf env ctx update = .ok row) :
    (incomingSnapshotPlugin env ctx update).advance t =
      (.finished (.ok false), { t with incomingUpdates := row.toList ++ t.incomingUpdates }) :=
  advance_bind_of_finished (congrArg (fun x => (Outcome.finished x, t)) hrow)

/-- The message is logged, and the update passed on. -/
theorem messageLoggingPlugin_advance {messages : List MessageRow}
    (hmessages : logMessage t.messages update = .ok messages) :
    (messageLoggingPlugin env ctx update).advance t =
      (.finished (.ok false), { t with messages := messages }) := by
  have hlogged : (do return { t with messages := ← logMessage t.messages update } :
      Except PyError Tables) = .ok { t with messages := messages } := by
    rw [hmessages]
    rfl
  have hupdate := Effect.tryUpdate_of_ok (f := fun t : Tables => do
    return { t with messages := ← logMessage t.messages update }) hlogged
  exact advance_bind_of_finished (congrArg (fun x => (Outcome.finished x.1, x.2)) hupdate)

/-- The sentence for a link. -/
theorem antiLinkPlugin_recites {o : Offence}
    (ho : antiLinkOffence env t.rules update = .ok (some o)) :
    ((antiLinkPlugin env ctx update).advance t).1.Recites (· = true)
      ((deletion o.chatId o.messageId ++
        (ban o.chatId o.senderId ++ notice ctx o.chatId)).map .api) := by
  have hact := (recites_when (callApi_recites (.deleteMessage o.chatId o.messageId))
    o.messageId.truthy).bind fun _ _ => (recites_when
      (banChatMember_recites o.chatId o.senderId) o.senderId.truthy).bind fun _ _ =>
        (recites_when (sendMessage_recites o.chatId linkNotice none) ctx.reportAntiActions).bind
          fun _ _ => recites_pure (P := (· = true)) rfl
  rw [antiLinkPlugin, actOn_advance_of_some ho]
  rw [List.append_nil, ← List.map_append, ← List.map_append] at hact
  exact hact.advance t

/-- The sentence for a flood. -/
theorem punishFlood_recites {s : FloodSubject} {messageId : PyVal} (hm : s.message.truthy)
    (hid : getMessageId s.message = .ok messageId) (hsender : s.senderId.truthy) :
    ((punishFlood s).advance t).1.Recites (· = true)
      ((deletion s.chatId messageId ++ ban s.chatId s.senderId).map .api) := by
  have hact := (recites_when (callApi_recites (.deleteMessage s.chatId messageId))
    messageId.truthy).bind fun _ _ => (banChatMember_recites s.chatId s.senderId).bind
      fun _ _ => recites_pure (P := (· = true)) rfl
  rw [getMessageId, if_pos hm] at hid
  have hban : ban s.chatId s.senderId = [.banChatMember s.chatId s.senderId] := if_pos hsender
  rw [punishFlood, hid, hban, List.map_append]
  exact hact.advance t

/-- The history is all that counting a message changes. -/
theorem countMessage_advance (env : Env) (t : Tables) (s : FloodSubject) : ∃ events,
    (countMessage env s).advance t =
      (if s.exceeds env t.floodEvents then punishFlood s else pure false).advance
        { t with floodEvents := events } := ⟨_, rfl⟩

/-- A message that is no flood is counted, and passed on. -/
theorem antiFloodPlugin_advance_of_passed (ctx : Context) (h : PassesFloods env t update) :
    ∃ events,
    (antiFloodPlugin env ctx update).advance t =
      (.finished (.ok false), { t with floodEvents := events }) := by
  obtain ⟨counted, hcounted, hfew⟩ := h
  cases counted with
  | none => exact ⟨_, actOn_advance_of_none hcounted⟩
  | some s =>
      obtain ⟨events, hcount⟩ := countMessage_advance env t s
      refine ⟨events, (actOn_advance_of_some hcounted).trans (hcount.trans ?_)⟩
      rw [hfew s rfl]
      rfl

/-- One that is gets the sentence. -/
theorem antiFloodPlugin_recites {s : FloodSubject} {messageId : PyVal}
    (hs : antiFloodSubject t.rules update = .ok (some s)) (hexceeds : s.exceeds env t.floodEvents)
    (hid : getMessageId s.message = .ok messageId) :
    ((antiFloodPlugin env ctx update).advance t).1.Recites (· = true)
      ((deletion s.chatId messageId ++ ban s.chatId s.senderId).map .api) := by
  obtain ⟨hmoderated, hsender, -⟩ := antiFloodSubject_eq_some hs
  obtain ⟨events, hcount⟩ := countMessage_advance env t s
  rw [antiFloodPlugin, actOn_advance_of_some hs, hcount, if_pos hexceeds]
  exact punishFlood_recites (truthy_of_getChatId hmoderated.inChat hmoderated.chatTruthy) hid
    hsender

/-- The sentence for a word. -/
theorem filterWordsPlugin_recites {o : Offence}
    (ho : filterOffence env t.rules update = .ok (some o)) :
    ((filterWordsPlugin env ctx update).advance t).1.Recites (· = true)
      ((deletion o.chatId o.messageId).map .api) := by
  have hact := (recites_when (callApi_recites (.deleteMessage o.chatId o.messageId))
    o.messageId.truthy).bind fun _ _ => recites_pure (P := (· = true)) rfl
  rw [filterWordsPlugin, actOn_advance_of_some ho]
  rw [List.append_nil] at hact
  exact hact.advance t

/-! ## the chain -/

/-- A plugin that passes the update on does not suspend. -/
theorem dispatch_advance_of_passed {plugin : SuspendingPlugin} {plugins : List SuspendingPlugin}
    (h : (plugin env ctx update).advance t = (.finished (.ok false), t')) :
    (dispatch env ctx update (plugin :: plugins)).advance t =
      (dispatch env ctx update plugins).advance t' := advance_bind_of_finished h

/-- A plugin that handles the update has the last word. -/
theorem dispatch_recites {plugin : SuspendingPlugin} {plugins : List SuspendingPlugin}
    {cs : List Suspension} (h : ((plugin env ctx update).advance t).1.Recites (· = true) cs) :
    ((dispatch env ctx update (plugin :: plugins)).advance t).1.Recites (fun _ => True) cs := by
  rw [← List.append_nil cs]
  refine recites_advance_bind h ?_
  rintro handled rfl
  exact recites_pure trivial

/-- The two in front have no part in the sentence. -/
theorem dispatch_recorded (h : Recorded env ctx t update) : ∃ t', Before t t' ∧
    (dispatch env ctx update startupPlugins).advance t =
      (dispatch env ctx update [antiLinkPlugin, antiFloodPlugin, filterWordsPlugin,
        commandsPlugin startupRegistry, panelPlugin]).advance t' := by
  obtain ⟨⟨row, hrow⟩, messages, hmessages⟩ := h
  refine ⟨_, ?_, (dispatch_advance_of_passed (incomingSnapshotPlugin_advance hrow)).trans
    (dispatch_advance_of_passed (messageLoggingPlugin_advance hmessages))⟩
  exact ⟨rfl, rfl⟩

/-- Once there is a sentence, the dispatch has nothing else to do. -/
theorem dispatch_sentenced {plan : List ApiCall} (hrecorded : Recorded env ctx t update)
    (h : Sentenced env ctx t update plan) :
    ((dispatch env ctx update startupPlugins).advance t).1.Recites (fun _ => True)
      (plan.map .api) := by
  obtain ⟨t', ⟨hrules, hfloods⟩, hadvance⟩ := dispatch_recorded hrecorded
  rw [hadvance]
  cases h with
  | link hmoderated hid htrigger =>
      have ho := antiLinkOffence_of_trigger hmoderated hid htrigger
      rw [← hrules] at ho
      exact dispatch_recites (antiLinkPlugin_recites ho)
  | flood hlinks hmoderated hsender hid htrigger =>
      obtain ⟨settings, hgroup, hon, hexceeds⟩ := htrigger
      have hs := antiFloodSubject_of_settings hmoderated hsender hgroup hon
      rw [PassesLinks, ← hrules] at hlinks
      rw [← hrules] at hs
      rw [dispatch_advance_of_passed (actOn_advance_of_none hlinks)]
      exact dispatch_recites (antiFloodPlugin_recites hs (hfloods ▸ hexceeds) hid)
  | word hlinks hfloods' hmoderated hid htrigger =>
      have ho := filterOffence_of_trigger hmoderated hid htrigger
      rw [PassesLinks, ← hrules] at hlinks
      rw [PassesFloods, ← hrules, ← hfloods] at hfloods'
      rw [← hrules] at ho
      obtain ⟨events, hpassed⟩ := antiFloodPlugin_advance_of_passed ctx hfloods'
      rw [dispatch_advance_of_passed (actOn_advance_of_none hlinks),
        dispatch_advance_of_passed hpassed]
      exact dispatch_recites (filterWordsPlugin_recites (t := { t' with floodEvents := events }) ho)

/-- The job in the context is nothing that a sentence asks for. -/
theorem Sentenced.withJob {plan : List ApiCall} (h : Sentenced env ctx t update plan)
    (job : Option Job) : Sentenced env { ctx with job := job } t update plan := by
  cases h with
  | link hmoderated hid htrigger => exact .link hmoderated hid htrigger
  | flood hlinks hmoderated hsender hid htrigger =>
      exact .flood hlinks hmoderated hsender hid htrigger
  | word hlinks hfloods hmoderated hid htrigger =>
      exact .word hlinks hfloods hmoderated hid htrigger

/-- **A dispatch carries out the sentence**, whoever else is at work. -/
theorem processJob_executes {plan : List ApiCall} {job : Job}
    (hrecorded : Recorded env { ctx with job := some job } t (updateOf job))
    (h : Sentenced env ctx t (updateOf job) plan)
    {thread : Thread Tables Suspension PyVal PyError Unit}
    (hprogram : thread.program = processJob env ctx job) (hstarted : thread.startedIn = t)
    (htraced : Threads.Traced thread) : thread.Executes (plan.map .api) := by
  have hrecites := dispatch_sentenced hrecorded (h.withJob (some job))
  rw [Threads.Traced, hprogram, hstarted] at htraced
  exact .of_follows (htraced.follows hrecites)

end Plugins

end Suspending

end RubicaBot
