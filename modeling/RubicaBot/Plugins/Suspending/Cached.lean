import RubicaBot.Coroutine.Simulation
import RubicaBot.Plugins.Suspending.Licence
import RubicaBot.Repository
import RubicaBot.Router.Reading

/-!
# RubicaBot.Plugins.Suspending.Cached

A dispatch on the repository as it is, with the cache in front of `groups`.

`get_group` is asked by the three moderation plugins, by `/settings` and by the panel;
`set_group_flag` is called by `/antilink` and by the toggles.  These are written out again
over `CachedTables`, where they go through `Repository`; everything else runs on the tables
in it (`uncached`).

`Shadows` relates the two: the tables are the same, and the cache is coherent.  If every
chat that is asked about is named by a string (`NamesByString`), the dispatch with the
cache matches the one without it (`processJob_matches`).  The chat of a message always is:
`handle_request` enqueues nothing else (`namesByString_of_buildJob`).  The chat of a
pressed button need not be.
-/

namespace RubicaBot

open Py Coroutine

/-- The tables, the cache, and what `time.monotonic()` is going to say to it. -/
structure CachedTables where
  tables : Tables
  groupCache : LruTtlCache PyVal.DictKey GroupSettings
  clock : Nat → Instant

namespace CachedTables

/-- The repository of the process. -/
def repository (c : CachedTables) : Repository := ⟨c.tables.rules.groups, c.groupCache⟩

/-- With what a method has made of the repository. -/
def withRepository (c : CachedTables) (repo : Repository) : CachedTables :=
  { c with
    tables := { c.tables with rules := { c.tables.rules with groups := repo.groups } }
    groupCache := repo.groupCache }

/-- With what has been made of the tables. -/
def withTables (t : Tables) (c : CachedTables) : CachedTables := { c with tables := t }

/-- What the repository changes is the table of the groups. -/
theorem tables_withRepository (c : CachedTables) {repo : Repository} {groups : Groups}
    (h : repo.groups = groups) : (c.withRepository repo).tables =
      { c.tables with rules := { c.tables.rules with groups := groups } } := by
  rw [withRepository, h]

end CachedTables

/-- A coroutine of a dispatch with the cache. -/
abbrev CachedSuspending := Coroutine CachedTables Suspension PyVal PyError

/-- A plugin with the cache. -/
abbrev CachedPlugin := Env → Context → PyVal → CachedSuspending Bool

/-- A handler with the cache. -/
abbrev CachedHandler := Env → Context → PyVal → List String → CachedSuspending Unit

namespace Cached

/-! ## the repository -/

/-- `get_group`; it may read the clock twice. -/
def getGroup (chatId : PyVal) : Effect CachedTables PyError GroupSettings := fun c =>
  let (answer, repo) := c.repository.getGroup chatId (c.clock 0) (c.clock 1)
  (answer, { c.withRepository repo with clock := fun n => c.clock (n + 2) })

/-- `set_group_flag`. -/
def setGroupFlag (chatId : PyVal) (key : Flag) (value : Bool) : Effect CachedTables PyError Unit :=
  fun c =>
    match c.repository.setGroupFlag chatId (.flag key) value with
    | (.error e, repo) => (.error e, c.withRepository repo)
    | (.ok (), repo) =>
        let t := (c.withRepository repo).tables
        (.ok (), (c.withRepository repo).withTables
          { t with flagWrites := t.flagWrites ++ [⟨chatId, key, value⟩] })

/-- What has nothing to do with the cache. -/
def uncached {α : Type} (m : Suspending α) : CachedSuspending α :=
  m.zoom CachedTables.tables CachedTables.withTables

/-! ## moderation -/

/-- The message `AntiLinkPlugin` acts on. -/
def antiLinkOffence (env : Env) (update : PyVal) :
    Effect CachedTables PyError (Option Offence) := do
  let message ← Effect.lift (extractMessage update)
  unless message.truthy do return none
  let chatId ← Effect.lift (getChatId message)
  unless chatId.truthy do return none
  let chat := (← Effect.lift (message.get "chat")).or .emptyDict
  unless ← Effect.lift (isModeratedType (← Effect.lift (chat.get "type"))) do return none
  let settings ← getGroup chatId
  unless settings.antiLink do return none
  let senderId ← Effect.lift (getSenderId message)
  if ← Effect.query fun c => c.tables.rules.isExempt chatId senderId then return none
  let text ← Effect.lift (getText message)
  unless ← Effect.lift (containsLink env.unicode text) do return none
  let messageId ← Effect.lift (getMessageId message)
  return some { chatId, messageId, senderId }

/-- The message `AntiFloodPlugin` counts. -/
def antiFloodSubject (update : PyVal) : Effect CachedTables PyError (Option FloodSubject) := do
  let message ← Effect.lift (extractMessage update)
  unless message.truthy do return none
  let chatId ← Effect.lift (getChatId message)
  let senderId ← Effect.lift (getSenderId message)
  unless chatId.truthy && senderId.truthy do return none
  let settings ← getGroup chatId
  unless settings.antiFlood do return none
  if ← Effect.query fun c => c.tables.rules.isAdmin chatId senderId then return none
  return some { message, chatId, senderId, floodLimit := settings.floodLimit }

/-- The message `FilterWordsPlugin` acts on. -/
def filterOffence (env : Env) (update : PyVal) : Effect CachedTables PyError (Option Offence) := do
  let message ← Effect.lift (extractMessage update)
  unless message.truthy do return none
  let chatId ← Effect.lift (getChatId message)
  unless chatId.truthy do return none
  let settings ← getGroup chatId
  unless settings.antiBadwords do return none
  let senderId ← Effect.lift (getSenderId message)
  if ← Effect.query fun c => c.tables.rules.isExempt chatId senderId then return none
  let text := (← Effect.lift (getText message)).or (.str "")
  let filters ← Effect.query fun c => c.tables.rules.listFilters chatId
  if filters = [] then return none
  unless ← Effect.lift (filterVerdict env text false filters) do return none
  let messageId ← Effect.lift (getMessageId message)
  return some { chatId, messageId, senderId }

/-- A plugin that returns `False` unless it finds something to act on. -/
def actOn {α : Type} (find : Effect CachedTables PyError (Option α))
    (act : α → Suspending Bool) : CachedSuspending Bool := do
  match ← Coroutine.atomic find with
  | none => return false
  | some x => uncached (act x)

/-- `AntiLinkPlugin.handle`. -/
def antiLinkPlugin : CachedPlugin := fun env ctx update =>
  actOn (antiLinkOffence env update) fun o => do
    Coroutine.when o.messageId.truthy (Suspending.deleteMessage o.chatId o.messageId)
    Coroutine.when o.senderId.truthy (Suspending.banChatMember o.chatId o.senderId)
    Coroutine.when ctx.reportAntiActions (Suspending.sendMessage o.chatId linkNotice)
    return true

/-- `AntiFloodPlugin.handle`; the history of the sender has nothing to do with the cache. -/
def antiFloodPlugin : CachedPlugin := fun env _ update =>
  actOn (antiFloodSubject update) (Suspending.countMessage env)

/-- `FilterWordsPlugin.handle`. -/
def filterWordsPlugin : CachedPlugin := fun env _ update =>
  actOn (filterOffence env update) fun o => do
    Coroutine.when o.messageId.truthy (Suspending.deleteMessage o.chatId o.messageId)
    return true

/-! ## commands -/

/-- `chat_id = get_chat_id(message)`, and nothing more if there is none. -/
def inChat (message : PyVal) (act : PyVal → CachedSuspending Unit) : CachedSuspending Unit := do
  let chatId ← Coroutine.lift (getChatId message)
  if chatId.truthy then act chatId else pure ()

/-- `/settings`. -/
def settingsHandler : CachedHandler := fun _ _ message _ => inChat message fun chatId => do
  let settings ← Coroutine.atomic (getGroup chatId)
  uncached (Suspending.sendMessage chatId (settingsText settings))

/-- `/antilink`. -/
def antilinkHandler : CachedHandler := fun env _ message args =>
  inChat message fun chatId =>
    match args with
    | [] => pure ()
    | word :: _ => do
        let value := env.unicode.lower word == "on"
        Coroutine.atomic (setGroupFlag chatId .antiLink value)
        uncached (Suspending.sendMessage chatId ("Anti Link " ++ onOff value))

/-- The handler of the command. -/
def handlerOf (name : String) : CachedHandler :=
  if name = "settings" then settingsHandler
  else if name = "antilink" then antilinkHandler
  else fun env ctx message args => uncached (Suspending.handlerOf name env ctx message args)

/-- `CommandsPlugin.handle`; it is decided on the admins, not on the settings. -/
def commandsPlugin (registry : CommandRegistry) : CachedPlugin := fun env ctx update => do
  match ← Coroutine.atomic (.query fun c : CachedTables =>
      commandVerdict env ctx registry c.tables.rules update) with
  | .ignored => return false
  | .denied chatId => do
      uncached (Suspending.sendMessage chatId deniedNotice)
      return true
  | .invoked inv => do
      handlerOf inv.command.name env ctx inv.message inv.args
      return true

/-! ## the panel -/

/-- `_refresh_panel`. -/
def refreshPanel (chatId callback : PyVal) : CachedSuspending Unit := do
  let messageId ← Coroutine.lift (callback.get "message_id")
  if messageId.truthy then do
    let settings ← Coroutine.atomic (getGroup chatId)
    uncached do
      let _ ← Suspending.callApi (.editInlineKeypad chatId messageId (buildKeypad settings))
  else pure ()

/-- `panel:anti_link` and `panel:anti_flood`. -/
def togglePanel (chatId : PyVal) (key : Flag) (callback : PyVal) : CachedSuspending Unit := do
  let settings ← Coroutine.atomic (getGroup chatId)
  Coroutine.atomic (setGroupFlag chatId key (!settings.flag key))
  uncached (Suspending.sendMessage chatId (toggleNotice key))
  refreshPanel chatId callback

/-- `/panel`: the panel of the chat, if there is one. -/
def showPanel (chatId : PyVal) : CachedSuspending Unit :=
  if chatId.truthy then do
    let settings ← Coroutine.atomic (getGroup chatId)
    uncached (Suspending.sendMessage chatId "پنل مدیریت" (some (buildKeypad settings)))
  else pure ()

/-- The branches of `PanelPlugin.handle`; the others ask for no settings. -/
def servePanel : PanelRequest → CachedSuspending Unit
  | .panel chatId => showPanel chatId
  | .toggle chatId key callback => togglePanel chatId key callback
  | request => uncached (Suspending.servePanel request)

/-- `PanelPlugin.handle`. -/
def panelPlugin : CachedPlugin := fun _ _ update => do
  match ← Coroutine.lift (panelRequest update) with
  | none => return false
  | some request => do
      servePanel request
      return true

/-! ## the chain -/

/-- `PluginRegistry.dispatch`. -/
def dispatch (env : Env) (ctx : Context) (update : PyVal) :
    List CachedPlugin → CachedSuspending Unit
  | [] => pure ()
  | plugin :: plugins => do
      let handled ← plugin env ctx update
      if handled then pure () else dispatch env ctx update plugins

/-- The plugins of `startup`. -/
def startupPlugins : List CachedPlugin :=
  [fun env ctx update => uncached (Suspending.incomingSnapshotPlugin env ctx update),
    fun env ctx update => uncached (Suspending.messageLoggingPlugin env ctx update),
    antiLinkPlugin, antiFloodPlugin, filterWordsPlugin, commandsPlugin startupRegistry,
    panelPlugin]

/-- `_process_job`. -/
def processJob (env : Env) (ctx : Context) (job : Job) : CachedSuspending Unit :=
  dispatch env { ctx with job := some job } (Suspending.updateOf job) startupPlugins

/-! ## with a coherent cache -/

/-- The same tables, behind a cache that is coherent for strings. -/
def Shadows (c : CachedTables) (t : Tables) : Prop :=
  c.tables = t ∧ c.repository.Coherent stringIds

/-- `get_group` answers what the table does. -/
theorem getGroup_answers (id : String) (t : Tables) :
    Effect.Answers (Shadows · t) (getGroup (.str id)) (t.rules.getGroup (.str id)) := by
  rintro c ⟨rfl, hc⟩
  obtain ⟨-, hgroups, hcoherent⟩ := Repository.getGroup_spec allCongruent_stringIds hc
    (str_mem_stringIds id) (c.clock 0) (c.clock 1)
  have hanswer := Repository.getGroup_str hc id (c.clock 0) (c.clock 1)
  unfold getGroup
  cases hrun : c.repository.getGroup (.str id) (c.clock 0) (c.clock 1) with
  | mk answer repo =>
      rw [hrun] at hgroups hcoherent hanswer
      refine ⟨?_, c.tables_withRepository hgroups, hcoherent⟩
      rw [Rules.getGroup_str]
      exact hanswer

/-- `set_group_flag` updates the table's row. -/
theorem setGroupFlag_shadows (id : String) (key : Flag) (value : Bool) :
    ∀ c t, Shadows c t →
      (setGroupFlag (.str id) key value c).1 = .ok () ∧
        Shadows (setGroupFlag (.str id) key value c).2
          { t with
            rules := { t.rules with groups := t.rules.groups.update id key value }
            flagWrites := t.flagWrites ++ [⟨.str id, key, value⟩] } := by
  rintro c _ ⟨rfl, hc⟩
  obtain ⟨hok, hgroups, hcoherent⟩ := Repository.setGroupFlag_spec allCongruent_stringIds hc
    (str_mem_stringIds id) (.flag key) value
  unfold setGroupFlag
  cases hrun : c.repository.setGroupFlag (.str id) (.flag key) value with
  | mk result repo =>
      rw [hrun] at hok hgroups hcoherent
      cases result with
      | error e => cases hok
      | ok done =>
          refine ⟨rfl, ?_, hcoherent⟩
          dsimp only [CachedTables.withTables]
          rw [c.tables_withRepository hgroups]
          rfl

/-- The chats that settings are asked for are named by strings. -/
structure NamesByString (update : PyVal) : Prop where
  message : ∀ message chatId, extractMessage update = .ok message →
    getChatId message = .ok chatId → chatId.truthy = true → chatId ∈ stringIds
  pressed : ∀ chatId, Suspending.Toggled update chatId → chatId ∈ stringIds

/-- What is dispatched of a job is the payload it was built from. -/
theorem updateOf_of_buildJob {rt : Runtime} {update : PyVal} {r : Request} {job : Job}
    (h : buildJob rt update r = .ok job) : Suspending.updateOf job = update := by
  obtain ⟨hread, priority, -, rfl⟩ := job_of_buildJob h
  show update.or .emptyDict = update
  cases htruthy : update.truthy with
  | true => exact if_pos htruthy
  | false => rw [PyVal.eq_emptyDict hread.payload htruthy, PyVal.or, if_neg (by decide)]

/-- A message that was enqueued names its chat by a string. -/
theorem namesByString_of_buildJob {rt : Runtime} {update : PyVal} {r : Request} {job : Job}
    (h : buildJob rt update r = .ok job)
    (hpressed : ∀ chatId, Suspending.Toggled update chatId → chatId ∈ stringIds) :
    NamesByString (Suspending.updateOf job) := by
  rw [updateOf_of_buildJob h]
  refine ⟨fun message chatId hmessage hchat htruthy => ?_, hpressed⟩
  obtain ⟨id, rfl⟩ :=
    (readable_of_buildJob h).exists_str_of_getChatId hmessage hchat htruthy
  exact str_mem_stringIds id

/-! ## decisions -/

section Decisions

variable {env : Env} {update : PyVal} {t : Tables}

/-- What is asked of the tables alone. -/
theorem query_answers {α : Type} (f : Tables → Except PyError α) :
    Effect.Answers (Shadows · t) (Effect.query fun c => f c.tables) (f t) :=
  Effect.answers_query fun c hc => by rw [hc.1]

/-- The same of an id that is known to be a string. -/
theorem getGroup_answers_of_mem {chatId : PyVal} (h : chatId ∈ stringIds) :
    Effect.Answers (Shadows · t) (getGroup chatId) (t.rules.getGroup chatId) := by
  obtain ⟨id, rfl⟩ := h
  exact getGroup_answers id t

/-- `AntiLinkPlugin` finds what it finds without the cache. -/
theorem antiLinkOffence_answers (h : NamesByString update) :
    Effect.Answers (Shadows · t) (antiLinkOffence env update)
      (RubicaBot.antiLinkOffence env t.rules update) := by
  refine (Effect.answers_lift _).bind fun message hmessage => ?_
  refine Effect.Answers.ite (fun _ => ?_) fun _ => Effect.answers_pure _
  refine (Effect.answers_lift _).bind fun chatId hchat => ?_
  refine Effect.Answers.ite (fun hc => ?_) fun _ => Effect.answers_pure _
  refine (Effect.answers_lift _).bind fun chat _ => ?_
  refine (Effect.answers_lift _).bind fun chatType _ => ?_
  refine (Effect.answers_lift _).bind fun moderated _ => ?_
  refine Effect.Answers.ite (fun _ => ?_) fun _ => Effect.answers_pure _
  refine (getGroup_answers_of_mem (h.message _ _ hmessage hchat hc)).bind fun settings _ => ?_
  refine Effect.Answers.ite (fun _ => ?_) fun _ => Effect.answers_pure _
  refine (Effect.answers_lift _).bind fun senderId _ => ?_
  refine (query_answers (·.rules.isExempt chatId senderId)).bind fun exempt _ => ?_
  refine Effect.Answers.ite (fun _ => Effect.answers_pure _) fun _ => ?_
  refine (Effect.answers_lift _).bind fun text _ => (Effect.answers_lift _).bind fun link _ => ?_
  refine Effect.Answers.ite (fun _ => ?_) fun _ => Effect.answers_pure _
  exact (Effect.answers_lift _).bind fun messageId _ => Effect.answers_pure _

/-- So does `AntiFloodPlugin`. -/
theorem antiFloodSubject_answers (h : NamesByString update) :
    Effect.Answers (Shadows · t) (antiFloodSubject update)
      (RubicaBot.antiFloodSubject t.rules update) := by
  refine (Effect.answers_lift _).bind fun message hmessage => ?_
  refine Effect.Answers.ite (fun _ => ?_) fun _ => Effect.answers_pure _
  refine (Effect.answers_lift _).bind fun chatId hchat => ?_
  refine (Effect.answers_lift _).bind fun senderId _ => ?_
  refine Effect.Answers.ite (fun hc => ?_) fun _ => Effect.answers_pure _
  have hc : chatId.truthy = true := (Bool.and_eq_true _ _ ▸ hc).1
  refine (getGroup_answers_of_mem (h.message _ _ hmessage hchat hc)).bind fun settings _ => ?_
  refine Effect.Answers.ite (fun _ => ?_) fun _ => Effect.answers_pure _
  refine (query_answers (·.rules.isAdmin chatId senderId)).bind fun admin _ => ?_
  exact Effect.Answers.ite (fun _ => Effect.answers_pure _) fun _ => Effect.answers_pure _

/-- And `FilterWordsPlugin`. -/
theorem filterOffence_answers (h : NamesByString update) :
    Effect.Answers (Shadows · t) (filterOffence env update)
      (RubicaBot.filterOffence env t.rules update) := by
  refine (Effect.answers_lift _).bind fun message hmessage => ?_
  refine Effect.Answers.ite (fun _ => ?_) fun _ => Effect.answers_pure _
  refine (Effect.answers_lift _).bind fun chatId hchat => ?_
  refine Effect.Answers.ite (fun hc => ?_) fun _ => Effect.answers_pure _
  refine (getGroup_answers_of_mem (h.message _ _ hmessage hchat hc)).bind fun settings _ => ?_
  refine Effect.Answers.ite (fun _ => ?_) fun _ => Effect.answers_pure _
  refine (Effect.answers_lift _).bind fun senderId _ => ?_
  refine (query_answers (·.rules.isExempt chatId senderId)).bind fun exempt _ => ?_
  refine Effect.Answers.ite (fun _ => Effect.answers_pure _) fun _ => ?_
  refine (Effect.answers_lift _).bind fun text _ => ?_
  refine (query_answers (·.rules.listFilters chatId)).bind fun filters _ => ?_
  refine Effect.Answers.ite (fun _ => Effect.answers_pure _) fun _ => ?_
  refine (Effect.answers_lift _).bind fun verdict _ => ?_
  refine Effect.Answers.ite (fun _ => ?_) fun _ => Effect.answers_pure _
  exact (Effect.answers_lift _).bind fun messageId _ => Effect.answers_pure _

end Decisions

/-! ## what is done about them -/

/-- The settings are as they were. -/
def SameGroups (t t' : Tables) : Prop := t'.rules.groups = t.rules.groups

theorem sameGroups_refl (t : Tables) : SameGroups t t := rfl

/-- What writes no settings is not told from what it is without the cache. -/
theorem uncached_matches {α : Type} {m : Suspending α}
    (h : m.Confined (fun _ => True) SameGroups) : Coroutine.Matches Shadows (uncached m) m := by
  refine zoom_matches (I := fun c : CachedTables => c.repository.Coherent stringIds)
    (fun _ _ => rfl) ?_ h
  intro c t hc ht
  have hsame : (c.withTables t).repository = c.repository := by
    rw [CachedTables.repository, CachedTables.repository, ← show t.rules.groups = _ from ht]
    rfl
  rw [hsame]
  exact hc

/-- A message has nothing to do with the cache. -/
theorem sendMessage_matches (chatId : PyVal) (text : String) (keypad : Option PyVal) :
    Coroutine.Matches Shadows (uncached (Suspending.sendMessage chatId text keypad))
      (Suspending.sendMessage chatId text keypad) :=
  uncached_matches (Suspending.sendMessage_confined trivial)

/-- Both ask for the same settings. -/
theorem getGroup_same {chatId : PyVal} (h : chatId ∈ stringIds) :
    ∀ c t, Shadows c t →
      (getGroup chatId c).1 = (Effect.query (fun t : Tables => t.rules.getGroup chatId) t).1 ∧
        Shadows (getGroup chatId c).2 t :=
  fun c _ hc => getGroup_answers_of_mem h c hc

/-- The flag is written, and the cached settings are dropped. -/
theorem setGroupFlag_matches {chatId : PyVal} (h : chatId ∈ stringIds) (key : Flag)
    (value : Bool) :
    Coroutine.Matches Shadows (atomic (setGroupFlag chatId key value))
      (Suspending.setGroupFlag chatId key value) := by
  obtain ⟨id, rfl⟩ := h
  refine matches_atomic fun c t hc => ?_
  obtain ⟨hok, hshadows⟩ := setGroupFlag_shadows id key value c t hc
  exact ⟨hok, hshadows⟩

/-- If the same is found, and what is done about it writes no settings. -/
theorem actOn_matches {α : Type} {find : Effect CachedTables PyError (Option α)}
    {find' : Tables → Except PyError (Option α)} {act : α → Suspending Bool}
    (hfind : ∀ t, Effect.Answers (Shadows · t) find (find' t))
    (hact : ∀ x, (act x).Confined (fun _ => True) SameGroups) :
    Coroutine.Matches Shadows (actOn find act) (Suspending.actOn find' act) := by
  refine matches_atomic_bind (fun c t hc => hfind t c hc) fun found _ _ => ?_
  cases found with
  | none => exact matches_pure _
  | some x => exact uncached_matches (hact x)

section Plugins

variable {env : Env} {ctx : Context} {update : PyVal}

/-- A deletion writes nothing. -/
theorem deleteMessage_confined (c : Bool) (chatId messageId : PyVal) :
    ((Suspending.deleteMessage chatId messageId).when c).Confined (fun _ => True) SameGroups :=
  confined_when fun _ => Suspending.callApi_confined trivial

/-- So the plugin matches the one without the cache. -/
theorem antiLinkPlugin_matches (h : NamesByString update) :
    Coroutine.Matches Shadows (antiLinkPlugin env ctx update)
      (Suspending.antiLinkPlugin env ctx update) := by
  refine actOn_matches (fun _ => antiLinkOffence_answers h) fun _ => ?_
  refine (deleteMessage_confined _ _ _).bind fun _ => ?_
  refine Confined.bind (confined_when fun _ => Suspending.banChatMember_confined trivial)
    fun _ => ?_
  exact Confined.bind (confined_when fun _ => Suspending.sendMessage_confined trivial) fun _ =>
    confined_pure _

theorem antiFloodPlugin_matches (h : NamesByString update) :
    Coroutine.Matches Shadows (antiFloodPlugin env ctx update)
      (Suspending.antiFloodPlugin env ctx update) := by
  refine actOn_matches (fun _ => antiFloodSubject_answers h) fun _ => ?_
  refine (Suspending.query_confined sameGroups_refl _).bind fun exceeded => ?_
  refine Confined.bind (confined_atomic fun _ => rfl) fun _ => ?_
  refine Confined.ite (fun _ => ?_) fun _ => confined_pure _
  refine (confined_lift _).bind fun messageId => (deleteMessage_confined _ _ _).bind fun _ => ?_
  exact (Suspending.banChatMember_confined trivial).bind fun _ => confined_pure _

theorem filterWordsPlugin_matches (h : NamesByString update) :
    Coroutine.Matches Shadows (filterWordsPlugin env ctx update)
      (Suspending.filterWordsPlugin env ctx update) :=
  actOn_matches (fun _ => filterOffence_answers h) fun _ =>
    (deleteMessage_confined _ _ _).bind fun _ => confined_pure _

/-- A chat that is there may be taken to be named by a string. -/
theorem inChat_matches {message : PyVal} {act : PyVal → CachedSuspending Unit}
    {act' : PyVal → Suspending Unit}
    (h : ∀ chatId, getChatId message = .ok chatId → chatId.truthy = true →
      Coroutine.Matches Shadows (act chatId) (act' chatId)) :
    Coroutine.Matches Shadows (inChat message act) (Suspending.inChat message act') :=
  matches_lift_bind fun chatId hchat => Matches.ite (h chatId hchat) fun _ => matches_pure _

/-- A write to the rules that leaves the settings alone. -/
theorem writeRules_confined (write : Rules → Except PyError Rules)
    (hwrite : ∀ r r', write r = .ok r' → r'.groups = r.groups) :
    (atomic (.tryUpdate fun t : Tables => do return { t with rules := ← write t.rules }) :
      Suspending Unit).Confined (fun _ => True) SameGroups := by
  refine confined_atomic fun t => ?_
  cases hrules : write t.rules with
  | error e =>
      rw [Effect.tryUpdate_of_error (by rw [hrules]; rfl)]
      rfl
  | ok r =>
      rw [Effect.tryUpdate_of_ok (by rw [hrules]; rfl)]
      exact hwrite _ _ hrules

/-- The handlers that ask for no settings change none. -/
theorem licence_sameGroups {message : PyVal} {name : String} (h : name ≠ "antilink") :
    Suspending.Licence (fun _ => True) SameGroups message name where
  reads := sameGroups_refl
  pauses := trivial
  replies := fun _ _ _ _ => trivial
  menu := fun _ _ => trivial
  deletes := fun _ _ _ _ _ => trivial
  bans := fun _ _ _ _ _ => trivial
  unbans := fun _ _ _ _ _ => trivial
  flags := fun hname => absurd hname h
  adds := fun _ chatId _ word => by
    refine writeRules_confined (·.addFilter chatId word false false) fun r r' hr => ?_
    obtain ⟨c, -, hr⟩ := Effect.exists_of_bind_eq_ok hr
    cases hr
    rfl
  removes := fun _ chatId _ word => by
    refine writeRules_confined (·.removeFilter chatId word) fun r r' hr => ?_
    obtain ⟨t, -, hr⟩ := Effect.exists_of_bind_eq_ok hr
    cases t <;> cases hr <;> rfl

/-- Each handler matches the one without the cache. -/
theorem handlerOf_matches (name : String) {message : PyVal}
    (h : ∀ chatId, getChatId message = .ok chatId → chatId.truthy = true → chatId ∈ stringIds)
    (args : List String) :
    Coroutine.Matches Shadows (handlerOf name env ctx message args)
      (Suspending.handlerOf name env ctx message args) := by
  unfold handlerOf
  split
  · next hname =>
      subst hname
      refine inChat_matches fun chatId hchat hc => ?_
      exact matches_atomic_bind (getGroup_same (h chatId hchat hc)) fun settings _ _ =>
        sendMessage_matches _ _ _
  · split
    · next hname =>
        subst hname
        refine inChat_matches fun chatId hchat hc => ?_
        cases args with
        | nil => exact matches_pure _
        | cons word rest =>
            exact (setGroupFlag_matches (h chatId hchat hc) _ _).bind fun _ =>
              sendMessage_matches _ _ _
    · next hname =>
        exact uncached_matches (Suspending.handlerOf_confined name _ _ env ctx message args
          (licence_sameGroups hname))

/-- The verdict is the same, and so is the handler. -/
theorem commandsPlugin_matches (h : NamesByString update) (registry : CommandRegistry) :
    Coroutine.Matches Shadows (commandsPlugin registry env ctx update)
      (Suspending.commandsPlugin registry env ctx update) := by
  refine matches_atomic_bind (fun _ _ hc => ⟨by rw [← hc.1]; rfl, hc⟩) fun verdict _ hverdict => ?_
  cases verdict with
  | ignored => exact matches_pure _
  | denied chatId => exact (sendMessage_matches _ _ _).bind fun _ => matches_pure _
  | invoked inv =>
      have hrequested := (commandVerdict_eq_invoked.mp hverdict).1
      have hmessage := (requestedCommand_eq_some hrequested).2
      exact (handlerOf_matches _ (fun chatId => h.message _ chatId hmessage) _).bind fun _ =>
        matches_pure _

/-- The settings are asked for again, perhaps after others have written. -/
theorem refreshPanel_matches {chatId : PyVal} (h : chatId ∈ stringIds) (callback : PyVal) :
    Coroutine.Matches Shadows (refreshPanel chatId callback)
      (Suspending.refreshPanel chatId callback) := by
  refine matches_lift_bind fun messageId _ => Matches.ite (fun _ => ?_) fun _ => matches_pure _
  refine matches_atomic_bind (getGroup_same h) fun settings _ _ => uncached_matches ?_
  exact (Suspending.callApi_confined trivial).bind fun _ => confined_pure _

/-- The requests of the panel, with their chats. -/
theorem servePanel_matches (h : NamesByString update) {request : PanelRequest}
    (hrequest : panelRequest update = .ok (some request)) :
    Coroutine.Matches Shadows (servePanel request) (Suspending.servePanel request) := by
  cases request with
  | panel chatId =>
      obtain ⟨message, hmessage, hchat⟩ := Suspending.panelRequest_eq_some hrequest
      refine Matches.ite (fun hc => ?_) fun _ => matches_pure _
      exact matches_atomic_bind (getGroup_same (h.message _ _ hmessage hchat hc))
        fun settings _ _ => sendMessage_matches _ _ _
  | toggle chatId key callback =>
      have hid := h.pressed chatId ⟨key, callback, hrequest⟩
      refine matches_atomic_bind (getGroup_same hid) fun settings _ _ => ?_
      refine (setGroupFlag_matches hid _ _).bind fun _ => ?_
      exact (sendMessage_matches _ _ _).bind fun _ => refreshPanel_matches hid callback
  | filters chatId =>
      refine uncached_matches ((Suspending.query_confined sameGroups_refl _).bind fun filters => ?_)
      exact Confined.ite (fun _ => Suspending.sendMessage_confined trivial) fun _ =>
        Suspending.sendMessage_confined trivial
  | delete chatId => exact uncached_matches (Suspending.sendMessage_confined trivial)

theorem panelPlugin_matches (h : NamesByString update) :
    Coroutine.Matches Shadows (panelPlugin env ctx update)
      (Suspending.panelPlugin env ctx update) := by
  refine matches_lift_bind fun request hrequest => ?_
  cases request with
  | none => exact matches_pure _
  | some request => exact (servePanel_matches h hrequest).bind fun _ => matches_pure _

/-- What logs only. -/
theorem logging_matches {m : Suspending Bool}
    (h : ∀ t, m.Allowed (fun _ => True) Suspending.Before t) :
    Coroutine.Matches Shadows (uncached m) m :=
  uncached_matches fun t => (h t).mono (fun _ hA => hA) fun _ _ hW => congrArg Rules.groups hW.1

/-! ## the chain -/

/-- If every plugin matches, the chain does. -/
theorem dispatch_matches {plugins : List CachedPlugin} {plugins' : List SuspendingPlugin}
    (h : List.Forall₂ (fun plugin plugin' =>
      Coroutine.Matches Shadows (plugin env ctx update) (plugin' env ctx update))
        plugins plugins') :
    Coroutine.Matches Shadows (dispatch env ctx update plugins)
      (Suspending.dispatch env ctx update plugins') := by
  induction h with
  | nil => exact matches_pure _
  | cons hplugin _ ih =>
      exact hplugin.bind fun handled => Matches.ite (fun _ => matches_pure _) fun _ => ih

end Plugins

/-- **The cache does not show** in a dispatch, if the chats are named by strings. -/
theorem processJob_matches (env : Env) (ctx : Context) {job : Job}
    (h : NamesByString (Suspending.updateOf job)) :
    Coroutine.Matches Shadows (processJob env ctx job) (Suspending.processJob env ctx job) :=
  dispatch_matches <|
    .cons (logging_matches fun _ => Suspending.incomingSnapshotPlugin_allowed) <|
    .cons (logging_matches fun _ => Suspending.messageLoggingPlugin_allowed) <|
    .cons (antiLinkPlugin_matches h) <| .cons (antiFloodPlugin_matches h) <|
    .cons (filterWordsPlugin_matches h) <| .cons (commandsPlugin_matches h _) <|
    .cons (panelPlugin_matches h) .nil

end Cached

end RubicaBot
