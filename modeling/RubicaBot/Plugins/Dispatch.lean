import RubicaBot.Plugins.Panel

/-!
# RubicaBot.Plugins.Dispatch

`IncomingSnapshotPlugin`, `MessageLoggingPlugin`, `PluginRegistry.dispatch` and
the chain of seven plugins that `app/main.py` sets up.

`Reaches` says, in terms of the world before the dispatch, that an update gets
past the five plugins in front of `CommandsPlugin`.  If it does, the last two see
the rules the dispatch started with; if not, nothing has been configured.
-/

namespace RubicaBot

open Py BotM

/-! ## snapshots and the message log -/

/-- The raw payload to store; a `TypeError` of `json.dumps` leaves it out. -/
def snapshotPayload (env : Env) (settings : Settings) (update : PyVal) :
    Except PyError (Option String) :=
  if settings.incomingUpdatesStoreRaw then
    match env.jsonDumps update with
    | .ok s => .ok (some s)
    | .error .typeError => .ok none
    | .error e => .error e
  else .ok none

/-- The row of `save_incoming_update`. -/
def incomingRow (job : Job) (rawPayload : Option String) : Except PyError IncomingRow := do
  return {
    jobId := job.jobId, receivedAt := job.receivedAt, chatId := ← sqlText job.chatId,
    messageId := ← sqlText job.messageId, senderId := ← sqlText job.senderId,
    updateType := ← sqlText job.updateType, text := ← sqlText job.text, rawPayload := rawPayload }

/-- What `IncomingSnapshotPlugin` stores, if anything. -/
def snapshotOf (env : Env) (ctx : Context) (update : PyVal) : Except PyError (Option IncomingRow) :=
  match ctx.settings, ctx.job with
  | some settings, some job =>
      if settings.incomingUpdatesEnabled then do
        let rawPayload ← snapshotPayload env settings update
        -- an exception of the repository is logged
        return (incomingRow job rawPayload).toOption
      else .ok none
  | _, _ => .ok none

/-- `IncomingSnapshotPlugin.handle`. -/
def incomingSnapshotPlugin : Plugin := fun env ctx update => do
  let row ← Effect.lift (snapshotOf env ctx update)
  Effect.update fun w => { w with incomingUpdates := row.toList ++ w.incomingUpdates }
  return false

/-- What `MessageLoggingPlugin` makes of the message log. -/
def logMessage (messages : List MessageRow) (update : PyVal) :
    Except PyError (List MessageRow) := do
  let message ← extractMessage update
  unless message.truthy do return messages
  let chatId ← getChatId message
  let messageId ← getMessageId message
  unless chatId.truthy && messageId.truthy do return messages
  saveMessage messages chatId messageId (← getSenderId message) (← getText message)

/-- `MessageLoggingPlugin.handle`. -/
def messageLoggingPlugin : Plugin := fun _ _ update => do
  Effect.tryUpdate fun w => do return { w with messages := ← logMessage w.messages update }
  return false

/-! ## the chain -/

/-- `PluginRegistry.dispatch`. -/
def dispatch (env : Env) (ctx : Context) (update : PyVal) : List Plugin → BotM Unit
  | [] => pure ()
  | plugin :: plugins => do
      let handled ← plugin env ctx update
      if handled then pure () else dispatch env ctx update plugins

/-- The plugins of `startup`. -/
def startupPlugins : List Plugin :=
  [incomingSnapshotPlugin, messageLoggingPlugin, antiLinkPlugin, antiFloodPlugin, filterWordsPlugin,
    commandsPlugin startupRegistry, panelPlugin]

/-- The five in front of `CommandsPlugin`. -/
def frontPlugins : List Plugin :=
  [incomingSnapshotPlugin, messageLoggingPlugin, antiLinkPlugin, antiFloodPlugin, filterWordsPlugin]

/-- The last two of them. -/
def lastPlugins : List Plugin := [commandsPlugin startupRegistry, panelPlugin]

/-- `_process_job`: the job's payload goes through the chain. -/
def processJob (env : Env) (ctx : Context) (job : Job) : BotM Unit :=
  dispatch env { ctx with job := some job } (job.rawPayload.or .emptyDict) startupPlugins

section Chain

variable {env : Env} {ctx : Context} {update : PyVal} {plugin : Plugin} {plugins : List Plugin}
  {τ : Type} {f : World → τ}

/-- A plugin that returns `False` hands over to the next. -/
theorem dispatch_of_passed {w w' : World} (h : plugin env ctx update w = (.ok false, w')) :
    dispatch env ctx update (plugin :: plugins) w = dispatch env ctx update plugins w' :=
  Effect.bind_of_ok h

/-- A plugin that does not ends the dispatch. -/
theorem dispatch_of_stopped {w : World} (h : (plugin env ctx update w).1 ≠ .ok false) :
    (dispatch env ctx update (plugin :: plugins) w).2 = (plugin env ctx update w).2 := by
  cases hp : plugin env ctx update w with
  | mk result w' =>
      rw [hp] at h
      cases result with
      | error e => rw [dispatch, Effect.bind_of_error hp]
      | ok handled =>
          cases handled with
          | false => exact absurd rfl h
          | true =>
              rw [dispatch, Effect.bind_of_ok hp]
              rfl

/-- The world that is left if all of the plugins hand over. -/
def handsOver (env : Env) (ctx : Context) (update : PyVal) : List Plugin → World → Option World
  | [], w => some w
  | plugin :: plugins, w =>
      match plugin env ctx update w with
      | (.ok false, w') => handsOver env ctx update plugins w'
      | _ => none

/-- A plugin that returns `False` hands over to the next. -/
theorem handsOver_of_passed {w w' : World} (h : plugin env ctx update w = (.ok false, w')) :
    handsOver env ctx update (plugin :: plugins) w = handsOver env ctx update plugins w' := by
  simp only [handsOver, h]

/-- Any other ends the dispatch. -/
theorem handsOver_of_stopped {w : World} (h : (plugin env ctx update w).1 ≠ .ok false) :
    handsOver env ctx update (plugin :: plugins) w = none := by
  unfold handsOver
  split
  · next w' hp =>
      rw [hp] at h
      exact absurd rfl h
  · rfl

/-- The plugins before hand over to those after them. -/
theorem dispatch_append {after : List Plugin} {w w' : World}
    (h : handsOver env ctx update plugins w = some w') :
    dispatch env ctx update (plugins ++ after) w = dispatch env ctx update after w' := by
  induction plugins generalizing w with
  | nil =>
      cases h
      rfl
  | cons plugin plugins ih =>
      unfold handsOver at h
      split at h
      · next m hp => exact (dispatch_of_passed hp).trans (ih h)
      · cases h

/-- Or the dispatch ends with one of them. -/
theorem dispatch_append_of_none {after : List Plugin} {w : World}
    (h : handsOver env ctx update plugins w = none) :
    (dispatch env ctx update (plugins ++ after) w).2 = (dispatch env ctx update plugins w).2 := by
  induction plugins generalizing w with
  | nil => cases h
  | cons plugin plugins ih =>
      by_cases hp : (plugin env ctx update w).1 = .ok false
      · have hpass : plugin env ctx update w = (.ok false, (plugin env ctx update w).2) :=
          Prod.ext hp rfl
        rw [handsOver_of_passed hpass] at h
        rw [List.cons_append, dispatch_of_passed hpass, dispatch_of_passed hpass]
        exact ih h
      · rw [List.cons_append, dispatch_of_stopped hp, dispatch_of_stopped hp]

/-- What every plugin keeps, the chain keeps. -/
theorem dispatch_preserves {I : World → Prop}
    (h : ∀ plugin ∈ plugins, Effect.Preserves I (plugin env ctx update)) :
    Effect.Preserves I (dispatch env ctx update plugins) := by
  induction plugins with
  | nil => exact Effect.preserves_pure I _
  | cons plugin plugins ih =>
      obtain ⟨hfirst, hrest⟩ := List.forall_mem_cons.mp h
      refine hfirst.bind fun handled => ?_
      split
      · exact Effect.preserves_pure I _
      · exact ih hrest

/-- What every plugin leaves alone, the chain leaves alone. -/
theorem dispatch_leaves {τ : Type} {f : World → τ}
    (h : ∀ plugin ∈ plugins, Effect.Leaves f (plugin env ctx update)) :
    Effect.Leaves f (dispatch env ctx update plugins) :=
  Effect.leaves_iff_preserves.mpr fun v => dispatch_preserves fun plugin hplugin =>
    Effect.leaves_iff_preserves.mp (h plugin hplugin) v

/-- The last plugin of a chain has the last word. -/
theorem dispatch_singleton (w : World) :
    (dispatch env ctx update [plugin] w).2 = (plugin env ctx update w).2 := by
  by_cases h : (plugin env ctx update w).1 = .ok false
  · have hpass : plugin env ctx update w = (.ok false, (plugin env ctx update w).2) :=
      Prod.ext h rfl
    rw [dispatch_of_passed hpass]
    rfl
  · exact dispatch_of_stopped h

/-! ## the plugins in front of CommandsPlugin -/

theorem incomingSnapshotPlugin_leaves (hf : Overlooks f) :
    Effect.Leaves f (incomingSnapshotPlugin env ctx update) := by
  refine (Effect.leaves_lift _ _).bind fun row =>
    Effect.Leaves.bind ?_ fun _ => Effect.leaves_pure _ _
  exact Effect.leaves_update fun w => hf.snapshots w _

theorem messageLoggingPlugin_configuration :
    Effect.Leaves configuration (messageLoggingPlugin env ctx update) := by
  refine Effect.Leaves.bind (Effect.leaves_tryUpdate fun w w' h => ?_) fun _ =>
    Effect.leaves_pure _ _
  obtain ⟨messages, -, hw⟩ := Effect.exists_of_bind_eq_ok h
  cases hw
  rfl

theorem antiLinkPlugin_leaves (hf : Overlooks f) :
    Effect.Leaves f (antiLinkPlugin env ctx update) :=
  actOn_leaves fun _ =>
    (Effect.Leaves.when (callApi_leaves hf _) _).bind fun _ =>
      (Effect.Leaves.when (banChatMember_leaves hf _ _) _).bind fun _ =>
        (Effect.Leaves.when (sendMessage_leaves hf _ _ _) _).bind fun _ =>
          Effect.leaves_pure _ _

theorem antiFloodPlugin_leaves (hf : Overlooks f) :
    Effect.Leaves f (antiFloodPlugin env ctx update) := by
  refine actOn_leaves fun s => ?_
  unfold countMessage
  refine (Effect.leaves_query _ _).bind fun exceeded => Effect.Leaves.bind ?_ fun _ => ?_
  · exact Effect.leaves_update fun w => hf.floods w _
  · refine Effect.Leaves.ite ?_ (Effect.leaves_pure _ _)
    exact (Effect.leaves_lift _ _).bind fun _ =>
      (Effect.Leaves.when (callApi_leaves hf _) _).bind fun _ =>
        (banChatMember_leaves hf _ _).bind fun _ => Effect.leaves_pure _ _

theorem filterWordsPlugin_leaves (hf : Overlooks f) :
    Effect.Leaves f (filterWordsPlugin env ctx update) :=
  actOn_leaves fun _ =>
    (Effect.Leaves.when (callApi_leaves hf _) _).bind fun _ => Effect.leaves_pure _ _

/-- An update gets past the plugins in front of `CommandsPlugin`: it can be
stored and logged, and is no business of the moderation. -/
structure Reaches (env : Env) (ctx : Context) (update : PyVal) (w : World) : Prop where
  stored : ∃ row, snapshotOf env ctx update = .ok row
  logged : ∃ messages, logMessage w.messages update = .ok messages
  noLink : antiLinkOffence env w.rules update = .ok none
  noFlood : ∃ counted, antiFloodSubject w.rules update = .ok counted ∧
    ∀ s ∈ counted, s.exceeds env w.floodEvents = false
  noBadWord : filterOffence env w.rules update = .ok none

end Chain

section Front

variable (env : Env) (ctx : Context) (update : PyVal) (w : World)

/-- It stores a row, if any, and passes the update on; or it has raised. -/
theorem incomingSnapshotPlugin_cases :
    (∃ row, snapshotOf env ctx update = .ok row ∧
        incomingSnapshotPlugin env ctx update w =
          (.ok false, { w with incomingUpdates := row.toList ++ w.incomingUpdates })) ∨
      (¬ ∃ row, snapshotOf env ctx update = .ok row) ∧
        (incomingSnapshotPlugin env ctx update w).1 ≠ .ok false := by
  cases h : snapshotOf env ctx update with
  | ok row => exact .inl ⟨row, rfl, Effect.bind_of_ok (congrArg (·, w) h)⟩
  | error e =>
      have hraises : incomingSnapshotPlugin env ctx update w = (.error e, w) :=
        Effect.bind_of_error (congrArg (·, w) h)
      exact .inr ⟨nofun, by rw [hraises]; exact nofun⟩

/-- It logs the message, if any, and passes the update on; or it has raised. -/
theorem messageLoggingPlugin_cases :
    (∃ messages, logMessage w.messages update = .ok messages ∧
        messageLoggingPlugin env ctx update w = (.ok false, { w with messages := messages })) ∨
      (¬ ∃ messages, logMessage w.messages update = .ok messages) ∧
        (messageLoggingPlugin env ctx update w).1 ≠ .ok false := by
  cases h : logMessage w.messages update with
  | ok messages =>
      exact .inl ⟨messages, rfl, Effect.bind_of_ok (Effect.tryUpdate_of_ok (by rw [h]; rfl))⟩
  | error e =>
      have hraises : messageLoggingPlugin env ctx update w = (.error e, w) :=
        Effect.bind_of_error (Effect.tryUpdate_of_error (by rw [h]; rfl))
      exact .inr ⟨nofun, by rw [hraises]; exact nofun⟩

/-- It passes on what is no offence. -/
theorem antiLinkPlugin_cases :
    antiLinkOffence env w.rules update = .ok none ∧
        antiLinkPlugin env ctx update w = (.ok false, w) ∨
      antiLinkOffence env w.rules update ≠ .ok none ∧
        (antiLinkPlugin env ctx update w).1 ≠ .ok false := by
  by_cases h : antiLinkOffence env w.rules update = .ok none
  · exact .inl ⟨h, actOn_of_none h⟩
  · refine .inr ⟨h, actOn_ne_false (fun o => ?_) h⟩
    exact Effect.never_bind fun _ => Effect.never_bind fun _ => Effect.never_bind fun _ =>
      Effect.never_pure Bool.false_ne_true

/-- The history is all that an update within the limit changes. -/
theorem antiFloodPlugin_cases :
    ((∃ counted, antiFloodSubject w.rules update = .ok counted ∧
          ∀ s ∈ counted, s.exceeds env w.floodEvents = false) ∧
        ∃ events,
          antiFloodPlugin env ctx update w = (.ok false, { w with floodEvents := events })) ∨
      (¬ ∃ counted, antiFloodSubject w.rules update = .ok counted ∧
          ∀ s ∈ counted, s.exceeds env w.floodEvents = false) ∧
        (antiFloodPlugin env ctx update w).1 ≠ .ok false := by
  cases h : antiFloodSubject w.rules update with
  | error e =>
      have hraises : antiFloodPlugin env ctx update w = (.error e, w) := actOn_of_error h
      exact .inr ⟨nofun, by rw [hraises]; exact nofun⟩
  | ok counted =>
      cases counted with
      | none =>
          exact .inl ⟨⟨none, rfl, nofun⟩, w.floodEvents, actOn_of_none h⟩
      | some s =>
          have hcount : antiFloodPlugin env ctx update w = countMessage env s w := actOn_of_some h
          rw [hcount]
          by_cases hexceeds : s.exceeds env w.floodEvents
          · refine .inr ⟨fun hfew => ?_, ?_⟩
            · obtain ⟨counted, hs, hfew⟩ := hfew
              cases hs
              rw [hfew s rfl] at hexceeds
              cases hexceeds
            · rw [countMessage_of_exceeds hexceeds]
              exact Effect.never_bind (fun _ => Effect.never_bind fun _ =>
                Effect.never_bind fun _ => Effect.never_pure Bool.false_ne_true) _
          · have hfew := Bool.eq_false_of_not_eq_true hexceeds
            refine .inl ⟨⟨some s, rfl, fun s' hs' => ?_⟩, _, countMessage_of_not_exceeds hfew⟩
            cases hs'
            exact hfew

/-- Likewise. -/
theorem filterWordsPlugin_cases :
    filterOffence env w.rules update = .ok none ∧
        filterWordsPlugin env ctx update w = (.ok false, w) ∨
      filterOffence env w.rules update ≠ .ok none ∧
        (filterWordsPlugin env ctx update w).1 ≠ .ok false := by
  by_cases h : filterOffence env w.rules update = .ok none
  · exact .inl ⟨h, actOn_of_none h⟩
  · refine .inr ⟨h, actOn_ne_false (fun o => ?_) h⟩
    exact Effect.never_bind fun _ => Effect.never_pure Bool.false_ne_true

/-- The plugins in front hand over what reaches `CommandsPlugin`, in a world that has
only been written to. -/
theorem handsOver_front :
    (Reaches env ctx update w ∧ ∃ w', handsOver env ctx update frontPlugins w = some w' ∧
        w'.rules = w.rules ∧ w'.flagWrites = w.flagWrites) ∨
      (¬ Reaches env ctx update w ∧ handsOver env ctx update frontPlugins w = none) := by
  unfold frontPlugins
  obtain ⟨row, hrow, hpass⟩ | ⟨hno, hstop⟩ := incomingSnapshotPlugin_cases env ctx update w
  · rw [handsOver_of_passed hpass]
    let w₁ : World := { w with incomingUpdates := row.toList ++ w.incomingUpdates }
    obtain ⟨messages, hmessages, hpass⟩ | ⟨hno, hstop⟩ :=
      messageLoggingPlugin_cases env ctx update w₁
    · rw [handsOver_of_passed hpass]
      let w₂ : World := { w₁ with messages := messages }
      obtain ⟨hlink, hpass⟩ | ⟨hno, hstop⟩ := antiLinkPlugin_cases env ctx update w₂
      · rw [handsOver_of_passed hpass]
        obtain ⟨hflood, events, hpass⟩ | ⟨hno, hstop⟩ := antiFloodPlugin_cases env ctx update w₂
        · rw [handsOver_of_passed hpass]
          let w₃ : World := { w₂ with floodEvents := events }
          obtain ⟨hword, hpass⟩ | ⟨hno, hstop⟩ := filterWordsPlugin_cases env ctx update w₃
          · rw [handsOver_of_passed hpass]
            exact .inl
              ⟨⟨⟨row, hrow⟩, ⟨messages, hmessages⟩, hlink, hflood, hword⟩, w₃, rfl, rfl, rfl⟩
          · exact .inr ⟨fun h => hno h.noBadWord, handsOver_of_stopped hstop⟩
        · exact .inr ⟨fun h => hno h.noFlood, handsOver_of_stopped hstop⟩
      · exact .inr ⟨fun h => hno h.noLink, handsOver_of_stopped hstop⟩
    · exact .inr ⟨fun h => hno h.logged, handsOver_of_stopped hstop⟩
  · exact .inr ⟨fun h => hno h.stored, handsOver_of_stopped hstop⟩

/-- Nothing is configured in front of `CommandsPlugin`. -/
theorem dispatch_front_configuration :
    configuration (dispatch env ctx update frontPlugins w).2 = configuration w := by
  refine dispatch_leaves ?_ w
  simp only [frontPlugins, List.forall_mem_cons]
  exact ⟨incomingSnapshotPlugin_leaves configuration_overlooks, messageLoggingPlugin_configuration,
    antiLinkPlugin_leaves configuration_overlooks, antiFloodPlugin_leaves configuration_overlooks,
    filterWordsPlugin_leaves configuration_overlooks, List.forall_mem_nil _⟩

/-- Either `CommandsPlugin` gets to see the update, with the rules as they were
before the dispatch, or nothing is configured. -/
theorem dispatch_startup :
    (Reaches env ctx update w ∧
      ∃ w', w'.rules = w.rules ∧ w'.flagWrites = w.flagWrites ∧
        dispatch env ctx update startupPlugins w =
          dispatch env ctx update lastPlugins w') ∨
      (¬ Reaches env ctx update w ∧
        configuration (dispatch env ctx update startupPlugins w).2 = configuration w) := by
  have hchain : startupPlugins = frontPlugins ++ lastPlugins := rfl
  rw [hchain]
  obtain ⟨hreach, w', hover, hrules, hwrites⟩ | ⟨hno, hstop⟩ := handsOver_front env ctx update w
  · exact .inl ⟨hreach, w', hrules, hwrites, dispatch_append hover⟩
  · refine .inr ⟨hno, ?_⟩
    rw [dispatch_append_of_none hstop]
    exact dispatch_front_configuration env ctx update w

end Front

end RubicaBot
