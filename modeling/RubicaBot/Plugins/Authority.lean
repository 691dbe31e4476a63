import RubicaBot.Plugins.Dispatch

/-!
# RubicaBot.Plugins.Authority

Who configures a group.

Two paths of the chain lead to `set_group_flag`: `/antilink` and the toggles of
the panel.  The first is behind the gate of `CommandsPlugin`, which a message
without a sender passes; the second asks nothing.  `secure_iff` says that an
update configures a chat without authority over it exactly if it gets to one of
these two.
-/

namespace RubicaBot

open Py BotM

/-- The sender of the update is identified and is the owner or an admin of the
chat. -/
def HasAuthority (ctx : Context) (rules : Rules) (update chatId : PyVal) : Prop :=
  ∃ message senderId, extractMessage update = .ok message ∧ getSenderId message = .ok senderId ∧
    senderId.truthy ∧ (ctx.isOwner senderId ∨ rules.isAdmin chatId senderId = .ok true)

/-- The world after a dispatch through the chain of `startup`. -/
def dispatched (env : Env) (ctx : Context) (update : PyVal) (w : World) : World :=
  (dispatch env ctx update startupPlugins { w with flagWrites := [] }).2

/-- Whatever the dispatch configures, the sender has authority over its chat. -/
def Secure (env : Env) (ctx : Context) (update : PyVal) (w : World) : Prop :=
  ∀ write ∈ (dispatched env ctx update w).flagWrites,
    HasAuthority ctx w.rules update write.chatId

/-- The id can be bound to a parameter of a statement. -/
def bindable (v : PyVal) : Bool := (sqlText v).isOk

/-- `/antilink` with an argument, in a message with a chat but without a sender. -/
def SenderlessAntilink (env : Env) (update : PyVal) : Prop :=
  ∃ inv chatId senderId, requestedCommand env startupRegistry update = .ok (some inv) ∧
    inv.command.name = "antilink" ∧ inv.args ≠ [] ∧ getChatId inv.message = .ok chatId ∧
    chatId.truthy ∧ bindable chatId ∧ getSenderId inv.message = .ok senderId ∧
    senderId.truthy = false

/-- No command, but a press of a toggle of the panel for a chat that the sender
of the message has no authority over. -/
def ForeignToggle (env : Env) (ctx : Context) (rules : Rules) (update : PyVal) : Prop :=
  requestedCommand env startupRegistry update = .ok none ∧
    ∃ chatId key callback, panelRequest update = .ok (some (.toggle chatId key callback)) ∧
      bindable chatId ∧ ¬ HasAuthority ctx rules update chatId

/-! ## the two writers -/

section Writers

variable {env : Env} {ctx : Context} {update : PyVal} {w : World}

/-- What follows a `set_group_flag` adds nothing to its record. -/
theorem flagWrites_setGroupFlag_bind {α : Type} {k : Unit → BotM α}
    (hk : ∀ u, Effect.Leaves configuration (k u)) (chatId : PyVal) (key : Flag) (value : Bool) :
    ((setGroupFlag chatId key value >>= k) w).2.flagWrites =
      w.flagWrites ++ if bindable chatId then [⟨chatId, key, value⟩] else [] := by
  obtain ⟨e, hsql, hraises⟩ | ⟨rules, hrules, hwrites⟩ := setGroupFlag_apply chatId key value w
  · have hnot : bindable chatId = false := by rw [bindable, hsql]; rfl
    rw [Effect.bind_of_error hraises, hnot]
    exact (List.append_nil _).symm
  · obtain ⟨t, hsql, -⟩ := Rules.setGroupFlag_eq_ok hrules
    have hbound : bindable chatId = true := by rw [bindable, hsql]; rfl
    rw [Effect.bind_of_ok hwrites, hbound]
    exact congrArg (·.2.2) (hk () _)

variable (env ctx w)

/-- What `/antilink` records. -/
theorem flagWrites_antilinkHandler {message chatId : PyVal} (hchat : getChatId message = .ok chatId)
    (args : List String) :
    ∃ value, (antilinkHandler env ctx message args w).2.flagWrites =
      w.flagWrites ++
        if chatId.truthy ∧ args ≠ [] ∧ bindable chatId then [⟨chatId, .antiLink, value⟩]
        else [] := by
  rw [antilinkHandler, inChat_of_ok _ hchat]
  by_cases hc : chatId.truthy
  · cases args with
    | nil => exact ⟨false, by simp [hc]⟩
    | cons word rest =>
        refine ⟨env.unicode.lower word == "on", ?_⟩
        simp only [hc, if_true, true_and, ne_eq, reduceCtorEq, not_false_eq_true]
        exact flagWrites_setGroupFlag_bind
          (fun _ => sendMessage_leaves configuration_overlooks _ _ _) _ _ _
  · exact ⟨false, by simp [hc]⟩

/-- What a toggle records. -/
theorem flagWrites_togglePanel (chatId : PyVal) (key : Flag) (callback : PyVal) :
    ∃ value, (togglePanel env chatId key callback w).2.flagWrites =
      w.flagWrites ++ if bindable chatId then [⟨chatId, key, value⟩] else [] := by
  cases hgroup : w.rules.getGroup chatId with
  | ok settings =>
      refine ⟨!settings.flag key, ?_⟩
      have hread : getGroup chatId w = (.ok settings, w) := congrArg (·, w) hgroup
      rw [togglePanel, Effect.bind_of_ok hread]
      refine flagWrites_setGroupFlag_bind (fun _ => ?_) _ _ _
      exact (sendMessage_leaves configuration_overlooks _ _ _).bind fun _ =>
        refreshPanel_leaves configuration_overlooks _ _
  | error e =>
      have hread : getGroup chatId w = (.error e, w) := congrArg (·, w) hgroup
      have hnot : bindable chatId = false := by
        unfold bindable
        cases hsql : sqlText chatId with
        | error e' => rfl
        | ok t =>
            obtain ⟨settings, hok⟩ := w.rules.exists_getGroup_of_sqlText hsql
            cases hgroup.symm.trans hok
      rw [togglePanel, Effect.bind_of_error hread, hnot]
      exact ⟨false, (List.append_nil _).symm⟩

/-- What the panel records. -/
theorem flagWrites_panelPlugin_of_toggle {chatId callback : PyVal} {key : Flag}
    (h : panelRequest update = .ok (some (.toggle chatId key callback))) :
    ∃ value, (panelPlugin env ctx update w).2.flagWrites =
      w.flagWrites ++ if bindable chatId then [⟨chatId, key, value⟩] else [] := by
  have hrun : panelPlugin env ctx update w =
      (do servePanel env (.toggle chatId key callback); return true : BotM Bool) w :=
    Effect.bind_of_ok (congrArg (·, w) h)
  rw [hrun, Effect.bind_pure_snd]
  exact flagWrites_togglePanel env w chatId key callback

/-- Nothing, if no toggle is pressed. -/
theorem configuration_panelPlugin
    (h : ∀ chatId key callback, panelRequest update ≠ .ok (some (.toggle chatId key callback))) :
    configuration (panelPlugin env ctx update w).2 = configuration w := by
  cases hrequest : panelRequest update with
  | error e =>
      have hrun : panelPlugin env ctx update w = (.error e, w) :=
        Effect.bind_of_error (congrArg (·, w) hrequest)
      rw [hrun]
  | ok request =>
      cases request with
      | none =>
          have hrun : panelPlugin env ctx update w = (.ok false, w) :=
            Effect.bind_of_ok (congrArg (·, w) hrequest)
          rw [hrun]
      | some request =>
          have hrun : panelPlugin env ctx update w =
              (do servePanel env request; return true : BotM Bool) w :=
            Effect.bind_of_ok (congrArg (·, w) hrequest)
          rw [hrun, Effect.bind_pure_snd]
          refine servePanel_leaves configuration_overlooks (fun chatId key callback htoggle => ?_) w
          exact h chatId key callback (htoggle ▸ hrequest)

end Writers

/-! ## who writes -/

section Tail

variable {env : Env} {ctx : Context} {update : PyVal} {w : World}

/-- A senderless `/antilink` is run. -/
theorem SenderlessAntilink.invoked (h : SenderlessAntilink env update) (ctx : Context)
    (rules : Rules) :
    ∃ inv, commandVerdict env ctx startupRegistry rules update = .ok (.invoked inv) := by
  obtain ⟨inv, chatId, senderId, hrequested, -, -, hchat, -, -, hsender, hnone⟩ := h
  refine ⟨inv, commandVerdict_eq_invoked.mpr ⟨hrequested, chatId, senderId, hchat, hsender, ?_⟩⟩
  intro _ _ hs
  rw [hnone] at hs
  cases hs

/-- With no command to run, the panel decides. -/
theorem secure_iff_of_ignored (hw : w.flagWrites = [])
    (h : commandVerdict env ctx startupRegistry w.rules update = .ok .ignored) :
    (∀ write ∈ (dispatch env ctx update lastPlugins w).2.flagWrites,
      HasAuthority ctx w.rules update write.chatId) ↔ ¬ ForeignToggle env ctx w.rules update := by
  have hrequested := commandVerdict_eq_ignored.mp h
  rw [lastPlugins, dispatch_of_passed (commandsPlugin_of_ignored h), dispatch_singleton]
  by_cases htoggle : ∃ chatId key callback,
      panelRequest update = .ok (some (.toggle chatId key callback))
  · obtain ⟨chatId, key, callback, hrequest⟩ := htoggle
    obtain ⟨value, hwrites⟩ := flagWrites_panelPlugin_of_toggle env ctx w hrequest
    rw [hwrites, hw, List.nil_append]
    constructor
    · intro hsecure hforeign
      obtain ⟨-, chatId', key', callback', hrequest', hbound, hno⟩ := hforeign
      cases hrequest.symm.trans hrequest'
      rw [if_pos hbound] at hsecure
      exact hno (hsecure _ (List.mem_singleton.mpr rfl))
    · intro hforeign write hwrite
      split at hwrite
      · next hbound =>
          cases List.mem_singleton.mp hwrite
          by_contra hno
          exact hforeign ⟨hrequested, chatId, key, callback, hrequest, hbound, hno⟩
      · cases hwrite
  · have hconf := configuration_panelPlugin env ctx w fun chatId key callback hrequest =>
      htoggle ⟨chatId, key, callback, hrequest⟩
    have hwrites : (panelPlugin env ctx update w).2.flagWrites = w.flagWrites :=
      congrArg (·.2.2) hconf
    rw [hwrites, hw]
    constructor
    · intro _ hforeign
      obtain ⟨-, chatId, key, callback, hrequest, -⟩ := hforeign
      exact htoggle ⟨chatId, key, callback, hrequest⟩
    · exact fun _ => nofun

/-- What `/antilink` configures, it configures with authority, unless the message
has no sender. -/
theorem secure_iff_of_antilink {inv : Invocation} (hw : w.flagWrites = [])
    (h : commandVerdict env ctx startupRegistry w.rules update = .ok (.invoked inv))
    (hname : inv.command.name = "antilink") :
    (∀ write ∈ (inv.command.handler env ctx inv.message inv.args w).2.flagWrites,
      HasAuthority ctx w.rules update write.chatId) ↔ ¬ SenderlessAntilink env update := by
  obtain ⟨hrequested, chatId, senderId, hchat, hsender, hmay⟩ := commandVerdict_eq_invoked.mp h
  obtain ⟨hmem, hmessage⟩ := requestedCommand_eq_some hrequested
  obtain ⟨hhandler, hadmin⟩ := startupRegistry_antilink inv.command hmem hname
  obtain ⟨value, hwrites⟩ := flagWrites_antilinkHandler env ctx w hchat inv.args
  rw [hhandler, hwrites, hw, List.nil_append]
  constructor
  · intro hsecure hsenderless
    obtain ⟨inv', chatId', senderId', hrequested', -, hargs, hchat', hc, hbound, hsender', hnone⟩ :=
      hsenderless
    cases hrequested.symm.trans hrequested'
    cases hchat.symm.trans hchat'
    cases hsender.symm.trans hsender'
    rw [if_pos ⟨hc, hargs, hbound⟩] at hsecure
    obtain ⟨message, senderId', hmessage', hsender', hs, -⟩ :=
      hsecure _ (List.mem_singleton.mpr rfl)
    cases hmessage.symm.trans hmessage'
    cases hsender.symm.trans hsender'
    rw [hnone] at hs
    cases hs
  · intro hsenderless write hwrite
    split at hwrite
    · next hcond =>
        cases List.mem_singleton.mp hwrite
        have hs : senderId.truthy := by
          by_contra hnone
          exact hsenderless ⟨inv, chatId, senderId, hrequested, hname, hcond.2.1, hchat, hcond.1,
            hcond.2.2, hsender, Bool.eq_false_of_not_eq_true hnone⟩
        exact ⟨inv.message, senderId, hmessage, hsender, hs,
          Rules.mayCommand_iff.mp (hmay hadmin hcond.1 hs)⟩
    · cases hwrite

/-- What a dispatch that reaches `CommandsPlugin` configures, it configures with
authority, unless by one of the two ways. -/
theorem secure_iff_of_reaches (hw : w.flagWrites = []) :
    (∀ write ∈ (dispatch env ctx update lastPlugins w).2.flagWrites,
      HasAuthority ctx w.rules update write.chatId) ↔
      ¬ (SenderlessAntilink env update ∨ ForeignToggle env ctx w.rules update) := by
  have hinvoked : SenderlessAntilink env update →
      ∃ inv, commandVerdict env ctx startupRegistry w.rules update = .ok (.invoked inv) :=
    fun h => h.invoked ctx w.rules
  have hignored : ForeignToggle env ctx w.rules update →
      commandVerdict env ctx startupRegistry w.rules update = .ok .ignored :=
    fun h => commandVerdict_eq_ignored.mpr h.1
  -- nothing is written, by neither of the two ways
  have hquiet (hs : ¬ SenderlessAntilink env update) (hf : ¬ ForeignToggle env ctx w.rules update)
      (hconf : configuration (dispatch env ctx update lastPlugins w).2 = configuration w) :
      (∀ write ∈ (dispatch env ctx update lastPlugins w).2.flagWrites,
        HasAuthority ctx w.rules update write.chatId) ↔
        ¬ (SenderlessAntilink env update ∨ ForeignToggle env ctx w.rules update) := by
    have hwrites : (dispatch env ctx update lastPlugins w).2.flagWrites = [] :=
      (congrArg (·.2.2) hconf).trans hw
    rw [hwrites]
    exact iff_of_true nofun (not_or.mpr ⟨hs, hf⟩)
  cases hverdict : commandVerdict env ctx startupRegistry w.rules update with
  | error e =>
      rw [hverdict] at hinvoked hignored
      have hrun := commandsPlugin_of_error hverdict
      refine hquiet (fun h => ?_) (fun h => ?_) ?_
      · obtain ⟨inv, hinv⟩ := hinvoked h
        cases hinv
      · cases hignored h
      · rw [lastPlugins, dispatch_of_stopped (by rw [hrun]; exact nofun), hrun]
  | ok verdict =>
      rw [hverdict] at hinvoked hignored
      cases verdict with
      | ignored =>
          rw [secure_iff_of_ignored hw hverdict, not_or]
          refine (and_iff_right fun h => ?_).symm
          obtain ⟨inv, hinv⟩ := hinvoked h
          cases hinv
      | denied chatId =>
          obtain ⟨hstate, hstop⟩ := commandsPlugin_of_denied hverdict
          refine hquiet (fun h => ?_) (fun h => ?_) ?_
          · obtain ⟨inv, hinv⟩ := hinvoked h
            cases hinv
          · cases hignored h
          · rw [lastPlugins, dispatch_of_stopped hstop, hstate]
            exact sendMessage_leaves configuration_overlooks _ _ _ w
      | invoked inv =>
          obtain ⟨hstate, hstop⟩ := commandsPlugin_of_invoked hverdict
          have hf : ¬ ForeignToggle env ctx w.rules update := fun h => by cases hignored h
          by_cases hname : inv.command.name = "antilink"
          · rw [lastPlugins, dispatch_of_stopped hstop, hstate,
              secure_iff_of_antilink hw hverdict hname, not_or]
            exact (and_iff_left hf).symm
          · have hrequested := (commandVerdict_eq_invoked.mp hverdict).1
            refine hquiet (fun h => ?_) hf ?_
            · obtain ⟨inv', _, _, hrequested', hname', -⟩ := h
              cases hrequested.symm.trans hrequested'
              exact hname hname'
            · rw [lastPlugins, dispatch_of_stopped hstop, hstate]
              exact startupRegistry_leaves configuration_overlooks inv.command
                (requestedCommand_eq_some hrequested).1 hname env ctx inv.message inv.args w

end Tail

/-! ## what a write leaves a record of -/

/-- A chat with settings other than in `groups` has a `set_group_flag` recorded. -/
def Recorded (groups : Groups) (w : World) : Prop :=
  ∀ chat, (∃ write ∈ w.flagWrites, sqlText write.chatId = .ok (some chat)) ∨
    w.rules.groups.settings chat = groups.settings chat

section Recorded

variable {env : Env} {ctx : Context} {update : PyVal} {groups : Groups}

/-- What leaves the configuration alone keeps the record complete. -/
theorem recorded_of_leaves {α : Type} {m : BotM α} (h : Effect.Leaves configuration m) :
    Effect.Preserves (Recorded groups) m := by
  refine h.preserves fun w w' hconf hw chat => ?_
  have hgroups : w'.rules.groups = w.rules.groups := congrArg (·.1) hconf
  have hwrites : w'.flagWrites = w.flagWrites := congrArg (·.2.2) hconf
  rw [hgroups, hwrites]
  exact hw chat

/-- A flag that is written is recorded. -/
theorem setGroupFlag_recorded (chatId : PyVal) (key : Flag) (value : Bool) :
    Effect.Preserves (Recorded groups) (setGroupFlag chatId key value) := by
  intro w hw chat
  obtain ⟨e, -, hraises⟩ | ⟨rules, hrules, hwrites⟩ := setGroupFlag_apply chatId key value w
  · rw [hraises]
    exact hw chat
  · rw [hwrites]
    obtain ⟨t, hsql, -, hothers⟩ := Rules.setGroupFlag_eq_ok hrules
    by_cases ht : t = some chat
    · refine .inl ⟨_, List.mem_append_right _ (List.mem_singleton.mpr rfl), ?_⟩
      rw [hsql, ht]
    · obtain ⟨write, hmem, hwrite⟩ | hsame := hw chat
      · exact .inl ⟨write, List.mem_append_left _ hmem, hwrite⟩
      · exact .inr ((hothers chat ht).trans hsame)

/-- So `/antilink` writes nothing in secret. -/
theorem antilinkHandler_recorded (message : PyVal) (args : List String) :
    Effect.Preserves (Recorded groups) (antilinkHandler env ctx message args) := by
  refine (recorded_of_leaves (Effect.leaves_lift _ _)).bind fun chatId => ?_
  split
  · cases args with
    | nil => exact Effect.preserves_pure _ _
    | cons word rest =>
        refine (setGroupFlag_recorded _ _ _).bind fun _ => ?_
        exact recorded_of_leaves (sendMessage_leaves configuration_overlooks _ _ _)
  · exact Effect.preserves_pure _ _

/-- Nor does any command. -/
theorem commandsPlugin_recorded :
    Effect.Preserves (Recorded groups) (commandsPlugin startupRegistry env ctx update) := by
  refine commandsPlugin_preserves
    (fun _ => recorded_of_leaves (sendMessage_leaves configuration_overlooks _ _ _))
    fun command hmem message args => ?_
  by_cases hname : command.name = "antilink"
  · rw [(startupRegistry_antilink command hmem hname).1]
    exact antilinkHandler_recorded message args
  · exact recorded_of_leaves
      (startupRegistry_leaves configuration_overlooks command hmem hname env ctx message args)

/-- Nor the panel. -/
theorem panelPlugin_recorded :
    Effect.Preserves (Recorded groups) (panelPlugin env ctx update) := by
  refine panelPlugin_preserves fun request => ?_
  cases request with
  | toggle chatId key callback =>
      refine (recorded_of_leaves (Effect.leaves_query _ _)).bind fun settings => ?_
      refine (setGroupFlag_recorded _ _ _).bind fun _ => recorded_of_leaves ?_
      exact (sendMessage_leaves configuration_overlooks _ _ _).bind fun _ =>
        refreshPanel_leaves configuration_overlooks _ _
  | _ => exact recorded_of_leaves (servePanel_leaves configuration_overlooks nofun)

/-- Settings that a dispatch changes have been written by a recorded call. -/
theorem dispatch_recorded :
    Effect.Preserves (Recorded groups) (dispatch env ctx update startupPlugins) := by
  refine dispatch_preserves ?_
  simp only [startupPlugins, List.forall_mem_cons]
  exact ⟨recorded_of_leaves (incomingSnapshotPlugin_leaves configuration_overlooks),
    recorded_of_leaves messageLoggingPlugin_configuration,
    recorded_of_leaves (antiLinkPlugin_leaves configuration_overlooks),
    recorded_of_leaves (antiFloodPlugin_leaves configuration_overlooks),
    recorded_of_leaves (filterWordsPlugin_leaves configuration_overlooks),
    commandsPlugin_recorded, panelPlugin_recorded, List.forall_mem_nil _⟩

end Recorded

/-! ## the chain -/

/-- The two ways in which a dispatch is not secure, once the plugins before have let it through.
-/
theorem secure_iff_of_dispatch (env : Env) (ctx : Context) (update : PyVal) (w : World) :
    Secure env ctx update w ↔
      ¬ (Reaches env ctx update w ∧
        (SenderlessAntilink env update ∨ ForeignToggle env ctx w.rules update)) := by
  obtain ⟨hreaches, w', hrules, hwrites, heq⟩ | ⟨hno, hconf⟩ :=
    dispatch_startup env ctx update { w with flagWrites := [] }
  · have hreaches' : Reaches env ctx update w :=
      ⟨hreaches.stored, hreaches.logged, hreaches.noLink, hreaches.noFlood, hreaches.noBadWord⟩
    rw [Secure, dispatched, heq, show w.rules = w'.rules from hrules.symm,
      secure_iff_of_reaches hwrites, not_and]
    exact ⟨fun h _ => h, fun h => h hreaches'⟩
  · have hno' : ¬ Reaches env ctx update w := fun h =>
      hno ⟨h.stored, h.logged, h.noLink, h.noFlood, h.noBadWord⟩
    have hwrites : (dispatched env ctx update w).flagWrites = [] := congrArg (·.2.2) hconf
    rw [Secure, hwrites]
    exact iff_of_true nofun fun h => hno' h.1

/-- **Moderation settings.**  For every update, context and state: whatever a
dispatch through the startup chain configures, the sender has authority over its
chat, if and only if the update does not get past the moderation to one of the
two ways around it.  And a chat's settings change by recorded writes only. -/
theorem secure_iff (env : Env) (ctx : Context) (update : PyVal) (w : World) :
    (Secure env ctx update w ↔
      ¬ (Reaches env ctx update w ∧
        (SenderlessAntilink env update ∨ ForeignToggle env ctx w.rules update))) ∧
      ∀ chat, (dispatched env ctx update w).rules.groups.settings chat ≠
          w.rules.groups.settings chat →
        ∃ write ∈ (dispatched env ctx update w).flagWrites,
          sqlText write.chatId = .ok (some chat) := by
  refine ⟨secure_iff_of_dispatch env ctx update w, fun chat hchanged => ?_⟩
  have hstart : Recorded w.rules.groups { w with flagWrites := [] } := fun _ => .inr rfl
  exact (dispatch_recorded _ hstart chat).resolve_right hchanged

/-- A press of the link toggle for `chat`, by `user`. -/
def strangersPress : PyVal :=
  .dict [("message", .dict [("sender", .dict [("id", .str "user")])]),
    ("callback_query", .dict [("chat_id", .str "chat"), ("data", .str "panel:anti_link")])]

/-- One chat, with the settings it is inserted with, and nobody an admin. -/
def oneChat : World := { rules := { groups := (∅ : Groups).insert "chat" {} } }

/-- Somebody who is neither the owner nor an admin turns the link filter of a
chat off. -/
theorem strangersPress_not_secure :
    ¬ Secure .plain { ownerId := some "owner" } strangersPress oneChat ∧
      (oneChat.rules.groups.settings "chat").antiLink = true ∧
      ((dispatched .plain { ownerId := some "owner" } strangersPress
        oneChat).rules.groups.settings "chat").antiLink = false := by
  refine ⟨fun hsecure => ?_, by decide +kernel, by decide +kernel⟩
  have hwrites : (dispatched .plain { ownerId := some "owner" } strangersPress oneChat).flagWrites =
      [⟨.str "chat", .antiLink, false⟩] := rfl
  rw [Secure, hwrites] at hsecure
  obtain ⟨message, senderId, hmessage, hsender, -, hprivileged⟩ :=
    hsecure _ (List.mem_singleton.mpr rfl)
  cases hmessage
  cases hsender
  revert hprivileged
  decide +kernel

end RubicaBot
