import RubicaBot.Plugins.Moderation
import RubicaBot.Plugins.Commands

/-!
# RubicaBot.Plugins.Privilege

Whether the moderation plugins spare those whom `CommandsPlugin` obeys.

`CommandsPlugin` lets the owner and the admins of a chat command; the three
moderation plugins exempt the admins only.  Each of them acts on a message if the
sender is no admin and the message triggers it, so a privileged sender is spared
by all three exactly if they are an admin or trigger none (`spared_iff`).
-/

namespace RubicaBot

open Py BotM

section Message

variable {message chatId : PyVal}

/-- A message with a chat is not empty. -/
theorem truthy_of_getChatId (hchat : getChatId message = .ok chatId) (htruthy : chatId.truthy) :
    message.truthy := by
  by_contra hm
  have hnone : getChatId message = .ok .none := if_neg hm
  cases hnone.symm.trans hchat
  cases htruthy

/-- The id of a message can be read, if that of its chat can. -/
theorem exists_messageId_of_getChatId (hchat : getChatId message = .ok chatId)
    (htruthy : chatId.truthy) : ∃ messageId, getMessageId message = .ok messageId := by
  have hm := truthy_of_getChatId hchat htruthy
  rw [getChatId, getIdOf, if_pos hm] at hchat
  obtain ⟨container, hget, -⟩ := Effect.exists_of_bind_eq_ok hchat
  obtain ⟨entries, hentries⟩ := PyVal.exists_dict_of_get hget
  subst hentries
  unfold getMessageId PyVal.orElse
  rw [if_pos hm]
  cases hfirst : PyVal.get (.dict entries) "message_id" with
  | error e => cases hfirst
  | ok first =>
      by_cases hf : first.truthy
      · exact ⟨first, if_pos hf⟩
      · exact ⟨_, if_neg hf⟩

end Message

/-- An update with a message that names its chat and its sender. -/
structure Carries (update message chatId senderId : PyVal) : Prop where
  extracted : extractMessage update = .ok message
  inChat : getChatId message = .ok chatId
  sentBy : getSenderId message = .ok senderId
  chatTruthy : chatId.truthy
  senderTruthy : senderId.truthy

namespace Carries

variable {update message chatId senderId : PyVal}

/-- Nor is one that carries its ids. -/
theorem messageTruthy (h : Carries update message chatId senderId) : message.truthy :=
  truthy_of_getChatId h.inChat h.chatTruthy

/-- The message's own id can be read too. -/
theorem exists_messageId (h : Carries update message chatId senderId) :
    ∃ messageId, getMessageId message = .ok messageId :=
  exists_messageId_of_getChatId h.inChat h.chatTruthy

/-- An update carries one message, of one sender in one chat. -/
theorem unique {message' chatId' senderId' : PyVal} (h : Carries update message chatId senderId)
    (h' : Carries update message' chatId' senderId') :
    message = message' ∧ chatId = chatId' ∧ senderId = senderId' := by
  cases h.extracted.symm.trans h'.extracted
  cases h.inChat.symm.trans h'.inChat
  cases h.sentBy.symm.trans h'.sentBy
  exact ⟨rfl, rfl, rfl⟩

end Carries

/-! ## what triggers a plugin -/

/-- The chat is of a moderated type with `anti_link` on, and the text has a link. -/
def LinkTrigger (env : Env) (rules : Rules) (message chatId : PyVal) : Prop :=
  ∃ chat chatType settings text, message.get "chat" = .ok chat ∧
    (chat.or .emptyDict).get "type" = .ok chatType ∧ isModeratedType chatType = .ok true ∧
    rules.getGroup chatId = .ok settings ∧ settings.antiLink ∧
    getText message = .ok text ∧ containsLink env.unicode text = .ok true

/-- The chat has `anti_flood` on, and the message exceeds its limit. -/
def FloodTrigger (env : Env) (w : World) (message chatId senderId : PyVal) : Prop :=
  ∃ settings, w.rules.getGroup chatId = .ok settings ∧ settings.antiFlood ∧
    FloodSubject.exceeds env w.floodEvents
      { message, chatId, senderId, floodLimit := settings.floodLimit }

/-- The chat has `anti_badwords` on, and its filters condemn the text. -/
def WordTrigger (env : Env) (rules : Rules) (message chatId : PyVal) : Prop :=
  ∃ settings text filters, rules.getGroup chatId = .ok settings ∧ settings.antiBadwords ∧
    getText message = .ok text ∧ rules.listFilters chatId = .ok filters ∧
    filterVerdict env (text.or (.str "")) false filters = .ok true

section Decisions

variable {env : Env} {rules : Rules} {update message chatId senderId : PyVal}

/-- Whoever has an id is exempt as an admin. -/
theorem isExempt_eq (h : Carries update message chatId senderId) :
    rules.isExempt chatId senderId = rules.isAdmin chatId senderId := if_pos h.senderTruthy

/-- `AntiLinkPlugin` acts on what triggers it, unless the sender is an admin. -/
theorem exists_antiLinkOffence_iff (h : Carries update message chatId senderId) :
    (∃ o, antiLinkOffence env rules update = .ok (some o)) ↔
      rules.isAdmin chatId senderId = .ok false ∧ LinkTrigger env rules message chatId := by
  obtain ⟨messageId, hid⟩ := h.exists_messageId
  simp only [antiLinkOffence, Effect.bind_eq_ok_iff, Effect.ite_none_eq_some_iff,
    Effect.ite_not_none_eq_some_iff, h.extracted, h.inChat, h.sentBy, h.messageTruthy,
    h.chatTruthy, isExempt_eq h, hid, Except.ok.injEq, exists_eq_left', true_and]
  constructor
  · intro hacts
    obtain ⟨o, chat, hget, chatType, htype, moderated, hmoderated, hm, settings, hgroup, hon, admin,
      hadmin, hna, text, htext, link, hlink, hl, -⟩ := hacts
    subst hm hl
    rw [Bool.eq_false_of_not_eq_true hna] at hadmin
    exact
      ⟨hadmin, chat, chatType, settings, text, hget, htype, hmoderated, hgroup, hon, htext, hlink⟩
  · intro htriggers
    obtain ⟨hadmin, chat, chatType, settings, text, hget, htype, hmoderated, hgroup, hon, htext,
      hlink⟩ := htriggers
    exact ⟨_, chat, hget, chatType, htype, true, hmoderated, rfl, settings, hgroup, hon, false,
      hadmin, Bool.false_ne_true, text, htext, true, hlink, rfl, rfl⟩

/-- `AntiFloodPlugin` acts on what triggers it, unless the sender is an admin. -/
theorem exists_exceeding_iff {w : World} (h : Carries update message chatId senderId) :
    (∃ s, antiFloodSubject w.rules update = .ok (some s) ∧ s.exceeds env w.floodEvents) ↔
      w.rules.isAdmin chatId senderId = .ok false ∧
        FloodTrigger env w message chatId senderId := by
  simp only [antiFloodSubject, Effect.bind_eq_ok_iff, Effect.ite_none_eq_some_iff,
    Effect.ite_not_none_eq_some_iff, h.extracted, h.inChat, h.sentBy, h.messageTruthy,
    h.chatTruthy, h.senderTruthy, Bool.and_self, Except.ok.injEq, exists_eq_left', true_and]
  constructor
  · intro hacts
    obtain ⟨s, ⟨settings, hgroup, hon, admin, hadmin, hna, hs⟩, hexceeds⟩ := hacts
    cases hs
    rw [Bool.eq_false_of_not_eq_true hna] at hadmin
    exact ⟨hadmin, settings, hgroup, hon, hexceeds⟩
  · intro htriggers
    obtain ⟨hadmin, settings, hgroup, hon, hexceeds⟩ := htriggers
    exact ⟨_, ⟨settings, hgroup, hon, false, hadmin, Bool.false_ne_true, rfl⟩, hexceeds⟩

/-- `FilterWordsPlugin` acts on what triggers it, unless the sender is an admin. -/
theorem exists_filterOffence_iff (h : Carries update message chatId senderId) :
    (∃ o, filterOffence env rules update = .ok (some o)) ↔
      rules.isAdmin chatId senderId = .ok false ∧ WordTrigger env rules message chatId := by
  obtain ⟨messageId, hid⟩ := h.exists_messageId
  simp only [filterOffence, filterOffenceWith, Effect.bind_eq_ok_iff, Effect.ite_none_eq_some_iff,
    Effect.ite_not_none_eq_some_iff, h.extracted, h.inChat, h.sentBy, h.messageTruthy,
    h.chatTruthy, isExempt_eq h, hid, Except.ok.injEq, exists_eq_left', true_and]
  constructor
  · intro hacts
    obtain ⟨o, settings, hgroup, hon, admin, hadmin, hna, text, htext, filters, hfilters, -,
      verdict, hverdict, hv, -⟩ := hacts
    subst hv
    rw [Bool.eq_false_of_not_eq_true hna] at hadmin
    exact ⟨hadmin, settings, text, filters, hgroup, hon, htext, hfilters, hverdict⟩
  · intro htriggers
    obtain ⟨hadmin, settings, text, filters, hgroup, hon, htext, hfilters, hverdict⟩ := htriggers
    have hne : filters ≠ [] := by
      intro hnil
      rw [hnil] at hverdict
      cases hverdict
    exact ⟨_, settings, hgroup, hon, false, hadmin, Bool.false_ne_true, text, htext, filters,
      hfilters, hne, true, hverdict, rfl, rfl⟩

/-- The sender an offence names is the sender of the message. -/
theorem antiLinkOffence_senderId (h : Carries update message chatId senderId) {o : Offence}
    (ho : antiLinkOffence env rules update = .ok (some o)) : o.senderId = senderId := by
  simp only [antiLinkOffence, Effect.bind_eq_ok_iff, Effect.ite_none_eq_some_iff,
    Effect.ite_not_none_eq_some_iff, h.extracted, h.inChat, h.sentBy, h.messageTruthy,
    h.chatTruthy, Except.ok.injEq, exists_eq_left', true_and] at ho
  obtain ⟨_, -, _, -, _, -, -, _, -, -, _, -, -, _, -, _, -, -, _, -, ho⟩ := ho
  cases ho
  rfl

/-- The message `AntiFloodPlugin` counts is the update's. -/
theorem antiFloodSubject_message (h : Carries update message chatId senderId) {s : FloodSubject}
    (hs : antiFloodSubject rules update = .ok (some s)) : s.message = message := by
  simp only [antiFloodSubject, Effect.bind_eq_ok_iff, Effect.ite_none_eq_some_iff,
    Effect.ite_not_none_eq_some_iff, h.extracted, h.inChat, h.sentBy, h.messageTruthy,
    h.chatTruthy, h.senderTruthy, Bool.and_self, Except.ok.injEq, exists_eq_left', true_and] at hs
  obtain ⟨_, -, -, _, -, -, hs⟩ := hs
  cases hs
  rfl

end Decisions

/-! ## what a plugin does about it -/

/-- The number of deletions and bans requested so far. -/
def punishments (w : World) : Nat := w.apiCalls.countP ApiCall.isPunishment

/-- The plugin lets the update pass, or raises, and deletes and bans nothing. -/
def Spares (plugin : Plugin) (env : Env) (ctx : Context) (update : PyVal) (w : World) : Prop :=
  (plugin env ctx update w).1 ≠ .ok true ∧
    punishments (plugin env ctx update w).2 = punishments w

section Acts

variable {env : Env} {ctx : Context} {w : World} {update message chatId senderId : PyVal}

/-- No call takes a punishment back. -/
theorem callApi_preserves_lt (n : Nat) (call : ApiCall) :
    Effect.Preserves (fun w => n < punishments w) (callApi env call) := by
  intro w hw
  show n < List.countP _ (w.apiCalls ++ [call])
  rw [List.countP_append]
  exact Nat.lt_add_right _ hw

theorem sendMessage_preserves_lt (n : Nat) (chatId : PyVal) (text : String) :
    Effect.Preserves (fun w => n < punishments w) (sendMessage env chatId text) :=
  (callApi_preserves_lt n _).bind fun _ => Effect.preserves_pure _ _

theorem banChatMember_preserves_lt (n : Nat) (chatId userId : PyVal) :
    Effect.Preserves (fun w => n < punishments w) (banChatMember env chatId userId) :=
  (callApi_preserves_lt n _).bind fun _ => Effect.preserves_pure _ _

/-- A deletion is a punishment. -/
theorem lt_punishments_deleteMessage (chatId messageId : PyVal) (w : World) :
    punishments w < punishments (deleteMessage env chatId messageId w).2 := by
  show _ < List.countP _ (w.apiCalls ++ [.deleteMessage chatId messageId])
  rw [List.countP_append]
  exact Nat.lt_succ_self _

/-- And so is a ban. -/
theorem lt_punishments_banChatMember (chatId userId : PyVal) (w : World) :
    punishments w < punishments (banChatMember env chatId userId w).2 := by
  rw [banChatMember, Effect.bind_pure_snd]
  show _ < List.countP _ (w.apiCalls ++ [.banChatMember chatId userId])
  rw [List.countP_append]
  exact Nat.lt_succ_self _

/-- A deletion or ban under a condition, and what comes after it: one of the two
punishes. -/
theorem lt_punishments_when {α β : Type} {c : Bool} {m : BotM α} {k : Unit → BotM β}
    (hm : punishments w < punishments (m w).2)
    (hk : Effect.Preserves (fun w' => punishments w < punishments w') (k ()))
    (hrest : c = false → punishments w < punishments (k () w).2) :
    punishments w < punishments ((Effect.when c m >>= k) w).2 := by
  cases c with
  | true =>
      refine Effect.bind_of_preserves ?_ fun _ => hk
      rw [Effect.when_true, Effect.bind_pure_snd]
      exact hm
  | false => exact hrest rfl

/-- A plugin that finds nothing to act on spares. -/
theorem actOn_spares {α : Type} (find : World → Except PyError (Option α)) (act : α → BotM Bool)
    (h : ¬ ∃ x, find w = .ok (some x)) :
    (actOn find act w).1 ≠ .ok true ∧ punishments (actOn find act w).2 = punishments w := by
  cases hfind : find w with
  | error e =>
      rw [actOn_of_error hfind]
      exact ⟨nofun, rfl⟩
  | ok found =>
      cases found with
      | none =>
          rw [actOn_of_none hfind]
          exact ⟨nofun, rfl⟩
      | some x => exact absurd ⟨x, hfind⟩ h

/-- A link is punished, and nothing else. -/
theorem antiLinkPlugin_spares_iff (h : Carries update message chatId senderId) :
    Spares antiLinkPlugin env ctx update w ↔
      ¬ ∃ o, antiLinkOffence env w.rules update = .ok (some o) := by
  constructor
  · intro hspares hfound
    obtain ⟨o, ho⟩ := hfound
    have hsender : o.senderId.truthy := (antiLinkOffence_senderId h ho).symm ▸ h.senderTruthy
    have hpunished : punishments w < punishments (antiLinkPlugin env ctx update w).2 := by
      rw [antiLinkPlugin, actOn_of_some ho]
      have hreport : Effect.Preserves (fun w' => punishments w < punishments w')
          (do
            Effect.when ctx.reportAntiActions (sendMessage env o.chatId linkNotice)
            return true : BotM Bool) :=
        ((sendMessage_preserves_lt _ _ _).when _).bind fun _ => Effect.preserves_pure _ _
      refine lt_punishments_when (lt_punishments_deleteMessage _ _ w) ?_ fun _ => ?_
      · exact ((banChatMember_preserves_lt _ _ _).when _).bind fun _ => hreport
      · refine lt_punishments_when (lt_punishments_banChatMember _ _ w) hreport fun hc => ?_
        rw [hsender] at hc
        cases hc
    exact hpunished.ne' hspares.2
  · exact actOn_spares (fun w => antiLinkOffence env w.rules update) _

/-- A flood is punished, and nothing else. -/
theorem antiFloodPlugin_spares_iff (h : Carries update message chatId senderId) :
    Spares antiFloodPlugin env ctx update w ↔
      ¬ ∃ s, antiFloodSubject w.rules update = .ok (some s) ∧ s.exceeds env w.floodEvents := by
  constructor
  · intro hspares hfound
    obtain ⟨s, hs, hexceeds⟩ := hfound
    obtain ⟨messageId, hid⟩ := h.exists_messageId
    rw [getMessageId, if_pos h.messageTruthy, ← antiFloodSubject_message h hs] at hid
    have hpunished : punishments w < punishments (antiFloodPlugin env ctx update w).2 := by
      rw [antiFloodPlugin, actOn_of_some hs, countMessage_of_exceeds hexceeds, punishFlood, hid]
      show punishments (w.recordFlood env s) < _
      refine lt_punishments_when (lt_punishments_deleteMessage _ _ _) ?_ fun _ => ?_
      · exact (banChatMember_preserves_lt _ _ _).bind fun _ => Effect.preserves_pure _ _
      · rw [Effect.bind_pure_snd]
        exact lt_punishments_banChatMember _ _ _
    exact hpunished.ne' hspares.2
  · intro hnone
    by_cases hfound : ∃ s, antiFloodSubject w.rules update = .ok (some s)
    · obtain ⟨s, hs⟩ := hfound
      have hexceeds : s.exceeds env w.floodEvents = false := by
        by_contra hne
        exact hnone ⟨s, hs, Bool.eq_true_of_not_eq_false hne⟩
      rw [Spares, antiFloodPlugin, actOn_of_some hs, countMessage_of_not_exceeds hexceeds]
      exact ⟨nofun, rfl⟩
    · exact actOn_spares (fun w => antiFloodSubject w.rules update) _ hfound

/-- A word is punished, and nothing else. -/
theorem filterWordsPlugin_spares_iff :
    Spares filterWordsPlugin env ctx update w ↔
      ¬ ∃ o, filterOffence env w.rules update = .ok (some o) := by
  constructor
  · intro hspares hfound
    obtain ⟨o, ho⟩ := hfound
    rw [Spares, filterWordsPlugin, filterWordsWith, actOn_of_some ho] at hspares
    cases hm : o.messageId.truthy with
    | false =>
        rw [hm] at hspares
        exact hspares.1 rfl
    | true =>
        rw [hm, Effect.bind_pure_snd, Effect.when_true, Effect.bind_pure_snd] at hspares
        exact (lt_punishments_deleteMessage _ _ w).ne' hspares.2
  · exact actOn_spares (fun w => filterOffence env w.rules update) _

end Acts

/-! ## who is spared -/

/-- Whether the sender is an admin has an answer, if the sender is the owner or
an admin and the settings of the chat can be read. -/
theorem isAdmin_eq_false_of_ne {ctx : Context} {rules : Rules} {chatId senderId : PyVal}
    {settings : GroupSettings} (hsender : senderId.truthy)
    (hmay : rules.mayCommand ctx chatId senderId = .ok true)
    (hgroup : rules.getGroup chatId = .ok settings)
    (hne : rules.isAdmin chatId senderId ≠ .ok true) :
    rules.isAdmin chatId senderId = .ok false := by
  have howner : ctx.isOwner senderId := (Rules.mayCommand_iff.mp hmay).resolve_right hne
  have hstr : ∃ owner, senderId = .str owner := by
    cases senderId with
    | str owner => exact ⟨owner, rfl⟩
    | none => cases hsender
    | _ =>
        cases hid : ctx.ownerId <;>
          simp [Context.isOwner, hid, PyVal.isStr, PyVal.isNone] at howner
  obtain ⟨owner, howner⟩ := hstr
  subst howner
  obtain ⟨b, hb⟩ := Rules.exists_isAdmin_of_getGroup hgroup owner
  cases b with
  | false => exact hb
  | true => exact absurd hb hne

/-- **Privileged senders.**  For every update that names a chat and a sender whom
`CommandsPlugin` obeys there, every state of the database and of the histories:
no moderation plugin deletes, bans or ends the dispatch, if and only if the
sender is an admin of the chat or the message triggers none of them. -/
theorem spared_iff {env : Env} {ctx : Context} {w : World} {update message chatId senderId : PyVal}
    (hcarries : Carries update message chatId senderId)
    (hmay : w.rules.mayCommand ctx chatId senderId = .ok true) :
    (∀ plugin ∈ [antiLinkPlugin, antiFloodPlugin, filterWordsPlugin],
      Spares plugin env ctx update w) ↔
      w.rules.isAdmin chatId senderId = .ok true ∨
        ¬ (LinkTrigger env w.rules message chatId ∨ FloodTrigger env w message chatId senderId ∨
          WordTrigger env w.rules message chatId) := by
  simp only [List.forall_mem_cons, List.not_mem_nil, false_implies, implies_true, and_true,
    antiLinkPlugin_spares_iff hcarries, antiFloodPlugin_spares_iff hcarries,
    filterWordsPlugin_spares_iff, exists_antiLinkOffence_iff hcarries,
    exists_exceeding_iff hcarries, exists_filterOffence_iff hcarries]
  constructor
  · intro hspared
    obtain ⟨hlink, hflood, hword⟩ := hspared
    by_cases hadmin : w.rules.isAdmin chatId senderId = .ok true
    · exact .inl hadmin
    · have hfalse : ∀ settings, w.rules.getGroup chatId = .ok settings →
          w.rules.isAdmin chatId senderId = .ok false := fun settings hgroup =>
        isAdmin_eq_false_of_ne hcarries.senderTruthy hmay hgroup hadmin
      refine .inr fun htriggered => ?_
      obtain htrigger | htrigger | htrigger := htriggered
      · obtain ⟨_, _, settings, _, -, -, -, hgroup, -⟩ := id htrigger
        exact hlink ⟨hfalse settings hgroup, htrigger⟩
      · obtain ⟨settings, hgroup, -⟩ := id htrigger
        exact hflood ⟨hfalse settings hgroup, htrigger⟩
      · obtain ⟨settings, _, _, hgroup, -⟩ := id htrigger
        exact hword ⟨hfalse settings hgroup, htrigger⟩
  · intro hspared
    obtain hadmin | hnone := hspared
    · rw [hadmin]
      exact ⟨nofun, nofun, nofun⟩
    · exact ⟨fun h => hnone (.inl h.2), fun h => hnone (.inr (.inl h.2)),
        fun h => hnone (.inr (.inr h.2))⟩

/-- A message with a link, in a group. -/
def linkFrom (sender : String) : PyVal :=
  .dict [("message", .dict
    [("message_id", .str "message"), ("sender", .dict [("id", .str sender)]),
      ("chat", .dict [("id", .str "chat"), ("type", .str "Group")]),
      ("text", .str "see t.me/channel")])]

/-- A database whose only row makes `"admin"` an admin of `"chat"`. -/
def oneAdmin : World := { rules := { admins := {("chat", "admin")} } }

/-- An admin's link is left alone. -/
theorem adminLink_spared :
    Spares antiLinkPlugin .plain {} (linkFrom "admin") oneAdmin ∧
      Spares antiFloodPlugin .plain {} (linkFrom "admin") oneAdmin ∧
      Spares filterWordsPlugin .plain {} (linkFrom "admin") oneAdmin := by
  have hcarries : Carries (linkFrom "admin") _ (.str "chat") (.str "admin") :=
    ⟨rfl, rfl, rfl, rfl, rfl⟩
  have hmay : oneAdmin.rules.mayCommand {} (.str "chat") (.str "admin") = .ok true := by
    decide +kernel
  have hspared := (@spared_iff .plain _ _ _ _ _ _ hcarries hmay).mpr (.inl (by decide +kernel))
  exact ⟨hspared _ (by simp), hspared _ (by simp), hspared _ (by simp)⟩

/-- The owner passes the check of `CommandsPlugin`; a link of theirs is removed,
and they are banned. -/
theorem ownerLink_not_spared :
    Rules.mayCommand {} { ownerId := some "owner" } (.str "chat") (.str "owner") = .ok true ∧
      ¬ Spares antiLinkPlugin .plain { ownerId := some "owner" } (linkFrom "owner")
        { rules := {} } ∧
      (antiLinkPlugin .plain { ownerId := some "owner" } (linkFrom "owner")
        { rules := {} }).2.apiCalls =
          [.deleteMessage (.str "chat") (.str "message"),
            .banChatMember (.str "chat") (.str "owner"),
            .sendMessage (.str "chat") linkNotice none] := by
  refine ⟨rfl, fun hspares => hspares.1 ?_, rfl⟩
  decide +kernel

end RubicaBot
