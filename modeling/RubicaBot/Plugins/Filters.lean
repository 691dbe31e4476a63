import RubicaBot.Plugins.Privilege

/-!
# RubicaBot.Plugins.Filters

The verdict of `FilterWordsPlugin` over a list of filters.

The loop returns early at a word of the whitelist and remembers a word of the
blacklist.  If every filter can be searched for in the text, neither depends on the
order: the text is condemned exactly if a filter of the blacklist hits and none of
the whitelist does (`filterVerdict_spec`).
-/

namespace RubicaBot

open Py BotM

/-- A filter of the blacklist hits the text and none of the whitelist does. -/
def Condemns (env : Env) (text : PyVal) (filters : List Filter) : Prop :=
  (∃ f ∈ filters, f.isWhitelist = false ∧ f.hits env text = .ok true) ∧
    ¬ ∃ f ∈ filters, f.isWhitelist = true ∧ f.hits env text = .ok true

section Verdict

variable {env : Env} {text : PyVal} {filters filters' : List Filter}

/-- In a text, a filter can be searched for if it is no regular expression that
cannot. -/
theorem exists_hits {f : Filter} {s : String}
    (hsearch : f.regexEnabled → ∃ b, env.reSearch f.word s = .ok b) :
    ∃ b, f.hits env (.str s) = .ok b := by
  unfold Filter.hits
  by_cases hregex : f.regexEnabled
  · rw [if_pos hregex]
    exact hsearch hregex
  · rw [if_neg hregex]
    exact ⟨_, rfl⟩

/-- The order of the filters does not matter. -/
theorem Condemns.perm (h : filters.Perm filters') :
    Condemns env text filters ↔ Condemns env text filters' := by
  simp only [Condemns, h.mem_iff]

/-- **The loop.**  By induction on the filters, for either value of the flag. -/
theorem filterVerdict_spec (htotal : ∀ f ∈ filters, ∃ b, f.hits env text = .ok b)
    (matchedBlacklist : Bool) :
    ∃ verdict, filterVerdict env text matchedBlacklist filters = .ok verdict ∧
      (verdict = true ↔
        (matchedBlacklist = true ∨
          ∃ f ∈ filters, f.isWhitelist = false ∧ f.hits env text = .ok true) ∧
        ¬ ∃ f ∈ filters, f.isWhitelist = true ∧ f.hits env text = .ok true) := by
  induction filters generalizing matchedBlacklist with
  | nil => exact ⟨matchedBlacklist, rfl, by simp⟩
  | cons f fs ih =>
      obtain ⟨hit, hhit⟩ := htotal f List.mem_cons_self
      have hrest := ih fun f' hf' => htotal f' (List.mem_cons_of_mem _ hf')
      cases hlist : f.isWhitelist with
      | true =>
          cases hit with
          | true =>
              -- the early return
              refine ⟨false, ?_, ?_⟩
              · rw [filterVerdict, hhit]
                simp only [hlist, if_true]
                rfl
              · simp [hlist, hhit]
          | false =>
              obtain ⟨verdict, hverdict, hiff⟩ := hrest matchedBlacklist
              refine ⟨verdict, ?_, ?_⟩
              · rw [← hverdict, filterVerdict, hhit]
                simp only [hlist, if_true]
                rfl
              · rw [hiff]
                simp [hlist, hhit]
      | false =>
          obtain ⟨verdict, hverdict, hiff⟩ := hrest (matchedBlacklist || hit)
          refine ⟨verdict, ?_, ?_⟩
          · rw [← hverdict, filterVerdict, hhit]
            simp only [hlist]
            rfl
          · rw [hiff]
            cases hit <;> simp [hlist, hhit]

end Verdict

/-! ## a message -/

/-- A message with this text, of a sender who is not exempt, in a chat with
`anti_badwords` on. -/
structure Filtered (rules : Rules) (update message chatId text : PyVal) : Prop where
  extracted : extractMessage update = .ok message
  inChat : getChatId message = .ok chatId
  chatTruthy : chatId.truthy
  guarded : ∃ settings, rules.getGroup chatId = .ok settings ∧ settings.antiBadwords
  notAdmin : ∃ senderId, getSenderId message = .ok senderId ∧
    rules.isExempt chatId senderId = .ok false
  hasText : getText message = .ok text

section Handle

variable {env : Env} {ctx : Context} {w : World} {update message chatId text : PyVal}
  {listFilters : Rules → PyVal → Except PyError (List Filter)} {filters filters' : List Filter}

/-- What the plugin finds to act on. -/
theorem filterOffenceWith_eq (h : Filtered w.rules update message chatId text)
    (hlist : listFilters w.rules chatId = .ok filters)
    (htotal : ∀ f ∈ filters, ∃ b, f.hits env (text.or (.str "")) = .ok b) :
    ∃ messageId senderId, getMessageId message = .ok messageId ∧
      (Condemns env (text.or (.str "")) filters →
        filterOffenceWith env (listFilters w.rules) w.rules update =
          .ok (some { chatId, messageId, senderId })) ∧
      (¬ Condemns env (text.or (.str "")) filters →
        filterOffenceWith env (listFilters w.rules) w.rules update = .ok none) := by
  obtain ⟨settings, hgroup, hon⟩ := h.guarded
  obtain ⟨senderId, hsender, hexempt⟩ := h.notAdmin
  obtain ⟨messageId, hid⟩ := exists_messageId_of_getChatId h.inChat h.chatTruthy
  obtain ⟨verdict, hverdict, hiff⟩ := filterVerdict_spec htotal false
  have hmessage := truthy_of_getChatId h.inChat h.chatTruthy
  have hcondemns : Condemns env (text.or (.str "")) filters ↔ verdict = true := by
    rw [hiff, Condemns]
    simp
  refine ⟨messageId, senderId, hid, fun hcondemned => ?_, fun hclear => ?_⟩
  · have hne : filters ≠ [] := by
      obtain ⟨⟨f, hf, -⟩, -⟩ := hcondemned
      exact List.ne_nil_of_mem hf
    have htrue := hcondemns.mp hcondemned
    simp [filterOffenceWith, h.extracted, hmessage, h.inChat, h.chatTruthy, hgroup, hon, hsender,
      hexempt, h.hasText, hlist, hne, hverdict, htrue, hid, bind, Except.bind, pure, Except.pure]
  · have hfalse : verdict = false := by
      by_contra hne
      exact hclear (hcondemns.mpr (Bool.eq_true_of_not_eq_false hne))
    simp [filterOffenceWith, h.extracted, hmessage, h.inChat, h.chatTruthy, hgroup, hon, hsender,
      hexempt, h.hasText, hlist, hverdict, hfalse, bind, Except.bind, pure, Except.pure]

/-- The deletion is asked for, and `True` is returned if the client returns. -/
theorem deleteThen_spec (env : Env) (chatId messageId : PyVal) (w : World) :
    (ClientReturns env →
      ((do
        Effect.when true (deleteMessage env chatId messageId)
        return true : BotM Bool) w).1 = .ok true) ∧
      ((do
        Effect.when true (deleteMessage env chatId messageId)
        return true : BotM Bool) w).2 =
        { w with apiCalls := w.apiCalls ++ [.deleteMessage chatId messageId] } := by
  constructor
  · intro hreturns
    obtain ⟨v, hv⟩ := hreturns w.apiCalls.length (.deleteMessage chatId messageId)
    have hcall := callApi_apply env (.deleteMessage chatId messageId) w
    rw [hv] at hcall
    have hdelete : Effect.when true (deleteMessage env chatId messageId) w =
        (.ok (), { w with apiCalls := w.apiCalls ++ [.deleteMessage chatId messageId] }) :=
      Effect.bind_of_ok hcall
    rw [Effect.bind_of_ok hdelete]
    rfl
  · rw [Effect.bind_pure_snd, Effect.when_true, Effect.bind_pure_snd]
    rfl

/-- **Verdicts do not depend on the order, and the whitelist has priority.**  For every
list of filters that can all be searched for in the text, in whatever order it is read,
and every message of a sender who is not exempt in a chat with `anti_badwords` on: if
the client returns, the plugin returns `True` if and only if a filter of the blacklist
hits the text and none of the whitelist does; it calls `delete_message` once in that
case, when there is a message id, and otherwise changes nothing. -/
theorem filterWords_verdict (h : Filtered w.rules update message chatId text)
    (hperm : filters'.Perm filters) (hlist : listFilters w.rules chatId = .ok filters')
    (htotal : ∀ f ∈ filters, ∃ b, f.hits env (text.or (.str "")) = .ok b) :
    ∃ messageId, getMessageId message = .ok messageId ∧
      (ClientReturns env →
        ((filterWordsWith listFilters env ctx update w).1 = .ok true ↔
          Condemns env (text.or (.str "")) filters)) ∧
      (Condemns env (text.or (.str "")) filters ∧ messageId.truthy →
        (filterWordsWith listFilters env ctx update w).2 =
          { w with apiCalls := w.apiCalls ++ [.deleteMessage chatId messageId] }) ∧
      (¬ (Condemns env (text.or (.str "")) filters ∧ messageId.truthy) →
        (filterWordsWith listFilters env ctx update w).2 = w) := by
  have htotal' : ∀ f ∈ filters', ∃ b, f.hits env (text.or (.str "")) = .ok b :=
    fun f hf => htotal f (hperm.mem_iff.mp hf)
  obtain ⟨messageId, senderId, hid, hacts, hpasses⟩ := filterOffenceWith_eq h hlist htotal'
  rw [Condemns.perm hperm] at hacts hpasses
  refine ⟨messageId, hid, ?_⟩
  by_cases hcondemned : Condemns env (text.or (.str "")) filters
  · have hacted : filterWordsWith listFilters env ctx update w =
        (do
          Effect.when messageId.truthy (deleteMessage env chatId messageId)
          return true : BotM Bool) w := by
      rw [filterWordsWith, actOn_of_some (hacts hcondemned)]
    rw [hacted]
    cases htruthy : messageId.truthy with
    | true =>
        obtain ⟨hreturns, hcalls⟩ := deleteThen_spec env chatId messageId w
        exact ⟨fun h => iff_of_true (hreturns h) hcondemned, fun _ => hcalls,
          fun hnot => absurd ⟨hcondemned, rfl⟩ hnot⟩
    | false =>
        exact ⟨fun _ => iff_of_true rfl hcondemned, fun hboth => absurd hboth.2 Bool.false_ne_true,
          fun _ => rfl⟩
  · have hnone : filterWordsWith listFilters env ctx update w = (.ok false, w) :=
      actOn_of_none (hpasses hcondemned)
    have hne : (.ok false : Except PyError Bool) ≠ .ok true := by
      intro h
      cases h
    rw [hnone]
    exact ⟨fun _ => iff_of_false hne hcondemned, fun hboth => absurd hboth.1 hcondemned,
      fun _ => rfl⟩

end Handle

/-- A message with a text, in a chat. -/
def saying (text : String) : PyVal :=
  .dict [("message", .dict
    [("message_id", .str "message"), ("chat", .dict [("id", .str "chat")]),
      ("sender", .dict [("id", .str "member")]), ("text", .str text)])]

/-- A chat with `anti_badwords` on. -/
def watchedChat : World :=
  { rules := { groups := (∅ : Groups).insert "chat" { antiBadwords := 1 } } }

/-- A word of the whitelist, read first, does not save a text it is not in. -/
theorem badWord_deleted :
    (filterWordsWith (fun _ _ => .ok [⟨"good", true, false⟩, ⟨"bad", false, false⟩]) .plain {}
        (saying "a bad day") watchedChat).1 = .ok true ∧
      (filterWordsWith (fun _ _ => .ok [⟨"good", true, false⟩, ⟨"bad", false, false⟩]) .plain {}
        (saying "a bad day") watchedChat).2.apiCalls =
          [.deleteMessage (.str "chat") (.str "message")] := by
  have hfiltered : Filtered watchedChat.rules (saying "a bad day") _ (.str "chat")
      (.str "a bad day") :=
    ⟨rfl, rfl, rfl, ⟨_, rfl, rfl⟩, ⟨.str "member", rfl, rfl⟩, rfl⟩
  have hcondemns : Condemns .plain (.str "a bad day")
      [⟨"bad", false, false⟩, ⟨"good", true, false⟩] := by
    refine ⟨⟨⟨"bad", false, false⟩, List.mem_cons_self, rfl, by decide +kernel⟩, ?_⟩
    simp only [List.mem_cons, List.not_mem_nil, or_false, exists_eq_or_imp, exists_eq_left]
    decide +kernel
  obtain ⟨messageId, hid, hresult, hcalls, -⟩ :=
    @filterWords_verdict .plain {} watchedChat _ _ _ _
      (fun _ _ => .ok [⟨"good", true, false⟩, ⟨"bad", false, false⟩])
      [⟨"bad", false, false⟩, ⟨"good", true, false⟩] _ hfiltered (.swap ..) rfl
      (fun f _ => exists_hits fun _ => ⟨_, rfl⟩)
  cases hid
  exact ⟨(hresult fun _ _ => ⟨_, rfl⟩).mpr hcondemns, by rw [hcalls ⟨hcondemns, rfl⟩]; rfl⟩

end RubicaBot
