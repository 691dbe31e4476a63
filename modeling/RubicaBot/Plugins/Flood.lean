import RubicaBot.Plugins.Privilege
import RubicaBot.Simulation
import RubicaBot.Window

/-!
# RubicaBot.Plugins.Flood

`AntiFloodPlugin` over time.

The plugin is a machine whose state is `_events`, a history for each key: group
flags, limits, admins, replies of the API and everything else in the world may
change from call to call.  The history of a key tracks the log of the calls that
were counted under it (`Follows`), so the plugin punishes exactly the calls with
too many of those in their window (`flood_exact_window`).
-/

namespace RubicaBot

open Py BotM Transition

/-- A call of `AntiFloodPlugin.handle`: what it is passed, and the world it is made
in, whose histories are not the plugin's. -/
structure FloodCall where
  env : Env
  ctx : Context := {}
  update : PyVal
  world : World

/-- What the plugin returned, and what it asked of the client. -/
structure FloodDecision where
  result : Except PyError Bool
  apiCalls : List ApiCall

/-- The message is let through. -/
def FloodDecision.pass : FloodDecision := { result := .ok false, apiCalls := [] }

namespace FloodCall

/-- When the call is made. -/
def time (c : FloodCall) : Instant := c.env.monotonic

/-- The message the call counts, if it passes the checks. -/
def subject (c : FloodCall) : Except PyError (Option FloodSubject) :=
  antiFloodSubject c.world.rules c.update

/-- The key it is counted under. -/
def key (c : FloodCall) : Option String :=
  match c.subject with
  | .ok (some s) => some (s.key c.env)
  | _ => none

/-- The call, made of a plugin with this `window_seconds` and these `_events`. -/
def perform (windowSeconds : ℚ) (events : Dict String (List Instant)) (c : FloodCall) :
    Except PyError Bool × World :=
  antiFloodPlugin { c.env with floodWindow := windowSeconds } c.ctx c.update
    { c.world with floodEvents := events }

/-- The plugin as a machine: a call leaves it with its decision and its `_events`. -/
def handle (windowSeconds : ℚ) (events : Dict String (List Instant)) (c : FloodCall) :
    Option (FloodDecision × Dict String (List Instant)) :=
  let after := c.perform windowSeconds events
  some ({ result := after.1, apiCalls := after.2.apiCalls.drop c.world.apiCalls.length },
    after.2.floodEvents)

end FloodCall

/-! ## the checks -/

/-- The checks a message passes to be counted. -/
theorem antiFloodSubject_eq_some_iff {rules : Rules} {update : PyVal} {s : FloodSubject} :
    antiFloodSubject rules update = .ok (some s) ↔
      Carries update s.message s.chatId s.senderId ∧
        ∃ settings, rules.getGroup s.chatId = .ok settings ∧ settings.antiFlood ∧
          rules.isAdmin s.chatId s.senderId = .ok false ∧ s.floodLimit = settings.floodLimit := by
  simp only [antiFloodSubject, Effect.bind_eq_ok_iff, Effect.ite_none_eq_some_iff,
    Effect.ite_not_none_eq_some_iff]
  constructor
  · intro hcounts
    obtain ⟨message, hextract, -, chatId, hchat, senderId, hsender, htruthy, settings, hgroup, hon,
      admin, hadmin, hna, hs⟩ := hcounts
    cases hs
    rw [Bool.and_eq_true] at htruthy
    rw [Bool.eq_false_of_not_eq_true hna] at hadmin
    exact ⟨⟨hextract, hchat, hsender, htruthy.1, htruthy.2⟩, settings, hgroup, hon, hadmin, rfl⟩
  · intro hcounts
    obtain ⟨hcarries, settings, hgroup, hon, hadmin, hlimit⟩ := hcounts
    refine ⟨s.message, hcarries.extracted, hcarries.messageTruthy, s.chatId, hcarries.inChat,
      s.senderId, hcarries.sentBy, ?_, settings, hgroup, hon, false, hadmin, Bool.false_ne_true, ?_⟩
    · rw [hcarries.chatTruthy, hcarries.senderTruthy]
      rfl
    · rw [← hlimit]
      rfl

/-! ## one call -/

namespace FloodCall

variable {windowSeconds : ℚ} {events events' : Dict String (List Instant)} {c : FloodCall}

/-- The decision is what the plugin returns and calls. -/
theorem handle_of_perform {result : Except PyError Bool} {calls : List ApiCall}
    (h : c.perform windowSeconds events =
      (result, { c.world with floodEvents := events', apiCalls := c.world.apiCalls ++ calls })) :
    handle windowSeconds events c = some ({ result, apiCalls := calls }, events') := by
  simp only [handle, h, List.drop_left]

/-- The key of a message that is counted. -/
theorem key_eq_some_iff {key : String} :
    c.key = some key ↔ ∃ s, c.subject = .ok (some s) ∧ s.key c.env = key := by
  unfold FloodCall.key
  split
  · next s hs => simp [hs]
  · next hnone =>
      constructor
      · nofun
      · intro hsome
        obtain ⟨s, hs, -⟩ := hsome
        exact absurd hs (hnone s)

/-- What fails the checks leaves no trace. -/
theorem handle_of_no_key (h : c.key = none) :
    ∃ result, result ≠ .ok true ∧
      ∀ events, handle windowSeconds events c = some ({ result, apiCalls := [] }, events) := by
  cases hs : c.subject with
  | error e =>
      have hne : (.error e : Except PyError Bool) ≠ .ok true := by
        intro h
        cases h
      refine ⟨.error e, hne, fun events => handle_of_perform ?_⟩
      rw [perform, antiFloodPlugin, actOn_of_error hs, List.append_nil]
  | ok counted =>
      cases counted with
      | none =>
          have hne : (.ok false : Except PyError Bool) ≠ .ok true := by
            intro h
            cases h
          refine ⟨.ok false, hne, fun events => handle_of_perform ?_⟩
          rw [perform, antiFloodPlugin, actOn_of_none hs, List.append_nil]
      | some s =>
          rw [key, hs] at h
          cases h

end FloodCall

section Punishment

variable {env : Env}

/-- A ban is one call, whatever it is answered. -/
theorem ban_spec (chatId userId : PyVal) (n : Nat) :
    ∃ result,
      (∀ w : World, w.apiCalls.length = n →
        (do
          banChatMember env chatId userId
          return true : BotM Bool) w =
          (result, { w with apiCalls := w.apiCalls ++ [.banChatMember chatId userId] })) ∧
      (ClientReturns env → result = .ok true) := by
  cases hreply : env.reply n (.banChatMember chatId userId) with
  | ok v =>
      refine ⟨.ok true, fun w hn => ?_, fun _ => rfl⟩
      have hcall := callApi_apply env (.banChatMember chatId userId) w
      rw [hn, hreply] at hcall
      exact Effect.bind_of_ok (Effect.bind_of_ok hcall)
  | error e =>
      refine ⟨.error e, fun w hn => ?_, fun hreturns => ?_⟩
      · have hcall := callApi_apply env (.banChatMember chatId userId) w
        rw [hn, hreply] at hcall
        exact Effect.bind_of_error (Effect.bind_of_error hcall)
      · obtain ⟨v, hv⟩ := hreturns n (.banChatMember chatId userId)
        cases hreply.symm.trans hv

/-- A message over the limit: something is asked of the client, and if the client
returns, the ban is. -/
theorem punishFlood_spec {s : FloodSubject} {update : PyVal}
    (h : Carries update s.message s.chatId s.senderId) (n : Nat) :
    ∃ result calls,
      (∀ w : World, w.apiCalls.length = n →
        punishFlood env s w = (result, { w with apiCalls := w.apiCalls ++ calls })) ∧
      calls ≠ [] ∧
      (ClientReturns env → result = .ok true ∧ .banChatMember s.chatId s.senderId ∈ calls) := by
  obtain ⟨messageId, hid⟩ := h.exists_messageId
  rw [getMessageId, if_pos h.messageTruthy] at hid
  have hlift : punishFlood env s =
      (do
        Effect.when messageId.truthy (deleteMessage env s.chatId messageId)
        banChatMember env s.chatId s.senderId
        return true : BotM Bool) := funext fun w => Effect.bind_of_ok (congrArg (·, w) hid)
  rw [hlift]
  cases htruthy : messageId.truthy with
  | false =>
      obtain ⟨result, hban, hreturns⟩ := @ban_spec env s.chatId s.senderId n
      exact ⟨result, _, hban, List.cons_ne_nil _ _,
        fun h => ⟨hreturns h, List.mem_cons_self⟩⟩
  | true =>
      cases hreply : env.reply n (.deleteMessage s.chatId messageId) with
      | ok v =>
          obtain ⟨result, hban, hreturns⟩ := @ban_spec env s.chatId s.senderId (n + 1)
          refine ⟨result, [.deleteMessage s.chatId messageId, .banChatMember s.chatId s.senderId],
            fun w hn => ?_, List.cons_ne_nil _ _, fun h => ⟨hreturns h, by simp⟩⟩
          have hcall := callApi_apply env (.deleteMessage s.chatId messageId) w
          rw [hn, hreply] at hcall
          have hdelete : Effect.when true (deleteMessage env s.chatId messageId) w =
              (.ok (), { w with apiCalls := w.apiCalls ++ [.deleteMessage s.chatId messageId] }) :=
            Effect.bind_of_ok hcall
          rw [Effect.bind_of_ok hdelete, hban _ (by simp [hn]), List.append_assoc]
          rfl
      | error e =>
          refine ⟨.error e, [.deleteMessage s.chatId messageId], fun w hn => ?_,
            List.cons_ne_nil _ _, fun hreturns => ?_⟩
          · have hcall := callApi_apply env (.deleteMessage s.chatId messageId) w
            rw [hn, hreply] at hcall
            exact Effect.bind_of_error (Effect.bind_of_error hcall)
          · obtain ⟨v, hv⟩ := hreturns n (.deleteMessage s.chatId messageId)
            cases hreply.symm.trans hv

end Punishment

namespace FloodCall

variable {windowSeconds : ℚ} {events events' : Dict String (List Instant)} {c : FloodCall}

/-- The history of a key, once the call is in it. -/
def history (windowSeconds : ℚ) (events : Dict String (List Instant)) (key : String)
    (c : FloodCall) : List Instant :=
  Window.prune windowSeconds c.time ((events.lookup key).getD []) ++ [c.time]

/-- The world of the call, with the message in its history. -/
def recorded (windowSeconds : ℚ) (events : Dict String (List Instant)) (s : FloodSubject)
    (c : FloodCall) : World :=
  { c.world with
    floodEvents := events.insert (s.key c.env) (history windowSeconds events (s.key c.env) c) }

theorem recordFlood_eq (s : FloodSubject) :
    World.recordFlood { c.env with floodWindow := windowSeconds } s
        { c.world with floodEvents := events } = recorded windowSeconds events s c := rfl

/-- What passes the checks is in its history, and punished if that is too long. -/
theorem handle_of_subject {s : FloodSubject} (hs : c.subject = .ok (some s)) :
    ∃ punished : FloodDecision,
      (∀ events, handle windowSeconds events c =
        some (if s.floodLimit < (history windowSeconds events (s.key c.env) c).length then punished
            else .pass,
          events.insert (s.key c.env) (history windowSeconds events (s.key c.env) c))) ∧
      punished.apiCalls ≠ [] ∧
      (ClientReturns c.env →
        punished.result = .ok true ∧ .banChatMember s.chatId s.senderId ∈ punished.apiCalls) := by
  obtain ⟨hcarries, -⟩ := antiFloodSubject_eq_some_iff.mp hs
  obtain ⟨result, calls, hpunish, hne, hreturns⟩ :=
    @punishFlood_spec { c.env with floodWindow := windowSeconds } s c.update hcarries
      c.world.apiCalls.length
  refine ⟨{ result, apiCalls := calls }, fun events => ?_, hne, hreturns⟩
  have hcount : c.perform windowSeconds events =
      countMessage { c.env with floodWindow := windowSeconds } s
        { c.world with floodEvents := events } := actOn_of_some hs
  by_cases hlong : s.floodLimit < (history windowSeconds events (s.key c.env) c).length
  · have hexceeds : s.exceeds { c.env with floodWindow := windowSeconds } events :=
      decide_eq_true hlong
    have hcounted := @countMessage_of_exceeds { c.env with floodWindow := windowSeconds } s
      { c.world with floodEvents := events } hexceeds
    rw [recordFlood_eq, hpunish (recorded windowSeconds events s c) rfl] at hcounted
    rw [if_pos hlong]
    exact handle_of_perform (hcount.trans hcounted)
  · have hexceeds : s.exceeds { c.env with floodWindow := windowSeconds } events = false :=
      decide_eq_false hlong
    have hcounted := @countMessage_of_not_exceeds { c.env with floodWindow := windowSeconds } s
      { c.world with floodEvents := events } hexceeds
    rw [recordFlood_eq] at hcounted
    rw [if_neg hlong]
    refine handle_of_perform (hcount.trans ?_)
    rw [hcounted, recorded, List.append_nil]

end FloodCall

/-- The calls with this key that passed the checks in the window that ends with the
call, up to and including it. -/
def inWindow (windowSeconds : ℚ) (key : String) (before : List FloodCall) (c : FloodCall) :
    List FloodCall :=
  (before ++ [c]).filter fun c' =>
    decide (c'.key = some key ∧ c.time - windowSeconds ≤ c'.time)

/-! ## a run of calls -/

/-- When the calls with this key that passed the checks were made. -/
def stampsOf (key : String) (calls : List FloodCall) : List Instant :=
  (calls.filter fun c => decide (c.key = some key)).map FloodCall.time

/-- The stamps of the calls, and of those after them. -/
theorem stampsOf_append (key : String) (calls calls' : List FloodCall) :
    stampsOf key (calls ++ calls') = stampsOf key calls ++ stampsOf key calls' := by
  simp [stampsOf]

/-- Every history tracks the log of its key. -/
def Follows (windowSeconds : ℚ) (now : Instant) (calls : List FloodCall)
    (events : Dict String (List Instant)) : Prop :=
  ∀ key, Window.Tracks windowSeconds now (stampsOf key calls) ((events.lookup key).getD [])

section Run

open FloodCall

variable {windowSeconds : ℚ} {now : Instant} {calls : List FloodCall}
  {events : Dict String (List Instant)} {c : FloodCall}

/-- Time passes; what has left the window is still to be dropped. -/
theorem Follows.later (h : Follows windowSeconds now calls events) {now' : Instant}
    (hle : now ≤ now') : Follows windowSeconds now' calls events :=
  fun key => (h key).later hle

/-- One call. -/
theorem Follows.step (h : Follows windowSeconds c.time calls events) :
    ∃ decision events', handle windowSeconds events c = some (decision, events') ∧
      Follows windowSeconds c.time (calls ++ [c]) events' := by
  cases hkey : c.key with
  | none =>
      obtain ⟨result, -, hhandle⟩ := handle_of_no_key hkey
      refine ⟨_, events, hhandle events, fun key => ?_⟩
      have hnone : stampsOf key [c] = [] := by simp [stampsOf, hkey]
      rw [stampsOf_append, hnone, List.append_nil]
      exact h key
  | some own =>
      obtain ⟨s, hs, hown⟩ := key_eq_some_iff.mp hkey
      obtain ⟨punished, hhandle, -⟩ := handle_of_subject hs
      refine ⟨_, _, hhandle events, fun key => ?_⟩
      rw [hown, stampsOf_append]
      by_cases heq : key = own
      · subst heq
        have hself : stampsOf key [c] = [c.time] := by simp [stampsOf, hkey]
        rw [hself, AList.lookup_insert]
        exact (h key).pruned.push
      · have hother : stampsOf key [c] = [] := by simp [stampsOf, hkey, Ne.symm heq]
        rw [hother, List.append_nil, AList.lookup_insert_ne heq]
        exact h key

/-- **The histories a run leaves.**  By induction on its last call. -/
theorem exists_follows (hsorted : calls.Pairwise fun c c' => c.time ≤ c'.time)
    (hpast : ∀ c ∈ calls, c.time ≤ now) :
    ∃ events, run (next (handle windowSeconds)) ∅ calls = some events ∧
      Follows windowSeconds now calls events := by
  induction calls using List.reverseRecOn generalizing now with
  | nil => exact ⟨∅, rfl, fun _ => Window.Tracks.nil _ _⟩
  | append_singleton calls c ih =>
      obtain ⟨hcalls, -, hle⟩ := List.pairwise_append.mp hsorted
      obtain ⟨events, hrun, hfollows⟩ := ih hcalls fun c' hc' => hle c' hc' c List.mem_cons_self
      obtain ⟨decision, events', hhandle, hnext⟩ := hfollows.step
      have hstep : next (handle windowSeconds) events c = some events' :=
        next_eq_some.mpr ⟨decision, hhandle⟩
      refine ⟨events', ?_, hnext.later (hpast c (by simp))⟩
      rw [run_append, hrun, Option.bind_some, run_cons, hstep]
      rfl

/-- The history of a call is as long as there are calls in its window. -/
theorem Follows.length_history (h : Follows windowSeconds c.time calls events)
    (hw : 0 ≤ windowSeconds) {key : String} (hkey : c.key = some key) :
    (history windowSeconds events key c).length =
      (inWindow windowSeconds key calls c).length := by
  have hself : stampsOf key [c] = [c.time] := by simp [stampsOf, hkey]
  have hshown : history windowSeconds events key c =
      Window.within windowSeconds c.time (stampsOf key (calls ++ [c])) := by
    rw [history, (h key).prune_eq, stampsOf_append, Window.within_append, hself,
      Window.within_self hw]
  rw [hshown, Window.within, stampsOf, List.filter_map, List.length_map, List.filter_filter,
    inWindow]
  congr 2
  funext c'
  have hage : c.time - c'.time ≤ windowSeconds ↔ c.time - windowSeconds ≤ c'.time := sub_le_comm
  simp only [Function.comp_apply, hage, Bool.decide_and, Bool.and_comm]

end Run

/-- There are more calls of the sender in the chat in the window than the limit that
is read. -/
def Floods (windowSeconds : ℚ) (before : List FloodCall) (c : FloodCall)
    (chatId senderId : PyVal) : Prop :=
  ∃ settings, c.world.rules.getGroup chatId = .ok settings ∧ settings.antiFlood ∧
    c.world.rules.isAdmin chatId senderId = .ok false ∧
    settings.floodLimit <
      (inWindow windowSeconds
        (chatId.toStr c.env.unicode ++ ":" ++ senderId.toStr c.env.unicode) before c).length

/-- For a message that is counted, only the limit is left to check. -/
theorem floods_iff_of_subject {windowSeconds : ℚ} {before : List FloodCall} {c : FloodCall}
    {s : FloodSubject} (hs : c.subject = .ok (some s)) :
    Floods windowSeconds before c s.chatId s.senderId ↔
      s.floodLimit < (inWindow windowSeconds (s.key c.env) before c).length := by
  obtain ⟨-, settings, hgroup, hon, hadmin, hlimit⟩ := antiFloodSubject_eq_some_iff.mp hs
  rw [hlimit]
  constructor
  · intro h
    obtain ⟨settings', hgroup', -, -, hlong⟩ := h
    cases hgroup.symm.trans hgroup'
    exact hlong
  · exact fun hlong => ⟨settings, hgroup, hon, hadmin, hlong⟩

/-- A message that is not counted floods nothing. -/
theorem not_floods_of_no_key {windowSeconds : ℚ} {before : List FloodCall} {c : FloodCall}
    {message chatId senderId : PyVal} (hkey : c.key = none)
    (hcarries : Carries c.update message chatId senderId) :
    ¬ Floods windowSeconds before c chatId senderId := by
  intro hfloods
  obtain ⟨settings, hgroup, hon, hadmin, -⟩ := hfloods
  have hs : c.subject = .ok (some ⟨message, chatId, senderId, settings.floodLimit⟩) :=
    antiFloodSubject_eq_some_iff.mpr ⟨hcarries, settings, hgroup, hon, hadmin, rfl⟩
  cases hkey.symm.trans (FloodCall.key_eq_some_iff.mpr ⟨_, hs, rfl⟩)

/-- **Floods are counted in an exact sliding window.**  In every run of calls at times
that do not decrease: a call that names a chat and a sender asks something of the
client if and only if it floods, and if the client returns, it returns `True` and bans
the sender if and only if it floods; a call that fails the checks returns no `True`,
asks nothing and leaves all histories as they were. -/
theorem flood_exact_window {windowSeconds : ℚ} (hw : 0 ≤ windowSeconds) {calls : List FloodCall}
    (hsorted : calls.Pairwise fun c c' => c.time ≤ c'.time) :
    ∀ before c later, calls = before ++ c :: later →
      ∃ events decision events',
        run (next (FloodCall.handle windowSeconds)) ∅ before = some events ∧
        FloodCall.handle windowSeconds events c = some (decision, events') ∧
        (∀ message chatId senderId, Carries c.update message chatId senderId →
          (decision.apiCalls ≠ [] ↔ Floods windowSeconds before c chatId senderId) ∧
          (ClientReturns c.env →
            (decision.result = .ok true ∧ .banChatMember chatId senderId ∈ decision.apiCalls ↔
              Floods windowSeconds before c chatId senderId))) ∧
        (c.key = none →
          decision.result ≠ .ok true ∧ decision.apiCalls = [] ∧ events' = events) := by
  rintro before c later rfl
  obtain ⟨hbefore, -, hle⟩ := List.pairwise_append.mp hsorted
  obtain ⟨events, hrun, hfollows⟩ :=
    exists_follows hbefore fun c' hc' => hle c' hc' c List.mem_cons_self
  cases hkey : c.key with
  | none =>
      obtain ⟨result, hresult, hhandle⟩ := @FloodCall.handle_of_no_key windowSeconds c hkey
      refine ⟨events, _, events, hrun, hhandle events, ?_, fun _ => ⟨hresult, rfl, rfl⟩⟩
      intro message chatId senderId hcarries
      have hno := @not_floods_of_no_key windowSeconds before c _ _ _ hkey hcarries
      exact ⟨iff_of_false (fun h => h rfl) hno, fun _ => iff_of_false (fun h => hresult h.1) hno⟩
  | some key =>
      obtain ⟨s, hs, hown⟩ := FloodCall.key_eq_some_iff.mp hkey
      obtain ⟨punished, hhandle, hasks, hbans⟩ :=
        @FloodCall.handle_of_subject windowSeconds c s hs
      have hlength := hfollows.length_history hw hkey
      rw [← hown] at hlength
      refine ⟨events, _, _, hrun, hhandle events, ?_, nofun⟩
      intro message chatId senderId hcarries
      obtain ⟨hcarries', -⟩ := antiFloodSubject_eq_some_iff.mp hs
      obtain ⟨-, rfl, rfl⟩ := hcarries'.unique hcarries
      rw [floods_iff_of_subject hs, hlength]
      by_cases hlong : s.floodLimit < (inWindow windowSeconds (s.key c.env) before c).length
      · rw [if_pos hlong]
        exact ⟨iff_of_true hasks hlong, fun hreturns => iff_of_true (hbans hreturns) hlong⟩
      · rw [if_neg hlong]
        exact ⟨iff_of_false (fun h => h rfl) hlong, fun _ => iff_of_false nofun hlong⟩

/-- A message. -/
def messageFrom (chatId senderId : String) : PyVal :=
  .dict [("message", .dict
    [("chat", .dict [("id", .str chatId)]), ("sender", .dict [("id", .str senderId)])])]

/-- A chat with `anti_flood` on. -/
def guardedChat (chatId : String) (floodLimit : Int) : Rules where
  groups := (∅ : Groups).insert chatId { antiFlood := 1, floodLimit := floodLimit }

/-- The message, at a time. -/
def FloodCall.sentAt (chatId senderId : String) (floodLimit : Int) (t : Instant) : FloodCall where
  env := { Env.plain with monotonic := t }
  update := messageFrom chatId senderId
  world := { rules := guardedChat chatId floodLimit }

/-- With a limit of 2, the third message floods, eight seconds after the first. -/
theorem flood_exact_window_third :
    ∃ events decision events',
      run (next (FloodCall.handle 8)) ∅
        [.sentAt "chat" "member" 2 0, .sentAt "chat" "member" 2 5] = some events ∧
      FloodCall.handle 8 events (.sentAt "chat" "member" 2 8) = some (decision, events') ∧
      decision.result = .ok true ∧
      .banChatMember (.str "chat") (.str "member") ∈ decision.apiCalls := by
  have hcarries : Carries (messageFrom "chat" "member") _ (.str "chat") (.str "member") :=
    ⟨rfl, rfl, rfl, rfl, rfl⟩
  have hfloods : Floods 8 [.sentAt "chat" "member" 2 0, .sentAt "chat" "member" 2 5]
      (.sentAt "chat" "member" 2 8) (.str "chat") (.str "member") :=
    ⟨_, rfl, rfl, by decide +kernel, by decide +kernel⟩
  obtain ⟨events, decision, events', hrun, hhandle, hdecides, -⟩ :=
    @flood_exact_window 8 (by decide)
      [.sentAt "chat" "member" 2 0, .sentAt "chat" "member" 2 5, .sentAt "chat" "member" 2 8]
      (by decide +kernel) [.sentAt "chat" "member" 2 0, .sentAt "chat" "member" 2 5]
      (.sentAt "chat" "member" 2 8) [] rfl
  obtain ⟨-, hbans⟩ := hdecides _ _ _ hcarries
  obtain ⟨hresult, hban⟩ := (hbans fun _ _ => ⟨_, rfl⟩).mpr hfloods
  exact ⟨events, decision, events', hrun, hhandle, hresult, hban⟩

end RubicaBot
