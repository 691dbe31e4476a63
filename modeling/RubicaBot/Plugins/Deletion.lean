import RubicaBot.Plugins.Dispatch
import RubicaBot.Transition

/-!
# RubicaBot.Plugins.Deletion

`/del` over time.

`delete_handler` goes through the newest rows of the message log, and nothing
takes a row out of the log because its message has been deleted: only the
janitor removes rows, from the other end.  `tries` is what one `/del` passes to
`delete_message`, row by row (`deleteHandler_deletions`).  So no message is
deleted again exactly as long as the rows a `/del` goes through hold no message
deleted before and none that was logged twice (`notAgain_iff_fresh`); and the
same command given twice in a row goes through the same rows
(`del_twice_not_fresh`).
-/

namespace RubicaBot

open Py BotM Transition

/-- A message passed to `delete_message`, by its chat in the log, and whether
`delete_handler` counted it as deleted. -/
structure Deletion where
  chatId : String
  messageId : String
  done : Bool
  deriving DecidableEq

/-- The deletion that a call of the API with this outcome is. -/
def ApiCall.deletion? (outcome : Except PyError PyVal) : ApiCall → Option Deletion
  | .deleteMessage chatId (.str messageId) =>
      match sqlText chatId with
      | .ok (some c) => some ⟨c, messageId, countsAsDeleted outcome⟩
      | _ => none
  | _ => none

/-- The deletions among `calls`, the first of which is the `first`-th call of the
client. -/
def deletionsOf (env : Env) (first : Nat) : List ApiCall → List Deletion
  | [] => []
  | call :: calls =>
      (call.deletion? (env.reply first call)).toList ++ deletionsOf env (first + 1) calls

/-- The deletions among the calls, and among those after them. -/
theorem deletionsOf_append (env : Env) (first : Nat) (calls calls' : List ApiCall) :
    deletionsOf env first (calls ++ calls') =
      deletionsOf env first calls ++ deletionsOf env (first + calls.length) calls' := by
  induction calls generalizing first with
  | nil => simp [deletionsOf]
  | cons call calls ih =>
      rw [List.cons_append, deletionsOf, ih, deletionsOf, List.append_assoc, List.length_cons,
        Nat.add_right_comm, Nat.add_assoc first calls.length 1]

/-! ## one command -/

/-- The rows of a chat that `fetch_recent_message_ids` reads. -/
def recentRows (messages : List MessageRow) (chatId : PyVal) (limit : Nat) : List MessageRow :=
  match sqlText chatId with
  | .ok (some c) => (messages.filter fun row => row.chatId = c).take limit
  | _ => []

/-- `max(0, min(limit, 10000))`. -/
def clampLimit (limit : Int) : Nat := (max 0 (min limit 10000)).toNat

/-- The rows `/del` goes through: the newest of the chat, up to the limit. -/
def delRows (env : Env) (messages : List MessageRow) (chatId : PyVal) (args : List String) :
    List MessageRow :=
  match deleteLimit env.unicode args with
  | some limit => recentRows messages chatId (clampLimit limit)
  | none => []

/-- All of them are of the chat. -/
theorem sqlText_of_mem_recentRows {messages : List MessageRow} {chatId : PyVal} {limit : Nat}
    {row : MessageRow} (h : row ∈ recentRows messages chatId limit) :
    sqlText chatId = .ok (some row.chatId) := by
  unfold recentRows at h
  split at h
  · next c hc =>
      have hrow : row.chatId = c := by
        simpa using (List.mem_filter.mp (List.mem_of_mem_take h)).2
      rw [hc, hrow]
  · cases h

/-- The ids of the newest rows. -/
theorem fetchRecentMessageIds_eq {chatId : PyVal} {c : Option String} (hc : sqlText chatId = .ok c)
    (messages : List MessageRow) (limit : Nat) :
    fetchRecentMessageIds messages chatId limit =
      .ok ((recentRows messages chatId limit).map (·.messageId)) := by
  unfold fetchRecentMessageIds recentRows
  rw [hc]
  cases c <;> rfl

/-- What becomes of the rows, the first at the `first`-th call of the client. -/
def tryRows (env : Env) (chatId : PyVal) (first : Nat) : List MessageRow → List Deletion
  | [] => []
  | row :: rows =>
      ⟨row.chatId, row.messageId,
          countsAsDeleted (env.reply first (.deleteMessage chatId (.str row.messageId)))⟩ ::
        tryRows env chatId (first + 1) rows

/-- What a `/del` in `message` tries to delete in the world `w`. -/
def tries (env : Env) (message : PyVal) (args : List String) (w : World) : List Deletion :=
  match getChatId message with
  | .ok chatId =>
      if chatId.truthy then
        tryRows env chatId w.apiCalls.length (delRows env w.messages chatId args)
      else []
  | .error _ => []

/-- The calls of a handler: the world is as before but for them. -/
def Calls (m : BotM Unit) (w : World) (calls : List ApiCall) : Prop :=
  (m w).2 = { w with apiCalls := w.apiCalls ++ calls }

/-- What leaves the world as it is, calls nothing. -/
theorem Calls.of_eq {m : BotM Unit} {w : World} (h : (m w).2 = w) : Calls m w [] := by
  rw [Calls, h, List.append_nil]

/-- One after the other. -/
theorem Calls.bind {α : Type} {m : BotM α} {k : α → BotM Unit} {w : World} {a : α}
    {calls calls' : List ApiCall} (hm : m w = (.ok a, { w with apiCalls := w.apiCalls ++ calls }))
    (hk : Calls (k a) { w with apiCalls := w.apiCalls ++ calls } calls') :
    Calls (m >>= k) w (calls ++ calls') := by
  rw [Calls, Effect.bind_of_ok hm, hk, List.append_assoc]

/-- One call, whatever it is answered. -/
theorem sendMessage_calls (env : Env) (chatId : PyVal) (text : String) (w : World) :
    Calls (sendMessage env chatId text) w [.sendMessage chatId text none] :=
  Effect.bind_pure_snd _ _ w

/-- Whether the deletion of a message is counted, when it is the client's nth call. -/
def countedAt (env : Env) (chatId : PyVal) (message : String × Nat) : Bool :=
  countsAsDeleted (env.reply message.2 (.deleteMessage chatId (.str message.1)))

/-- The loop calls `delete_message` for each id in turn, counts those that are done and
those that are not, and never raises. -/
theorem deleteEach_eq (env : Env) (chatId : PyVal) (deleted failed : Nat) (ids : List String)
    (w : World) :
    ∃ failed', deleteEach env chatId deleted failed ids w =
      (.ok (deleted + (ids.zipIdx w.apiCalls.length).countP (countedAt env chatId), failed'),
        { w with
          apiCalls := w.apiCalls ++ ids.map fun id => .deleteMessage chatId (.str id) }) ∧
      failed' + (ids.zipIdx w.apiCalls.length).countP (countedAt env chatId) =
        failed + ids.length := by
  induction ids generalizing deleted failed w with
  | nil => exact ⟨failed, by simp [deleteEach], rfl⟩
  | cons id ids ih =>
      let w₁ : World :=
        { w with apiCalls := w.apiCalls ++ [.deleteMessage chatId (.str id)] }
      have hstep : deleteEach env chatId deleted failed (id :: ids) w =
          (if countedAt env chatId (id, w.apiCalls.length) then
            deleteEach env chatId (deleted + 1) failed ids
          else deleteEach env chatId deleted (failed + 1) ids) w₁ := rfl
      have hcalls : w₁.apiCalls ++ ids.map (fun id => .deleteMessage chatId (.str id)) =
          w.apiCalls ++ (id :: ids).map fun id => .deleteMessage chatId (.str id) := by
        simp [w₁]
      have hlength : w₁.apiCalls.length = w.apiCalls.length + 1 := by simp [w₁]
      rw [hstep, ← hcalls, List.zipIdx_cons, ← hlength]
      by_cases hcounted : countedAt env chatId (id, w.apiCalls.length)
      · obtain ⟨failed', hrun, hcount⟩ := ih (deleted + 1) failed w₁
        rw [if_pos hcounted, List.countP_cons_of_pos hcounted, ← Nat.add_assoc,
          Nat.add_right_comm deleted]
        exact ⟨failed', hrun, by rw [List.length_cons]; omega⟩
      · obtain ⟨failed', hrun, hcount⟩ := ih deleted (failed + 1) w₁
        rw [if_neg hcounted, List.countP_cons_of_neg hcounted]
        exact ⟨failed', hrun, by rw [List.length_cons]; omega⟩

/-- The calls for the rows are the tries. -/
theorem deletionsOf_rows (env : Env) {chatId : PyVal} (first : Nat) {rows : List MessageRow}
    (hrows : ∀ row ∈ rows, sqlText chatId = .ok (some row.chatId)) :
    deletionsOf env first ((rows.map (·.messageId)).map fun id => .deleteMessage chatId (.str id)) =
      tryRows env chatId first rows := by
  induction rows generalizing first with
  | nil => rfl
  | cons row rows ih =>
      obtain ⟨hrow, hrest⟩ := List.forall_mem_cons.mp hrows
      rw [List.map_cons, List.map_cons, deletionsOf, tryRows, ih (first + 1) hrest]
      simp [ApiCall.deletion?, hrow]

/-- `delete_handler` from the look into the log on. -/
def deleteRecent (env : Env) (chatId : PyVal) (limit : Nat) : BotM Unit := do
  let messageIds ← Effect.query fun w => fetchRecentMessageIds w.messages chatId limit
  if messageIds = [] then sendMessage env chatId "پیامی برای حذف پیدا نشد."
  else do
    let (deleted, failed) ← deleteEach env chatId 0 0 messageIds
    sendMessage env chatId
      ("حذف شد: " ++ toString deleted ++ " | ناموفق: " ++ toString failed)

/-- The report of `delete_handler`. -/
def deletionReport (deleted failed : Nat) : String :=
  "حذف شد: " ++ toString deleted ++ " | ناموفق: " ++ toString failed

/-- The report accounts for the deletions of these messages, the first of which is the
`first`-th call of the client. -/
def Accounts (env : Env) (chatId : PyVal) (first : Nat) (ids : List String) (text : String) :
    Prop :=
  ∃ deleted failed, text = deletionReport deleted failed ∧ deleted + failed = ids.length ∧
    deleted = (ids.zipIdx first).countP (countedAt env chatId)

/-- The calls of `deleteRecent`: one for each row, and a report. -/
theorem deleteRecent_calls (env : Env) {chatId : PyVal} {c : Option String}
    (hc : sqlText chatId = .ok c) (limit : Nat) (w : World) :
    ∃ text, Calls (deleteRecent env chatId limit) w
        ((((recentRows w.messages chatId limit).map (·.messageId)).map
          fun id => .deleteMessage chatId (.str id)) ++ [.sendMessage chatId text none]) ∧
      (recentRows w.messages chatId limit ≠ [] → Accounts env chatId w.apiCalls.length
        ((recentRows w.messages chatId limit).map (·.messageId)) text) := by
  have hquery : (Effect.query fun w => fetchRecentMessageIds w.messages chatId limit :
      BotM (List String)) w = (.ok ((recentRows w.messages chatId limit).map (·.messageId)), w) :=
    congrArg (·, w) (fetchRecentMessageIds_eq hc w.messages limit)
  have hrun : deleteRecent env chatId limit w = _ := Effect.bind_of_ok hquery
  unfold Calls
  rw [hrun]
  cases recentRows w.messages chatId limit with
  | nil => exact ⟨_, sendMessage_calls env chatId _ w, fun h => absurd rfl h⟩
  | cons row rows =>
      simp only [List.map_cons, reduceCtorEq, if_false]
      obtain ⟨failed, hrun, hcount⟩ :=
        deleteEach_eq env chatId 0 0 (row.messageId :: rows.map (·.messageId)) w
      rw [Nat.zero_add] at hrun hcount
      exact ⟨_, Calls.bind hrun (sendMessage_calls env chatId _ _),
        fun _ => ⟨_, failed, rfl, by rw [Nat.add_comm, hcount], rfl⟩⟩

/-- The deletions among them are the tries; a chat id that cannot be bound makes none. -/
theorem deleteRecent_deletions (env : Env) (chatId : PyVal) (limit : Nat) (w : World) :
    ∃ calls, Calls (deleteRecent env chatId limit) w calls ∧
      deletionsOf env w.apiCalls.length calls =
        tryRows env chatId w.apiCalls.length (recentRows w.messages chatId limit) := by
  cases hc : sqlText chatId with
  | error e =>
      have hrows : recentRows w.messages chatId limit = [] := by rw [recentRows, hc]
      have hfetch : fetchRecentMessageIds w.messages chatId limit = .error e := by
        rw [fetchRecentMessageIds, hc]
        rfl
      have hrun : deleteRecent env chatId limit w = (.error e, w) :=
        Effect.bind_of_error (congrArg (·, w) hfetch)
      refine ⟨[], Calls.of_eq (by rw [hrun]), ?_⟩
      rw [hrows]
      rfl
  | ok c =>
      obtain ⟨text, hcalls, -⟩ := deleteRecent_calls env hc limit w
      refine ⟨_, hcalls, ?_⟩
      rw [deletionsOf_append,
        deletionsOf_rows env _ fun row hrow => sqlText_of_mem_recentRows hrow]
      simp [deletionsOf, ApiCall.deletion?]

/-- The three ways a `/del` with a chat can go. -/
theorem deleteHandler_eq (env : Env) (ctx : Context) {message chatId : PyVal} (args : List String)
    (hchat : getChatId message = .ok chatId) (htruthy : chatId.truthy = true) :
    deleteHandler env ctx message args =
      match deleteLimit env.unicode args with
      | none => sendMessage env chatId "عدد نامعتبر است. مثال: /del 100"
      | some limit =>
          if clampLimit limit = 0 then sendMessage env chatId "هیچ پیامی برای حذف انتخاب نشد."
          else deleteRecent env chatId (clampLimit limit) := by
  rw [deleteHandler, inChat_of_ok _ hchat, if_pos htruthy]
  rfl

/-- **Every attempt is accounted for.**  With a limit that can be read, `delete_handler`
tries the newest messages of the chat one after another, whatever becomes of each, and
then sends one message; if it has tried any, that is a report of how many are done and
how many are not. -/
theorem deleteHandler_accounts (env : Env) (ctx : Context) {message chatId : PyVal} {c : String}
    {args : List String} {l : Int} (hchat : getChatId message = .ok chatId)
    (htruthy : chatId.truthy = true) (hc : sqlText chatId = .ok (some c))
    (hargs : deleteLimit env.unicode args = some l) (w : World) :
    ∃ rows text, rows = (w.messages.filter fun row => row.chatId = c).take
        (max 0 (min l 10000)).toNat ∧
      (rows.length : Int) =
        min (max 0 (min l 10000)) (w.messages.countP fun row => row.chatId = c) ∧
      (deleteHandler env ctx message args w).2 =
        { w with apiCalls := w.apiCalls ++
          ((rows.map (·.messageId)).map (fun id => .deleteMessage chatId (.str id)) ++
            [.sendMessage chatId text none]) } ∧
      (rows ≠ [] → Accounts env chatId w.apiCalls.length (rows.map (·.messageId)) text) := by
  have hrows : (w.messages.filter fun row => row.chatId = c).take (clampLimit l) =
      recentRows w.messages chatId (clampLimit l) := by rw [recentRows, hc]
  have hlength :
      (((w.messages.filter fun row => row.chatId = c).take (clampLimit l)).length : Int) =
        min (max 0 (min l 10000)) (w.messages.countP fun row => row.chatId = c) := by
    rw [List.length_take, ← List.countP_eq_length_filter, clampLimit]
    omega
  rw [deleteHandler_eq env ctx args hchat htruthy, hargs]
  by_cases hzero : clampLimit l = 0
  · simp only [hzero, if_true]
    rw [hzero] at hlength
    refine ⟨[], _, ?_, hlength, sendMessage_calls env chatId _ w, fun h => absurd rfl h⟩
    rw [clampLimit] at hzero
    rw [hzero, List.take_zero]
  · simp only [hzero, if_false]
    obtain ⟨text, hcalls, haccounts⟩ := deleteRecent_calls env hc (clampLimit l) w
    rw [← hrows] at hcalls haccounts
    exact ⟨_, text, rfl, hlength, hcalls, haccounts⟩

/-- The second deletion is answered with a list. -/
def secondFails : Env where
  __ := Env.plain
  reply n _ := .ok (if n = 1 then .list [] else .dict [])

/-- The messages of two chats. -/
def twoChatsLog : World where
  rules := {}
  messages := [⟨"c0", "m3", none, none⟩, ⟨"c1", "m2", none, none⟩, ⟨"c0", "m1", none, none⟩,
    ⟨"c0", "m0", none, none⟩]

theorem deleteHandler_accounts_secondFails :
    (deleteHandler secondFails {} (.dict [("chat_id", .str "c0")]) ["2"] twoChatsLog).2.apiCalls =
      [.deleteMessage (.str "c0") (.str "m3"), .deleteMessage (.str "c0") (.str "m1"),
        .sendMessage (.str "c0") (deletionReport 1 1) none] := by
  obtain ⟨rows, text, rfl, -, hrun, haccounts⟩ := @deleteHandler_accounts secondFails {}
    (.dict [("chat_id", .str "c0")]) (.str "c0") "c0" ["2"] 2 rfl rfl rfl rfl twoChatsLog
  obtain ⟨deleted, failed, rfl, hsum, hdeleted⟩ := haccounts (by decide)
  obtain rfl : deleted = 1 := hdeleted
  obtain rfl : failed = 1 := Nat.add_left_cancel hsum
  rw [hrun]
  rfl

/-- **One command.**  All that `delete_handler` changes is the calls it has made,
and the deletions among them are its tries. -/
theorem deleteHandler_deletions (env : Env) (ctx : Context) (message : PyVal) (args : List String)
    (w : World) :
    ∃ calls, Calls (deleteHandler env ctx message args) w calls ∧
      deletionsOf env w.apiCalls.length calls = tries env message args w := by
  unfold tries
  cases hchat : getChatId message with
  | error e =>
      have hrun : deleteHandler env ctx message args w = (.error e, w) :=
        Effect.bind_of_error (congrArg (·, w) hchat)
      exact ⟨[], Calls.of_eq (by rw [hrun]), rfl⟩
  | ok chatId =>
      cases htruthy : chatId.truthy with
      | false =>
          have hrun : deleteHandler env ctx message args = pure () := by
            rw [deleteHandler, inChat_of_ok _ hchat, htruthy]
            rfl
          exact ⟨[], Calls.of_eq (by rw [hrun]; rfl), by simp [htruthy, deletionsOf]⟩
      | true =>
          simp only [htruthy, if_true]
          rw [deleteHandler_eq env ctx args hchat htruthy]
          unfold delRows
          cases hlimit : deleteLimit env.unicode args with
          | none => exact ⟨_, sendMessage_calls env chatId _ w, rfl⟩
          | some limit =>
              by_cases hzero : clampLimit limit = 0
              · have hrows : recentRows w.messages chatId 0 = [] := by
                  unfold recentRows
                  split <;> simp
                simp only [hzero, if_true, hrows]
                exact ⟨_, sendMessage_calls env chatId _ w, rfl⟩
              · simp only [hzero, if_false]
                exact deleteRecent_deletions env chatId (clampLimit limit) w

/-! ## over time -/

/-- The world, and the deletions `/del` has tried in it so far, oldest first. -/
structure Purge where
  world : World
  deletions : List Deletion := []

namespace Purge

/-- What happens to the message log. -/
inductive Event where
  /-- `MessageLoggingPlugin` sees an update. -/
  | logged (env : Env) (ctx : Context) (update : PyVal)
  /-- `/del` is run. -/
  | del (env : Env) (ctx : Context) (message : PyVal) (args : List String)
  /-- The janitor comes round. -/
  | trimmed (limitPerChat : Int)

/-- What an event makes of the world, and the deletions it tries. -/
def step (s : Purge) : Event → Purge
  | .logged env ctx update => { s with world := (messageLoggingPlugin env ctx update s.world).2 }
  | .del env ctx message args =>
      let w := (deleteHandler env ctx message args s.world).2
      let calls := w.apiCalls.drop s.world.apiCalls.length
      { world := w, deletions := s.deletions ++ deletionsOf env s.world.apiCalls.length calls }
  | .trimmed limitPerChat =>
      { s with
        world := { s.world with
          messages := (trimMessagesPerChat s.world.messages limitPerChat).1 } }

/-- The second is a deletion of what the first has deleted. -/
def Again (d d' : Deletion) : Prop :=
  d.done = true ∧ d.chatId = d'.chatId ∧ d.messageId = d'.messageId

/-- No message that was deleted is passed to `delete_message` again. -/
def NotAgain (deletions : List Deletion) : Prop :=
  deletions.Pairwise fun d d' => ¬ Again d d'

/-- The rows that a `/del` goes through hold no message that has been deleted
before, and none twice unless its deletion failed. -/
def Fresh (s : Purge) : Event → Prop
  | .del env _ message args =>
      (∀ d ∈ s.deletions, ∀ d' ∈ tries env message args s.world, ¬ Again d d') ∧
        (tries env message args s.world).Pairwise fun d d' => ¬ Again d d'
  | _ => True

/-- A `/del` adds its tries, and changes nothing but the calls. -/
theorem step_del (s : Purge) (env : Env) (ctx : Context) (message : PyVal) (args : List String) :
    (s.step (.del env ctx message args)).deletions =
        s.deletions ++ tries env message args s.world ∧
      (s.step (.del env ctx message args)).world.messages = s.world.messages := by
  obtain ⟨calls, hcalls, htries⟩ := deleteHandler_deletions env ctx message args s.world
  unfold Calls at hcalls
  simp only [step, hcalls, List.drop_left, htries, and_self]

/-- **Step lemma.** -/
theorem step_notAgain_iff (s : Purge) (e : Event) :
    NotAgain (s.step e).deletions ↔ NotAgain s.deletions ∧ s.Fresh e := by
  cases e with
  | logged env ctx update => exact (and_iff_left trivial).symm
  | trimmed limitPerChat => exact (and_iff_left trivial).symm
  | del env ctx message args =>
      rw [(step_del s env ctx message args).1, NotAgain, List.pairwise_append]
      unfold Fresh NotAgain
      tauto

/-- **Progress.**  In every run, `/del` never goes back to a message it has deleted
if and only if every `/del` finds fresh rows only. -/
theorem notAgain_iff_fresh (w : World) (es : List Event) :
    NotAgain (es.foldl step { world := w }).deletions ↔
      Along (fun s e => some (step s e)) Fresh { world := w } es := by
  have hrun : ∀ s : Purge, NotAgain (es.foldl step s).deletions ↔
      NotAgain s.deletions ∧ Along (fun s e => some (step s e)) Fresh s es := by
    induction es with
    | nil => simp
    | cons e es ih =>
        intro s
        rw [List.foldl_cons, ih, step_notAgain_iff, along_cons Fresh rfl, and_assoc]
  rw [hrun]
  exact and_iff_right List.Pairwise.nil

/-- Which messages a `/del` tries does not depend on when it starts calling. -/
theorem map_tryRows (env : Env) (chatId : PyVal) (first first' : Nat) (rows : List MessageRow) :
    (tryRows env chatId first rows).map (fun d => (d.chatId, d.messageId)) =
      (tryRows env chatId first' rows).map fun d => (d.chatId, d.messageId) := by
  induction rows generalizing first first' with
  | nil => rfl
  | cons row rows ih =>
      simp only [tryRows, List.map_cons]
      rw [ih (first + 1) (first' + 1)]

/-- **The same again.**  After a `/del` that has deleted something, the same
command goes back to it: however often it is given, it does not get any further. -/
theorem del_twice_not_fresh (s : Purge) (env : Env) (ctx ctx' : Context) (message : PyVal)
    (args : List String) (h : ∃ d ∈ tries env message args s.world, d.done = true) :
    ¬ (s.step (.del env ctx message args)).Fresh (.del env ctx' message args) := by
  rintro ⟨hbefore, -⟩
  obtain ⟨d, hd, hdone⟩ := h
  obtain ⟨hdeletions, hmessages⟩ := step_del s env ctx message args
  have hsame : (tries env message args (s.step (.del env ctx message args)).world).map
      (fun d => (d.chatId, d.messageId)) =
      (tries env message args s.world).map fun d => (d.chatId, d.messageId) := by
    unfold tries
    rw [hmessages]
    split
    · split
      · exact map_tryRows env _ _ _ _
      · rfl
    · rfl
  have hid : (d.chatId, d.messageId) ∈
      (tries env message args (s.step (.del env ctx message args)).world).map
        fun d => (d.chatId, d.messageId) := by
    rw [hsame]
    exact List.mem_map_of_mem hd
  obtain ⟨d', hd', heq⟩ := List.mem_map.mp hid
  rw [Prod.mk.injEq] at heq
  have hmem : d ∈ (s.step (.del env ctx message args)).deletions := by
    rw [hdeletions]
    exact List.mem_append_right _ hd
  exact hbefore d hmem d' hd' ⟨hdone, heq.1.symm, heq.2.symm⟩

/-! ### two messages, deleted one at a time -/

/-- A message comes in. -/
def arrival (messageId : String) : Event :=
  .logged .plain {}
    (.dict [("message", .dict [("chat_id", .str "c0"), ("message_id", .str messageId)])])

/-- `/del 1`, in the chat. -/
def delOne : Event := .del .plain {} (.dict [("chat_id", .str "c0")]) ["1"]

/-- The second `/del 1` deletes the new message again, and the old one stays. -/
theorem delOne_again :
    ([arrival "old", arrival "new", delOne, delOne].foldl step
        { world := { rules := {} } }).deletions =
        [⟨"c0", "new", true⟩, ⟨"c0", "new", true⟩] ∧
      ¬ NotAgain ([arrival "old", arrival "new", delOne, delOne].foldl step
        { world := { rules := {} } }).deletions := by
  have hrun : ([arrival "old", arrival "new", delOne, delOne].foldl step
      { world := { rules := {} } }).deletions =
      [⟨"c0", "new", true⟩, ⟨"c0", "new", true⟩] := rfl
  refine ⟨hrun, ?_⟩
  rw [hrun]
  intro h
  exact (List.pairwise_cons.mp h).1 _ List.mem_cons_self ⟨rfl, rfl, rfl⟩

end Purge

end RubicaBot
