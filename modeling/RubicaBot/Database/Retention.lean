import Mathlib.Data.List.Dedup
import Mathlib.Data.Int.Interval
import RubicaBot.Database
import RubicaBot.Newest

/-!
# RubicaBot.Database.Retention

The `messages` table with its ids, and the two commands that trim it: the method of the
repository, and `rubikactl db cleanup`.

Both delete chat by chat, each time all but what a sub-select of the same table finds.
One such statement keeps the newest rows of its chat and all rows of the others
(`deleteOlder_rows`), so the loop keeps the newest rows of every chat
(`trimMessagesPerChat_rows`).  The log that the plugins work on is this table, newest row
first (`log_trimMessagesPerChat`).
-/

namespace RubicaBot

open Py Newest

/-- A row of `messages` with its primary key. -/
structure StoredMessage where
  id : Int
  row : MessageRow
  deriving DecidableEq

/-- The table: the ids differ, and are what AUTOINCREMENT gives out. -/
@[ext]
structure MessageTable where
  rows : List StoredMessage
  nodup : (rows.map StoredMessage.id).Nodup
  range : ∀ r ∈ rows, 1 ≤ r.id ∧ r.id < 2 ^ 63

/-- An integer as a parameter of a statement. -/
def bindInt (n : Int) : Except PyError Int :=
  if -(2 ^ 63) ≤ n ∧ n < 2 ^ 63 then .ok n else .error .overflowError

/-- `LIMIT ?`; a negative limit is none. -/
def limited {ρ : Type} (limit : Int) (rows : List ρ) : List ρ :=
  if limit < 0 then rows else rows.take limit.toNat

namespace MessageTable

/-- `SELECT DISTINCT chat_id FROM messages`. -/
def chatIds (t : MessageTable) : List String := (t.rows.map (·.row.chatId)).dedup

/-- `SELECT … FROM messages WHERE chat_id = ? ORDER BY id DESC`. -/
def newestFirst (t : MessageTable) (chatId : String) : List StoredMessage :=
  descending StoredMessage.id (t.rows.filter fun r => r.row.chatId = chatId)

/-- `fetch_recent_message_ids`. -/
def fetchRecentMessageIds (t : MessageTable) (chatId : String) (limit : Int) :
    Except PyError (List String) := do
  let limit ← bindInt limit
  return (limited limit (t.newestFirst chatId)).map (·.row.messageId)

/-- The rows that meet `p` stay. -/
def filter (t : MessageTable) (p : StoredMessage → Bool) : MessageTable where
  rows := t.rows.filter p
  nodup := t.nodup.sublist (List.filter_sublist.map _)
  range := fun r hr => t.range r (List.mem_of_mem_filter hr)

/-- `DELETE FROM messages WHERE chat_id = ? AND id NOT IN (…)`, and how many rows are
deleted. -/
def deleteOlder (t : MessageTable) (chatId : String) (limit : Int) :
    Except PyError (Nat × MessageTable) := do
  let limit ← bindInt limit
  let newest := (limited limit (t.newestFirst chatId)).map (·.id)
  let older := fun r : StoredMessage => decide (r.row.chatId = chatId ∧ r.id ∉ newest)
  return ((t.rows.filter older).length, t.filter fun r => !older r)

/-- The loop over the chats, with the rows deleted so far. -/
def trimChats (limitPerChat : Int) :
    List String → Nat → MessageTable → Except PyError (Nat × MessageTable)
  | [], totalDeleted, t => return (totalDeleted, t)
  | chatId :: chatIds, totalDeleted, t => do
      let (rowcount, t) ← t.deleteOlder chatId limitPerChat
      trimChats limitPerChat chatIds (totalDeleted + rowcount) t

/-- `trim_messages_per_chat`; what an exception interrupts is rolled back. -/
def trimMessagesPerChat (t : MessageTable) (limitPerChat : Int) :
    Except PyError Nat × MessageTable :=
  match trimChats limitPerChat t.chatIds 0 t with
  | .ok (totalDeleted, t') => (.ok totalDeleted, t')
  | .error e => (.error e, t)

end MessageTable

/-- `time.time() - seconds` for an integer, which is converted to a float. -/
def secondsBefore (now : Instant) (seconds : Int) : Except PyError Instant :=
  if FitsFloat seconds then .ok (now - seconds) else .error .overflowError

namespace MessageTable

variable {t : MessageTable} {n : Int}

/-! ## one statement -/

/-- An integer that can be bound is bound as it is. -/
theorem bindInt_eq_ok {n limit : Int} (h : bindInt n = .ok limit) : limit = n := by
  unfold bindInt at h
  split at h <;> cases h
  rfl

/-- A limit that is not negative. -/
theorem limited_of_nonneg {ρ : Type} (hn : 0 ≤ n) (rows : List ρ) :
    limited n rows = rows.take n.toNat := if_neg (not_lt.mpr hn)

/-- The sub-select finds the newest rows of the chat. -/
theorem mem_newestFirst_take {r : StoredMessage} (hr : r ∈ t.rows) (n : Nat) :
    r.id ∈ ((t.newestFirst r.row.chatId).take n).map (·.id) ↔
      newer (·.row.chatId) StoredMessage.id t.rows r < n := by
  have hdistinct : Distinct StoredMessage.id t.rows := t.nodup
  have htake := @take_descending _ _ _ _ _ (fun r => r.row.chatId) _ _ hdistinct r.row.chatId n
  rw [newestFirst, htake, List.mem_map]
  constructor
  · intro h
    obtain ⟨r', hr', hid⟩ := h
    obtain ⟨hmem, hnewer⟩ := List.mem_filter.mp hr'
    have hrows := (List.mem_filter.mp ((descending_perm _).mem_iff.mp hmem)).1
    obtain rfl := List.inj_on_of_nodup_map t.nodup hrows hr hid
    exact of_decide_eq_true hnewer
  · intro h
    refine ⟨r, List.mem_filter.mpr ⟨?_, decide_eq_true h⟩, rfl⟩
    exact (descending_perm _).mem_iff.mpr (List.mem_filter.mpr ⟨hr, decide_eq_true rfl⟩)

/-- What a statement keeps: of its chat the newest, and all of the others. -/
theorem deleteOlder_rows (hn : 0 ≤ n) {chatId : String} {rowcount : Nat} {t' : MessageTable}
    (h : t.deleteOlder chatId n = .ok (rowcount, t')) :
    t'.rows = newestOf (·.row.chatId) StoredMessage.id n.toNat [chatId] t.rows ∧
      rowcount + t'.rows.length = t.rows.length := by
  unfold deleteOlder at h
  cases hbind : bindInt n with
  | error e =>
      rw [hbind] at h
      cases h
  | ok limit =>
      rw [hbind, bindInt_eq_ok hbind] at h
      cases h
      rw [limited_of_nonneg hn]
      refine ⟨List.filter_congr fun r hr => ?_, ?_⟩
      · rw [← decide_not]
        refine decide_eq_decide.mpr ?_
        rw [List.mem_singleton, not_and, not_not]
        refine forall_congr' fun hchat => ?_
        rw [← hchat]
        exact mem_newestFirst_take hr n.toNat
      · exact (List.length_eq_length_filter_add _).symm

/-! ## the loop -/

/-- The loop over the chats keeps the newest rows of each. -/
theorem trimChats_rows (hn : 0 ≤ n) {chatIds : List String} (hnodup : chatIds.Nodup)
    {deleted total : Nat} {t' : MessageTable}
    (h : trimChats n chatIds deleted t = .ok (total, t')) :
    t'.rows = newestOf (·.row.chatId) StoredMessage.id n.toNat chatIds t.rows ∧
      total + t'.rows.length = deleted + t.rows.length := by
  induction chatIds generalizing deleted t with
  | nil =>
      cases h
      exact ⟨by simp [newestOf], rfl⟩
  | cons chatId chatIds ih =>
      obtain ⟨hnot, hnodup⟩ := List.nodup_cons.mp hnodup
      unfold trimChats at h
      cases hone : t.deleteOlder chatId n with
      | error e =>
          rw [hone] at h
          cases h
      | ok result =>
          obtain ⟨rowcount, t₁⟩ := result
          rw [hone] at h
          obtain ⟨hrows₁, hcount₁⟩ := deleteOlder_rows hn hone
          obtain ⟨hrows, hcount⟩ := ih hnodup h
          refine ⟨?_, by omega⟩
          rw [hrows, hrows₁]
          exact newestOf_cons hnot _ _

/-- The loop fails only on a limit that cannot be bound. -/
theorem trimChats_isOk (hn : 0 ≤ n) (hlt : n < 2 ^ 63) (chatIds : List String) (deleted : Nat)
    (t : MessageTable) : ∃ result, trimChats n chatIds deleted t = .ok result := by
  have hbind : bindInt n = .ok n := if_pos ⟨by omega, hlt⟩
  induction chatIds generalizing deleted t with
  | nil => exact ⟨_, rfl⟩
  | cons chatId chatIds ih =>
      unfold trimChats deleteOlder
      rw [hbind]
      exact ih _ _

/-- There are fewer rows than row ids. -/
theorem length_lt (t : MessageTable) : t.rows.length < 2 ^ 63 := by
  have hsub : (t.rows.map StoredMessage.id).toFinset ⊆ Finset.Ioo (0 : Int) (2 ^ 63) := by
    intro id hid
    obtain ⟨r, hr, rfl⟩ := List.mem_map.mp (List.mem_toFinset.mp hid)
    have hrange := t.range r hr
    exact Finset.mem_Ioo.mpr ⟨by omega, hrange.2⟩
  have hcard := Finset.card_le_card hsub
  rw [List.toFinset_card_of_nodup t.nodup, List.length_map, Int.card_Ioo] at hcard
  omega

/-- **What is kept.**  The newest rows of every chat; also when the limit cannot be bound,
as then it is more than there can be rows. -/
theorem trimMessagesPerChat_rows (t : MessageTable) (hn : 0 ≤ n) :
    (t.trimMessagesPerChat n).2.rows =
      newest (·.row.chatId) StoredMessage.id n.toNat t.rows := by
  unfold trimMessagesPerChat
  cases hloop : trimChats n t.chatIds 0 t with
  | ok result =>
      obtain ⟨total, t'⟩ := result
      rw [(trimChats_rows hn (List.nodup_dedup _) hloop).1]
      exact newestOf_eq_newest fun r hr =>
        List.mem_dedup.mpr (List.mem_map_of_mem hr)
  | error e =>
      have hlength := t.length_lt
      by_cases hlt : n < 2 ^ 63
      · obtain ⟨result, hok⟩ := trimChats_isOk hn hlt t.chatIds 0 t
        rw [hloop] at hok
        cases hok
      · have hall : t.rows.length ≤ n.toNat := by omega
        exact (newest_eq_self hall).symm

/-! ## what the rest of the program sees -/

/-- The messages as the plugins see them, the newest first. -/
def log (t : MessageTable) : List MessageRow :=
  (descending StoredMessage.id t.rows).map (·.row)

/-- `seen` are the chats of the rows before these. -/
theorem keepNewest_map {limit : Int} (hlimit : 0 ≤ limit) (seen : List String)
    {rows : List StoredMessage} (h : Descends StoredMessage.id rows) :
    keepNewest limit seen (rows.map (·.row)) =
      (rows.filter fun r => decide (seen.count r.row.chatId +
        newer (·.row.chatId) StoredMessage.id rows r < limit.toNat)).map (·.row) := by
  induction rows generalizing seen with
  | nil => rfl
  | cons r rows ih =>
      obtain ⟨hr, hrows⟩ := List.pairwise_cons.mp h
      have hfirst : newer (·.row.chatId) StoredMessage.id (r :: rows) r = 0 := by
        rw [newer, List.countP_eq_zero]
        intro r' hr'
        obtain rfl | hr' := List.mem_cons.mp hr'
        · simp [isNewer]
        · simp [isNewer, (hr r' hr').le]
      have hrest : (rows.filter fun r' => decide (seen.count r'.row.chatId +
          newer (·.row.chatId) StoredMessage.id (r :: rows) r' < limit.toNat)) =
          rows.filter fun r' => decide ((r.row.chatId :: seen).count r'.row.chatId +
            newer (·.row.chatId) StoredMessage.id rows r' < limit.toNat) := by
        refine List.filter_congr fun r' hr' => ?_
        have hlt := hr r' hr'
        have hcount : newer (·.row.chatId) StoredMessage.id (r :: rows) r' =
            newer (·.row.chatId) StoredMessage.id rows r' +
              if r.row.chatId = r'.row.chatId then 1 else 0 := by
          simp [newer, List.countP_cons, isNewer, hlt]
        rw [hcount, List.count_cons]
        simp only [beq_iff_eq]
        congr 2
        omega
      rw [List.map_cons, keepNewest, ih _ hrows, List.filter_cons, hfirst, hrest]
      by_cases hkept : seen.count r.row.chatId < limit.toNat
      · rw [if_pos (by omega), if_pos (by simpa using hkept), List.map_cons]
      · rw [if_neg (by omega), if_neg (by simpa using hkept)]

/-- Trimming the table trims the log. -/
theorem log_trimMessagesPerChat (t : MessageTable) (hn : 0 ≤ n) :
    (t.trimMessagesPerChat n).2.log = (RubicaBot.trimMessagesPerChat t.log n).1 := by
  have hdistinct : Distinct StoredMessage.id t.rows := t.nodup
  have hdescends := hdistinct.descends
  have hsame : ∀ r, newer (·.row.chatId) StoredMessage.id (descending StoredMessage.id t.rows) r =
      newer (·.row.chatId) StoredMessage.id t.rows r := fun r => (descending_perm _).countP_eq _
  rw [log, trimMessagesPerChat_rows t hn, newest, descending_filter hdistinct,
    RubicaBot.trimMessagesPerChat, log]
  rw [keepNewest_map hn [] hdescends]
  simp [hsame]

/-- What is fetched from the table is what is fetched from the log. -/
theorem fetchRecentMessageIds_log (t : MessageTable) (chatId : String) {k : Int} (hk : 0 ≤ k)
    (hlt : k < 2 ^ 63) : t.fetchRecentMessageIds chatId k =
      RubicaBot.fetchRecentMessageIds t.log (.str chatId) k.toNat := by
  have hdistinct : Distinct StoredMessage.id t.rows := t.nodup
  have hbind : bindInt k = .ok k := if_pos ⟨by omega, hlt⟩
  have hrows : (t.log.filter fun row => row.chatId = chatId) =
      (t.newestFirst chatId).map (·.row) := by
    rw [log, List.filter_map, newestFirst, descending_filter hdistinct]
    rfl
  have htable : t.fetchRecentMessageIds chatId k =
      .ok ((limited k (t.newestFirst chatId)).map (·.row.messageId)) := by
    rw [fetchRecentMessageIds, hbind]
    rfl
  have hlog : RubicaBot.fetchRecentMessageIds t.log (.str chatId) k.toNat =
      .ok (((t.log.filter fun row => row.chatId = chatId).take k.toNat).map (·.messageId)) := rfl
  rw [htable, hlog, hrows, limited_of_nonneg hk, ← List.map_take, List.map_map]
  rfl

end MessageTable

end RubicaBot
