import Mathlib.Data.Finset.Card
import Mathlib.Data.List.Sort
import Mathlib.Data.String.Basic
import RubicaBot.Groups

/-!
# RubicaBot.Database

The tables the plugins work on, and the methods of `app/db/repository.py` they
call.

Every id column is TEXT and is bound as the one of `groups` is (`sqlText`).
`Rules` is the part of the database that the decisions of the plugins depend on.
The cache in front of `groups` is left out here, and comes back with `CachedTables`.  A
dispatch that asks for the settings of string ids only cannot be told from the one with
the cache (`Cached.processJob_matches`); on ids that are not `Congruent` the cache shows
(`Repository.stale_through_number`).
-/

namespace RubicaBot

open Py

/-- The value of a column that is NOT NULL. -/
def sqlRequired (v : PyVal) : Except PyError String := do
  match ← sqlText v with
  | some s => return s
  | none => throw .sqliteIntegrity

/-- A row of `filters`, as `list_filters` returns it. -/
structure Filter where
  word : String
  isWhitelist : Bool
  regexEnabled : Bool
  deriving DecidableEq

/-- The tables `groups`, `admins` and `filters`, the last by its primary key
`(chat_id, word)`, with `is_whitelist` and `regex_enabled`. -/
structure Rules where
  groups : Groups := ∅
  admins : Finset (String × String) := ∅
  filters : Dict (String × String) (Bool × Bool) := ∅

namespace Rules

/-- `get_group` without the cache it asks first, which hashes the id.  With the cache it is
`Repository.getGroup`, and gives the same answer to a string (`Cached.getGroup_answers`). -/
def getGroup (rules : Rules) (chatId : PyVal) : Except PyError GroupSettings := do
  let _ ← chatId.dictKey
  rules.groups.select chatId

/-- For the chat ids of the API, which are strings, this is the table's view. -/
theorem getGroup_str (rules : Rules) (chatId : String) :
    rules.getGroup (.str chatId) = .ok (rules.groups.settings chatId) :=
  rules.groups.select_str chatId

/-- `set_group_flag`. -/
def setGroupFlag (rules : Rules) (chatId : PyVal) (key : Flag) (value : Bool) :
    Except PyError Rules := do
  match ← sqlText chatId with
  | none => return rules
  | some t => return { rules with groups := rules.groups.update t key value }

/-- `is_admin`. -/
def isAdmin (rules : Rules) (chatId userId : PyVal) : Except PyError Bool := do
  let chat ← sqlText chatId
  let user ← sqlText userId
  match chat, user with
  | some c, some u => return decide ((c, u) ∈ rules.admins)
  | _, _ => return false

/-- `count_admins`. -/
def countAdmins (rules : Rules) (chatId : PyVal) : Except PyError Nat := do
  match ← sqlText chatId with
  | some c => return (rules.admins.filter fun row => row.1 = c).card
  | none => return 0

/-- `add_filter`. -/
def addFilter (rules : Rules) (chatId : PyVal) (word : String) (isWhitelist regexEnabled : Bool) :
    Except PyError Rules := do
  let c ← sqlRequired chatId
  return { rules with filters := rules.filters.insert (c, word) (isWhitelist, regexEnabled) }

/-- `remove_filter`. -/
def removeFilter (rules : Rules) (chatId : PyVal) (word : String) : Except PyError Rules := do
  match ← sqlText chatId with
  | some c => return { rules with filters := rules.filters.erase (c, word) }
  | none => return rules

/-- `list_filters`: `ORDER BY word`. -/
def listFilters (rules : Rules) (chatId : PyVal) : Except PyError (List Filter) := do
  match ← sqlText chatId with
  | some c =>
      let rows := rules.filters.entries.filter fun e => e.1.1 = c
      return (rows.map fun e => ⟨e.1.2, e.2.1, e.2.2⟩).insertionSort (·.word ≤ ·.word)
  | none => return []

/-! ## what a write changes -/

/-- `set_group_flag` writes if the chat id can be bound. -/
theorem setGroupFlag_eq_ok {rules rules' : Rules} {chatId : PyVal} {key : Flag} {value : Bool}
    (h : rules.setGroupFlag chatId key value = .ok rules') :
    ∃ t, sqlText chatId = .ok t ∧ rules'.admins = rules.admins ∧
      ∀ c, t ≠ some c → rules'.groups.settings c = rules.groups.settings c := by
  unfold setGroupFlag at h
  cases ht : sqlText chatId with
  | error e =>
      rw [ht] at h
      cases h
  | ok t =>
      rw [ht] at h
      refine ⟨t, rfl, ?_⟩
      cases t with
      | none =>
          cases h
          exact ⟨rfl, fun _ _ => rfl⟩
      | some t =>
          cases h
          refine ⟨rfl, fun c hc => ?_⟩
          have hne : ¬ (c = t ∧ t ∈ rules.groups) := fun hct => hc (congrArg some hct.1.symm)
          rw [Groups.settings_update, if_neg hne]

/-- A chat id whose settings can be read can be bound. -/
theorem exists_sqlText_of_getGroup {rules : Rules} {chatId : PyVal} {settings : GroupSettings}
    (h : rules.getGroup chatId = .ok settings) : ∃ t, sqlText chatId = .ok t := by
  obtain ⟨key, -, hselect⟩ := Effect.exists_of_bind_eq_ok h
  obtain ⟨t, ht, -⟩ := Groups.exists_sqlText_of_select hselect
  exact ⟨t, ht⟩

/-- And the other way round. -/
theorem exists_getGroup_of_sqlText (rules : Rules) {chatId : PyVal} {t : Option String}
    (h : sqlText chatId = .ok t) : ∃ settings, rules.getGroup chatId = .ok settings := by
  obtain ⟨key, hkey⟩ := exists_dictKey_of_sqlText h
  exact ⟨_, by rw [getGroup, hkey]; exact rules.groups.select_of_sqlText h⟩

/-- Whether a user is an admin of such a chat can be asked, if the user's id is a
string. -/
theorem exists_isAdmin_of_getGroup {rules : Rules} {chatId : PyVal} {settings : GroupSettings}
    (h : rules.getGroup chatId = .ok settings) (userId : String) :
    ∃ b, rules.isAdmin chatId (.str userId) = .ok b := by
  obtain ⟨t, ht⟩ := exists_sqlText_of_getGroup h
  rw [isAdmin, ht]
  cases t with
  | none => exact ⟨false, rfl⟩
  | some c => exact ⟨_, rfl⟩

end Rules

/-- A row of `messages`. -/
structure MessageRow where
  chatId : String
  messageId : String
  senderId : Option String
  text : Option String
  deriving DecidableEq

/-- `save_message`; the newest row is the head. -/
def saveMessage (messages : List MessageRow) (chatId messageId senderId text : PyVal) :
    Except PyError (List MessageRow) := do
  let chat ← sqlText chatId
  let message ← sqlText messageId
  let sender ← sqlText senderId
  let body ← sqlText text
  match chat, message with
  | some chat, some message => return ⟨chat, message, sender, body⟩ :: messages
  | _, _ => throw .sqliteIntegrity

/-- `fetch_recent_message_ids`. -/
def fetchRecentMessageIds (messages : List MessageRow) (chatId : PyVal) (limit : Nat) :
    Except PyError (List String) := do
  match ← sqlText chatId with
  | some c =>
      return ((messages.filter fun row => row.chatId = c).take limit).map (·.messageId)
  | none => return []

/-- The rows with fewer than `limit` newer ones in their chat, where `newer` are the
chats of the newer rows; a negative limit is none. -/
def keepNewest (limit : Int) (newer : List String) : List MessageRow → List MessageRow
  | [] => []
  | row :: rows =>
      if limit < 0 ∨ newer.count row.chatId < limit then
        row :: keepNewest limit (row.chatId :: newer) rows
      else keepNewest limit (row.chatId :: newer) rows

/-- `trim_messages_per_chat`, and how many rows it deleted. -/
def trimMessagesPerChat (messages : List MessageRow) (limitPerChat : Int) :
    List MessageRow × Nat :=
  let kept := keepNewest limitPerChat [] messages
  (kept, messages.length - kept.length)

/-- A row of `incoming_updates`. -/
structure IncomingRow where
  jobId : String
  receivedAt : Instant
  chatId : Option String
  messageId : Option String
  senderId : Option String
  updateType : Option String
  text : Option String
  rawPayload : Option String

end RubicaBot
