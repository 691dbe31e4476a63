import RubicaBot.Dedup
import RubicaBot.Effect
import RubicaBot.PyVal

/-!
# RubicaBot.Groups

The `groups` table of `app/db/migrations.py` and the statements
`app/db/repository.py` runs on it.

A row has the defaults of the schema; a chat without a row has the settings
`get_group` makes up for it.  `settings` is the view both give: a total map from
chats to `GroupSettings`.

Chat ids come from untrusted payloads, so they are bound as values of any type.
The id column is TEXT, so what reaches a statement is the text SQLite converts
the value to (`sqlText`), and some values cannot be bound at all.
-/

namespace RubicaBot

open Py

/-- The text a value is stored as, and compared with, in a TEXT column; `none`
is NULL. -/
def sqlText : PyVal → Except PyError (Option String)
  | .none => .ok none
  | .bool b => .ok (some (if b then "1" else "0"))
  | .int i =>
      if -(2 ^ 63) ≤ i ∧ i < 2 ^ 63 then .ok (some (toString i)) else .error .overflowError
  | .float x => .ok x.sqlText
  | .str s => .ok (some s)
  | .list _ => .error .sqliteBinding
  | .dict _ => .error .sqliteBinding

/-- What can be bound can be hashed. -/
theorem exists_dictKey_of_sqlText {v : PyVal} {t : Option String} (h : sqlText v = .ok t) :
    ∃ key, v.dictKey = .ok key := by
  cases v with
  | float x => cases hx : x.integer <;> simp [PyVal.dictKey, hx]
  | list xs => cases h
  | dict entries => cases h
  | _ => exact ⟨_, rfl⟩

/-- The boolean flag columns of `groups`. -/
inductive Flag where
  | antiLink
  | antiFlood
  | antiSpam
  | antiBadwords
  | antiForward
  deriving DecidableEq, Repr

/-- A row of `groups`, with the column defaults. -/
structure GroupRow where
  title : Option String := none
  antiLink : Int := 1
  antiFlood : Int := 0
  antiSpam : Int := 0
  antiBadwords : Int := 0
  antiForward : Int := 0
  floodLimit : Int := 6

/-- `GroupSettings`, with a chat id of whatever type it was asked for with. -/
structure GroupSettings where
  chatId : PyVal
  title : Option String
  antiLink : Bool
  antiFlood : Bool
  antiSpam : Bool
  antiBadwords : Bool
  antiForward : Bool
  floodLimit : Int

/-- `UPDATE groups SET {key} = ?`. -/
def GroupRow.setFlag (row : GroupRow) (key : Flag) (value : Bool) : GroupRow :=
  let stored : Int := if value then 1 else 0
  match key with
  | .antiLink => { row with antiLink := stored }
  | .antiFlood => { row with antiFlood := stored }
  | .antiSpam => { row with antiSpam := stored }
  | .antiBadwords => { row with antiBadwords := stored }
  | .antiForward => { row with antiForward := stored }

/-- The settings `get_group` reads from a row. -/
def GroupRow.settings (row : GroupRow) (chatId : String) : GroupSettings where
  chatId := .str chatId
  title := row.title
  antiLink := row.antiLink != 0
  antiFlood := row.antiFlood != 0
  antiSpam := row.antiSpam != 0
  antiBadwords := row.antiBadwords != 0
  antiForward := row.antiForward != 0
  floodLimit := row.floodLimit

namespace GroupSettings

/-- The settings `get_group` makes up when there is no row. -/
def default (chatId : PyVal) : GroupSettings where
  chatId := chatId
  title := none
  antiLink := true
  antiFlood := false
  antiSpam := false
  antiBadwords := false
  antiForward := false
  floodLimit := 6

/-- The flag that `key` names. -/
def flag (s : GroupSettings) : Flag → Bool
  | .antiLink => s.antiLink
  | .antiFlood => s.antiFlood
  | .antiSpam => s.antiSpam
  | .antiBadwords => s.antiBadwords
  | .antiForward => s.antiForward

/-- With that flag set. -/
def setFlag (s : GroupSettings) (key : Flag) (value : Bool) : GroupSettings :=
  match key with
  | .antiLink => { s with antiLink := value }
  | .antiFlood => { s with antiFlood := value }
  | .antiSpam => { s with antiSpam := value }
  | .antiBadwords => { s with antiBadwords := value }
  | .antiForward => { s with antiForward := value }

@[simp] theorem flag_setFlag_same (s : GroupSettings) (key : Flag) (value : Bool) :
    (s.setFlag key value).flag key = value := by cases key <;> rfl

/-- Writing the value a flag has changes nothing. -/
theorem setFlag_flag (s : GroupSettings) (key : Flag) : s.setFlag key (s.flag key) = s := by
  cases key <;> rfl

end GroupSettings

/-- A flag that is written to the row is read from it. -/
theorem GroupRow.settings_setFlag (row : GroupRow) (key : Flag) (value : Bool) (chatId : String) :
    (row.setFlag key value).settings chatId = (row.settings chatId).setFlag key value := by
  cases key <;> cases value <;> rfl

/-- The table, by its primary key. -/
abbrev Groups := Dict String GroupRow

namespace Groups

/-- `INSERT … ON CONFLICT(chat_id) DO UPDATE SET title = excluded.title`. -/
def upsert (groups : Groups) (chatId : String) (title : Option String) : Groups :=
  match groups.lookup chatId with
  | none => groups.insert chatId { title := title }
  | some row => groups.insert chatId { row with title := title }

/-- `UPDATE groups SET … WHERE chat_id = ?`: a row that is not there is not
inserted. -/
def modify (groups : Groups) (chatId : String) (write : GroupRow → GroupRow) : Groups :=
  match groups.lookup chatId with
  | none => groups
  | some row => groups.insert chatId (write row)

/-- `UPDATE groups SET {key} = ?`. -/
def update (groups : Groups) (chatId : String) (key : Flag) (value : Bool) : Groups :=
  groups.modify chatId (·.setFlag key value)

/-- What `get_group` computes from the table. -/
def settings (groups : Groups) (chatId : String) : GroupSettings :=
  match groups.lookup chatId with
  | none => .default (.str chatId)
  | some row => row.settings chatId

/-- `upsert` changes the title of one chat, also when it inserts the row. -/
theorem settings_upsert (groups : Groups) (chatId : String) (title : Option String) (c : String) :
    (groups.upsert chatId title).settings c =
      if c = chatId then { groups.settings c with title := title } else groups.settings c := by
  by_cases hc : c = chatId
  · subst hc
    rw [if_pos rfl]
    unfold upsert settings
    cases h : groups.lookup c <;> simp [GroupRow.settings, GroupSettings.default]
  · rw [if_neg hc]
    unfold upsert settings
    cases h : groups.lookup chatId <;> simp [AList.lookup_insert_ne hc]

/-- `update` changes one flag of one chat, if the chat has a row. -/
theorem settings_update (groups : Groups) (chatId : String) (key : Flag) (value : Bool)
    (c : String) :
    (groups.update chatId key value).settings c =
      if c = chatId ∧ chatId ∈ groups then (groups.settings c).setFlag key value
      else groups.settings c := by
  unfold update modify
  cases h : groups.lookup chatId with
  | none =>
      have hmem : chatId ∉ groups := AList.lookup_eq_none.mp h
      simp [hmem]
  | some row =>
      have hmem : chatId ∈ groups := AList.lookup_isSome.mp (by rw [h]; rfl)
      by_cases hc : c = chatId
      · subst hc
        simp [settings, h, hmem, GroupRow.settings_setFlag]
      · simp [settings, hc, AList.lookup_insert_ne hc]

/-- The settings of a chat carry its id. -/
theorem settings_chatId (groups : Groups) (chatId : String) :
    (groups.settings chatId).chatId = .str chatId := by
  unfold settings
  cases groups.lookup chatId <;> rfl

/-! ## ids of any type -/

/-- The settings `get_group` makes of what it finds; NULL is equal to no id. -/
def find (groups : Groups) (chatId : PyVal) : Option String → GroupSettings
  | none => .default chatId
  | some text =>
      match groups.lookup text with
      | none => .default chatId
      | some row => row.settings text

/-- The `SELECT` of `get_group`, and the settings made of what it finds. -/
def select (groups : Groups) (chatId : PyVal) : Except PyError GroupSettings := do
  return groups.find chatId (← sqlText chatId)

/-- The `INSERT` of `upsert_group`.  A NULL id is in conflict with no row, and no
`SELECT` finds the row it is inserted with. -/
def insertOrRename (groups : Groups) (chatId : PyVal) (title : Option String) :
    Except PyError Groups := do
  match ← sqlText chatId with
  | none => return groups
  | some text => return groups.upsert text title

/-- If the id can be bound, there are settings. -/
theorem select_of_sqlText (groups : Groups) {chatId : PyVal} {t : Option String}
    (h : sqlText chatId = .ok t) : groups.select chatId = .ok (groups.find chatId t) := by
  rw [select, h]
  rfl

/-- And the other way round. -/
theorem exists_sqlText_of_select {groups : Groups} {chatId : PyVal} {settings : GroupSettings}
    (h : groups.select chatId = .ok settings) :
    ∃ t, sqlText chatId = .ok t ∧ settings = groups.find chatId t := by
  obtain ⟨t, ht, hfound⟩ := Effect.exists_of_bind_eq_ok h
  exact ⟨t, ht, (Except.ok.inj hfound).symm⟩

@[simp] theorem find_none (groups : Groups) (chatId : PyVal) :
    groups.find chatId none = .default chatId := rfl

/-- There is a row. -/
theorem find_of_lookup {groups : Groups} {text : String} {row : GroupRow}
    (h : groups.lookup text = some row) (chatId : PyVal) :
    groups.find chatId (some text) = row.settings text := by
  simp only [find, h]

/-- There is no row. -/
theorem find_of_lookup_none {groups : Groups} {text : String} (h : groups.lookup text = none)
    (chatId : PyVal) : groups.find chatId (some text) = .default chatId := by
  simp only [find, h]

/-- For strings this is the table's view. -/
theorem find_str (groups : Groups) (chatId : String) :
    groups.find (.str chatId) (some chatId) = groups.settings chatId := by
  cases h : groups.lookup chatId with
  | none => rw [find_of_lookup_none h, settings, h]
  | some row => rw [find_of_lookup h, settings, h]

/-- A string is bound as it is. -/
theorem select_str (groups : Groups) (chatId : String) :
    groups.select (.str chatId) = .ok (groups.settings chatId) := by
  rw [← find_str]
  exact groups.select_of_sqlText rfl

/-- What is inserted could be bound. -/
theorem exists_sqlText_of_insertOrRename {groups groups' : Groups} {chatId : PyVal}
    {title : Option String} (h : groups.insertOrRename chatId title = .ok groups') :
    ∃ t, sqlText chatId = .ok t := by
  obtain ⟨t, ht, -⟩ := Effect.exists_of_bind_eq_ok h
  exact ⟨t, ht⟩

/-- What is found depends on the row the id is bound to. -/
theorem select_congr {groups groups' : Groups} {chatId : PyVal}
    (h : ∀ text, sqlText chatId = .ok (some text) → groups'.lookup text = groups.lookup text) :
    groups'.select chatId = groups.select chatId := by
  cases hbound : sqlText chatId with
  | error e => rw [select, select, hbound]; rfl
  | ok bound =>
      rw [groups.select_of_sqlText hbound, groups'.select_of_sqlText hbound]
      cases bound with
      | none => rfl
      | some text => rw [find, find, h text hbound]

/-- The other rows are as they were. -/
theorem lookup_modify_ne (groups : Groups) {chatId c : String} (write : GroupRow → GroupRow)
    (h : c ≠ chatId) : (groups.modify chatId write).lookup c = groups.lookup c := by
  unfold modify
  cases groups.lookup chatId with
  | none => rfl
  | some row => exact AList.lookup_insert_ne h

/-- And here as well. -/
theorem lookup_upsert_ne (groups : Groups) {chatId c : String} (title : Option String)
    (h : c ≠ chatId) : (groups.upsert chatId title).lookup c = groups.lookup c := by
  unfold upsert
  cases groups.lookup chatId <;> exact AList.lookup_insert_ne h

end Groups

end RubicaBot
