import Mathlib.Data.Set.Basic
import RubicaBot.Cache
import RubicaBot.Groups

/-!
# RubicaBot.Repository

The group settings of `app/db/repository.py`: the table behind its cache.

A chat id has two identities.  The cache is a dictionary and knows it by the
value itself (`PyVal.dictKey`), the table by the text it is bound to (`sqlText`).
As long as these are one and the same for the ids in use (`Congruent`), a cached
value is what the table would give (`Coherent`), every method keeps it so, and
`get_group` answers what the table does (`getGroup_spec`).

The ids of the API are strings, and strings are congruent.  On them the methods
can be read as operations on a total map from chats to settings (`Store`) —
except for `set_group_flag`, which updates a row and does not insert one.
-/

namespace RubicaBot

open Py

/-- What the `key` of `set_group_flag` names: a flag, another column of the
settings or of the book-keeping, or no column.  The primary key is none of these. -/
inductive Column where
  | flag (key : Flag)
  | title
  | floodLimit
  | timestamp
  | unknown (name : String)

/-- `SET {key} = ?` with `1 if value else 0`.  A `TEXT` column stores the digit as
text; `no such column` is raised whether or not there is a row. -/
def Column.write (column : Column) (value : Bool) : Except PyError (GroupRow → GroupRow) :=
  let stored : Nat := if value then 1 else 0
  match column with
  | .flag key => .ok (·.setFlag key value)
  | .title => .ok fun row => { row with title := some (toString stored) }
  | .floodLimit => .ok fun row => { row with floodLimit := stored }
  | .timestamp => .ok fun row => row
  | .unknown _ => .error .sqliteOperational

/-- The `UPDATE` of `set_group_flag`: the statement is compiled before the id is
bound. -/
def Groups.setColumn (groups : Groups) (chatId : PyVal) (column : Column) (value : Bool) :
    Except PyError Groups := do
  let write ← column.write value
  match ← sqlText chatId with
  | none => return groups
  | some text => return groups.modify text write

/-- What is updated could be bound. -/
theorem Groups.exists_sqlText_of_setColumn {groups groups' : Groups} {chatId : PyVal}
    {column : Column} {value : Bool} (h : groups.setColumn chatId column value = .ok groups') :
    ∃ t, sqlText chatId = .ok t := by
  obtain ⟨write, -, hrest⟩ := Effect.exists_of_bind_eq_ok h
  obtain ⟨t, ht, -⟩ := Effect.exists_of_bind_eq_ok hrest
  exact ⟨t, ht⟩

/-- The process is the only writer of the table. -/
structure Repository where
  groups : Groups
  groupCache : LruTtlCache PyVal.DictKey GroupSettings

namespace Repository

/-- `self._group_cache.invalidate(chat_id)`. -/
def invalidate (repo : Repository) (chatId : PyVal) : Except PyError Repository := do
  let key ← chatId.dictKey
  return { repo with groupCache := repo.groupCache.invalidate key }

/-- `get_group`; the cache reads the clock when it is asked and again when the
value is stored. -/
def getGroup (repo : Repository) (chatId : PyVal) (asked stored : Instant) :
    Except PyError GroupSettings × Repository :=
  match chatId.dictKey with
  | .error e => (.error e, repo)
  | .ok key =>
      let (cached, cache) := repo.groupCache.get key asked
      match cached with
      | some settings => (.ok settings, { repo with groupCache := cache })
      | none =>
          match repo.groups.select chatId with
          | .error e => (.error e, { repo with groupCache := cache })
          | .ok settings =>
              (.ok settings, { repo with groupCache := cache.set key settings stored })

/-- `upsert_group`. -/
def upsertGroup (repo : Repository) (chatId : PyVal) (title : Option String)
    (asked stored : Instant) : Except PyError GroupSettings × Repository :=
  match repo.groups.insertOrRename chatId title with
  | .error e => (.error e, repo)
  | .ok groups =>
      let repo := { repo with groups := groups }
      match repo.invalidate chatId with
      | .error e => (.error e, repo)
      | .ok repo => repo.getGroup chatId asked stored

/-- `set_group_flag`: when the statement raises, nothing is invalidated. -/
def setGroupFlag (repo : Repository) (chatId : PyVal) (column : Column) (value : Bool) :
    Except PyError Unit × Repository :=
  match repo.groups.setColumn chatId column value with
  | .error e => (.error e, repo)
  | .ok groups =>
      let repo := { repo with groups := groups }
      match repo.invalidate chatId with
      | .error e => (.error e, repo)
      | .ok repo => (.ok (), repo)

end Repository

/-! ## equal settings -/

/-- What `==` sees of settings: the chat id counts by its value, `True` as `1`. -/
def GroupSettings.compared (settings : GroupSettings) :
    Except PyError PyVal.DictKey × GroupSettings :=
  (settings.chatId.dictKey, { settings with chatId := .none })

/-- What `==` sees of an answer, if there is one. -/
def compared (answer : Except PyError GroupSettings) :
    Option (Except PyError PyVal.DictKey × GroupSettings) :=
  answer.toOption.map GroupSettings.compared

/-- Settings of a string are equal to nothing else. -/
theorem GroupSettings.eq_of_compared {settings settings' : GroupSettings} {chatId : String}
    (h : settings.compared = settings'.compared) (hid : settings'.chatId = .str chatId) :
    settings = settings' := by
  obtain ⟨hkey, hrest⟩ := Prod.mk.inj h
  have hstr : settings.chatId = .str chatId := by
    rw [hid] at hkey
    exact PyVal.dictKey_eq_str_iff.mp hkey
  cases settings
  cases settings'
  simp_all

/-! ## two identities of a chat -/

/-- Two ids are one key of the cache if and only if they are bound to one row. -/
structure Congruent (a b : PyVal) : Prop where
  bound : a.dictKey = b.dictKey → sqlText a = sqlText b
  key : ∀ row, sqlText a = .ok (some row) → sqlText b = .ok (some row) → a.dictKey = b.dictKey

/-- Any two of the ids are congruent. -/
def AllCongruent (ids : Set PyVal) : Prop := ∀ a ∈ ids, ∀ b ∈ ids, Congruent a b

/-- The chat ids of the API. -/
def stringIds : Set PyVal := Set.range PyVal.str

/-- A string is one of them. -/
theorem str_mem_stringIds (chatId : String) : PyVal.str chatId ∈ stringIds := ⟨chatId, rfl⟩

/-- A string is its own key and its own text. -/
theorem allCongruent_stringIds : AllCongruent stringIds := by
  rintro _ ⟨a, rfl⟩ _ ⟨b, rfl⟩
  refine ⟨fun h => ?_, fun row ha hb => ?_⟩
  · rw [PyVal.dictKey_eq_str_iff.mp h]
  · simp only [sqlText, Except.ok.injEq, Option.some.injEq] at ha hb
    rw [ha, hb]

/-- Ids with one key and one text get equal settings from the table. -/
theorem compared_select_congr (groups : Groups) {a b : PyVal} (hkey : a.dictKey = b.dictKey)
    (hbound : sqlText a = sqlText b) :
    compared (groups.select a) = compared (groups.select b) := by
  have hdefault : (GroupSettings.default a).compared = (GroupSettings.default b).compared :=
    Prod.ext hkey rfl
  cases hb : sqlText b with
  | error e =>
      rw [Groups.select, Groups.select, hbound, hb]
      rfl
  | ok bound =>
      rw [groups.select_of_sqlText hb, groups.select_of_sqlText (hbound.trans hb)]
      refine congrArg some ?_
      cases bound with
      | none => exact hdefault
      | some text =>
          cases hrow : groups.lookup text with
          | none => rw [Groups.find_of_lookup_none hrow, Groups.find_of_lookup_none hrow, hdefault]
          | some row => rw [Groups.find_of_lookup hrow, Groups.find_of_lookup hrow]

namespace Repository

/-! ## the cache is transparent -/

/-- A cached value is what the table gives, for every one of the ids that is its
key. -/
def Coherent (ids : Set PyVal) (repo : Repository) : Prop :=
  repo.groupCache.Holds fun key settings =>
    ∀ id ∈ ids, id.dictKey = .ok key →
      compared (repo.groups.select id) = some settings.compared

/-- `get_group` answers what the table does, leaves the table alone and keeps the
cache coherent. -/
theorem getGroup_spec {ids : Set PyVal} (hids : AllCongruent ids) {repo : Repository}
    (hc : repo.Coherent ids) {chatId : PyVal} (hid : chatId ∈ ids) (asked stored : Instant) :
    compared (repo.getGroup chatId asked stored).1 = compared (repo.groups.select chatId) ∧
      (repo.getGroup chatId asked stored).2.groups = repo.groups ∧
      (repo.getGroup chatId asked stored).2.Coherent ids := by
  unfold getGroup
  cases hkey : chatId.dictKey with
  | error e =>
      refine ⟨?_, rfl, hc⟩
      cases hselect : repo.groups.select chatId with
      | error e' => rfl
      | ok settings =>
          obtain ⟨t, ht, -⟩ := Groups.exists_sqlText_of_select hselect
          obtain ⟨key, hkey'⟩ := exists_dictKey_of_sqlText ht
          rw [hkey] at hkey'
          cases hkey'
  | ok key =>
      have hget := LruTtlCache.Holds.get hc key asked
      dsimp only
      cases hcached : repo.groupCache.get key asked with
      | mk cached cache =>
          rw [hcached] at hget
          cases cached with
          | some settings =>
              have hheld := LruTtlCache.Holds.get_fst hc (by rw [hcached])
              exact ⟨(hheld chatId hid hkey).symm, rfl, hget⟩
          | none =>
              cases hselect : repo.groups.select chatId with
              | error e => exact ⟨rfl, rfl, hget⟩
              | ok settings =>
                  refine ⟨rfl, rfl, hget.set (fun id hmem hsame => ?_) stored⟩
                  have hone : id.dictKey = chatId.dictKey := hsame.trans hkey.symm
                  have hrow := (hids id hmem chatId hid).bound hone
                  rw [compared_select_congr _ hone hrow, hselect]
                  rfl

/-- Invalidating the id whose row changes keeps the cache coherent. -/
theorem coherent_invalidate {ids : Set PyVal} {repo repo' : Repository} (hc : repo.Coherent ids)
    {groups : Groups} {chatId : PyVal}
    (h : ∀ id ∈ ids, id.dictKey ≠ chatId.dictKey → groups.select id = repo.groups.select id)
    (hinv : ({ repo with groups := groups } : Repository).invalidate chatId = .ok repo') :
    repo'.Coherent ids ∧ repo'.groups = groups := by
  cases hkey : chatId.dictKey with
  | error e =>
      rw [invalidate, hkey] at hinv
      cases hinv
  | ok key =>
      rw [invalidate, hkey] at hinv
      cases hinv
      refine ⟨LruTtlCache.Holds.invalidate hc key fun key' settings hne heq id hid hsame => ?_, rfl⟩
      have hother : id.dictKey ≠ chatId.dictKey := by
        rw [hsame, hkey]
        exact fun heq' => hne (Except.ok.inj heq')
      rw [h id hid hother]
      exact heq id hid hsame

/-- An id with another key is bound to another row. -/
theorem select_eq_of_lookup {ids : Set PyVal} (hids : AllCongruent ids) {groups groups' : Groups}
    {chatId : PyVal} {row : String} (hid : chatId ∈ ids) (hbound : sqlText chatId = .ok (some row))
    (h : ∀ c, c ≠ row → groups'.lookup c = groups.lookup c) {id : PyVal} (hmem : id ∈ ids)
    (hne : id.dictKey ≠ chatId.dictKey) : groups'.select id = groups.select id := by
  refine Groups.select_congr fun text htext => h text ?_
  rintro rfl
  exact hne ((hids id hmem chatId hid).key text htext hbound)

/-- The `INSERT` changes the settings of no other key. -/
theorem select_insertOrRename {ids : Set PyVal} (hids : AllCongruent ids) {groups groups' : Groups}
    {chatId : PyVal} {title : Option String} (hid : chatId ∈ ids)
    (h : groups.insertOrRename chatId title = .ok groups') {id : PyVal} (hmem : id ∈ ids)
    (hne : id.dictKey ≠ chatId.dictKey) : groups'.select id = groups.select id := by
  cases hbound : sqlText chatId with
  | error e =>
      rw [Groups.insertOrRename, hbound] at h
      cases h
  | ok bound =>
      rw [Groups.insertOrRename, hbound] at h
      cases bound with
      | none =>
          cases h
          rfl
      | some row =>
          cases h
          exact select_eq_of_lookup hids hid hbound
            (fun c hc => groups.lookup_upsert_ne title hc) hmem hne

/-- Nor does the `UPDATE`, whatever column it writes. -/
theorem select_setColumn {ids : Set PyVal} (hids : AllCongruent ids) {groups groups' : Groups}
    {chatId : PyVal} {column : Column} {value : Bool} (hid : chatId ∈ ids)
    (h : groups.setColumn chatId column value = .ok groups') {id : PyVal} (hmem : id ∈ ids)
    (hne : id.dictKey ≠ chatId.dictKey) : groups'.select id = groups.select id := by
  cases hwrite : column.write value with
  | error e =>
      rw [Groups.setColumn, hwrite] at h
      cases h
  | ok write =>
      cases hbound : sqlText chatId with
      | error e =>
          rw [Groups.setColumn, hwrite, hbound] at h
          cases h
      | ok bound =>
          rw [Groups.setColumn, hwrite, hbound] at h
          cases bound with
          | none =>
              cases h
              rfl
          | some row =>
              cases h
              exact select_eq_of_lookup hids hid hbound
                (fun c hc => groups.lookup_modify_ne write hc) hmem hne

/-- What was bound can be invalidated. -/
theorem exists_invalidate {chatId : PyVal} {t : Option String} (h : sqlText chatId = .ok t)
    (repo : Repository) : ∃ repo', repo.invalidate chatId = .ok repo' := by
  obtain ⟨key, hkey⟩ := exists_dictKey_of_sqlText h
  exact ⟨_, by rw [invalidate, hkey]; rfl⟩

theorem upsertGroup_spec {ids : Set PyVal} (hids : AllCongruent ids) {repo : Repository}
    (hc : repo.Coherent ids) {chatId : PyVal} (hid : chatId ∈ ids) (title : Option String)
    (asked stored : Instant) :
    compared (repo.upsertGroup chatId title asked stored).1 =
        compared ((repo.groups.insertOrRename chatId title).bind (·.select chatId)) ∧
      (repo.upsertGroup chatId title asked stored).2.groups =
        ((repo.groups.insertOrRename chatId title).toOption.getD repo.groups) ∧
      (repo.upsertGroup chatId title asked stored).2.Coherent ids := by
  unfold upsertGroup
  cases hinsert : repo.groups.insertOrRename chatId title with
  | error e => exact ⟨rfl, rfl, hc⟩
  | ok groups =>
      obtain ⟨t, ht⟩ := Groups.exists_sqlText_of_insertOrRename hinsert
      obtain ⟨repo', hinv⟩ := exists_invalidate ht { repo with groups := groups }
      obtain ⟨hc', rfl⟩ := coherent_invalidate hc
        (fun id hmem hne => select_insertOrRename hids hid hinsert hmem hne) hinv
      dsimp only
      rw [hinv]
      exact getGroup_spec hids hc' hid asked stored

theorem setGroupFlag_spec {ids : Set PyVal} (hids : AllCongruent ids) {repo : Repository}
    (hc : repo.Coherent ids) {chatId : PyVal} (hid : chatId ∈ ids) (column : Column)
    (value : Bool) :
    (repo.setGroupFlag chatId column value).1.isOk =
        (repo.groups.setColumn chatId column value).isOk ∧
      (repo.setGroupFlag chatId column value).2.groups =
        ((repo.groups.setColumn chatId column value).toOption.getD repo.groups) ∧
      (repo.setGroupFlag chatId column value).2.Coherent ids := by
  unfold setGroupFlag
  cases hset : repo.groups.setColumn chatId column value with
  | error e => exact ⟨rfl, rfl, hc⟩
  | ok groups =>
      obtain ⟨t, ht⟩ := Groups.exists_sqlText_of_setColumn hset
      obtain ⟨repo', hinv⟩ := exists_invalidate ht { repo with groups := groups }
      obtain ⟨hc', rfl⟩ := coherent_invalidate hc
        (fun id hmem hne => select_setColumn hids hid hset hmem hne) hinv
      dsimp only
      rw [hinv]
      exact ⟨rfl, rfl, hc'⟩

end Repository

/-! ## the settings as a total map -/

/-- What the settings are meant to be: a value for every chat. -/
abbrev Store := String → GroupSettings

namespace Repository

/-- A call, with the clock readings of its `get_group`. -/
inductive Op where
  | upsertGroup (chatId : String) (title : Option String) (asked stored : Instant)
  | getGroup (chatId : String) (asked stored : Instant)
  | setGroupFlag (chatId : String) (key : Flag) (value : Bool)

/-- The call on the repository. -/
def perform (repo : Repository) : Op → Repository
  | .upsertGroup chatId title asked stored => (repo.upsertGroup (.str chatId) title asked stored).2
  | .getGroup chatId asked stored => (repo.getGroup (.str chatId) asked stored).2
  | .setGroupFlag chatId key value => (repo.setGroupFlag (.str chatId) (.flag key) value).2

/-- The call on the map. -/
def Op.apply (store : Store) : Op → Store
  | .upsertGroup chatId title _ _ =>
      Function.update store chatId { store chatId with title := title }
  | .getGroup _ _ _ => store
  | .setGroupFlag chatId key value =>
      Function.update store chatId ((store chatId).setFlag key value)

/-- A `set_group_flag` finds a row, or writes the value a chat without a row
has. -/
def Op.Lands (groups : Groups) : Op → Prop
  | .setGroupFlag chatId key value =>
      chatId ∈ groups ∨ value = (GroupSettings.default (.str chatId)).flag key
  | _ => True

/-- Every `get_group` returns what the map says. -/
def Agrees (repo : Repository) (store : Store) : Prop :=
  ∀ chatId asked stored, (repo.getGroup (.str chatId) asked stored).1 = .ok (store chatId)

/-- On the chat ids of the API, `get_group` returns the table's view. -/
theorem getGroup_str {repo : Repository} (hc : repo.Coherent stringIds) (chatId : String)
    (asked stored : Instant) :
    (repo.getGroup (.str chatId) asked stored).1 = .ok (repo.groups.settings chatId) := by
  have hspec := (getGroup_spec allCongruent_stringIds hc (str_mem_stringIds chatId) asked stored).1
  rw [Groups.select_str] at hspec
  cases hget : (repo.getGroup (.str chatId) asked stored).1 with
  | error e =>
      rw [hget] at hspec
      cases hspec
  | ok settings =>
      rw [hget] at hspec
      rw [GroupSettings.eq_of_compared (Option.some.inj hspec) (repo.groups.settings_chatId chatId)]

/-- A coherent repository shows its table. -/
theorem agrees_iff {repo : Repository} (hc : repo.Coherent stringIds) (store : Store) :
    repo.Agrees store ↔ repo.groups.settings = store := by
  constructor
  · intro h
    funext chatId
    have hsame := h chatId 0 0
    rw [getGroup_str hc] at hsame
    exact Except.ok.inj hsame
  · rintro rfl chatId asked stored
    exact getGroup_str hc chatId asked stored

/-- Every method keeps it coherent. -/
theorem perform_coherent {repo : Repository} (hc : repo.Coherent stringIds) (op : Op) :
    (repo.perform op).Coherent stringIds := by
  cases op with
  | upsertGroup chatId title asked stored =>
      exact (upsertGroup_spec allCongruent_stringIds hc (str_mem_stringIds chatId) title asked
        stored).2.2
  | getGroup chatId asked stored =>
      exact (getGroup_spec allCongruent_stringIds hc (str_mem_stringIds chatId) asked stored).2.2
  | setGroupFlag chatId key value =>
      exact (setGroupFlag_spec allCongruent_stringIds hc (str_mem_stringIds chatId) (.flag key)
        value).2.2

/-- The table after a call is the table the statement leaves. -/
theorem groups_perform {repo : Repository} (hc : repo.Coherent stringIds) (op : Op) :
    (repo.perform op).groups = match op with
      | .upsertGroup chatId title _ _ => repo.groups.upsert chatId title
      | .getGroup _ _ _ => repo.groups
      | .setGroupFlag chatId key value => repo.groups.update chatId key value := by
  cases op with
  | upsertGroup chatId title asked stored =>
      exact (upsertGroup_spec allCongruent_stringIds hc (str_mem_stringIds chatId) title asked
        stored).2.1
  | getGroup chatId asked stored =>
      exact (getGroup_spec allCongruent_stringIds hc (str_mem_stringIds chatId) asked stored).2.1
  | setGroupFlag chatId key value =>
      exact (setGroupFlag_spec allCongruent_stringIds hc (str_mem_stringIds chatId) (.flag key)
        value).2.1

/-- **Step lemma, both ways.**  From a repository that agrees with the map, a
call leads to one that agrees with the map after it exactly if it lands. -/
theorem settings_perform_iff {repo : Repository} (hc : repo.Coherent stringIds) (op : Op) :
    (repo.perform op).groups.settings = op.apply repo.groups.settings ↔ op.Lands repo.groups := by
  rw [groups_perform hc]
  cases op with
  | upsertGroup chatId title asked stored =>
      simp only [Op.apply, Op.Lands, iff_true]
      funext c
      rw [Groups.settings_upsert, Function.update_apply]
      split
      · next h => rw [h]
      · rfl
  | getGroup chatId asked stored =>
      simp only [Op.apply, Op.Lands]
  | setGroupFlag chatId key value =>
      simp only [Op.apply, Op.Lands]
      by_cases hmem : chatId ∈ repo.groups
      · simp only [hmem, true_or, iff_true]
        funext c
        rw [Groups.settings_update, Function.update_apply]
        by_cases h : c = chatId
        · subst h
          simp [hmem]
        · simp [h]
      · simp only [hmem, false_or]
        have hsame : (repo.groups.update chatId key value).settings = repo.groups.settings := by
          funext c
          rw [Groups.settings_update, if_neg fun h => hmem h.2]
        have hdefault : repo.groups.settings chatId = .default (.str chatId) := by
          rw [Groups.settings, AList.lookup_eq_none.mpr hmem]
        rw [hsame]
        constructor
        · intro h
          have hflag := congrArg (GroupSettings.flag · key) (congrFun h chatId)
          simp only [Function.update_self, GroupSettings.flag_setFlag_same, hdefault] at hflag
          exact hflag.symm
        · rintro rfl
          rw [← hdefault, GroupSettings.setFlag_flag, Function.update_eq_self]

/-- `Repository(db_path, cache_size=…, cache_ttl_seconds=…)` on a database with
this table. -/
def new (groups : Groups) (cacheSize cacheTtlSeconds : Int) : Repository where
  groups := groups
  groupCache := .new cacheSize cacheTtlSeconds

/-- An empty cache is coherent. -/
theorem new_coherent (ids : Set PyVal) (groups : Groups) (cacheSize cacheTtlSeconds : Int) :
    (new groups cacheSize cacheTtlSeconds).Coherent ids := LruTtlCache.holds_new _ _ _

/-- After each of the calls, every `get_group` returns what the map says. -/
def Follows (repo : Repository) (store : Store) (ops : List Op) : Prop :=
  ∀ pre, pre <+: ops → (pre.foldl perform repo).Agrees (pre.foldl Op.apply store)

/-- Every `set_group_flag` among the calls lands. -/
def AllLand (repo : Repository) (ops : List Op) : Prop :=
  ∀ pre op, pre ++ [op] <+: ops → op.Lands (pre.foldl perform repo).groups

/-- It follows now, and after the first method. -/
theorem follows_cons {repo : Repository} {store : Store} {op : Op} {ops : List Op} :
    repo.Follows store (op :: ops) ↔
      repo.Agrees store ∧ (repo.perform op).Follows (op.apply store) ops := by
  constructor
  · intro h
    refine ⟨h [] List.nil_prefix, fun pre hpre => h (op :: pre) ?_⟩
    exact (List.prefix_cons_inj op).mpr hpre
  · rintro ⟨hnow, hrest⟩ pre hpre
    cases pre with
    | nil => exact hnow
    | cons op' pre =>
        obtain ⟨rfl, htail⟩ := List.cons_prefix_cons.mp hpre
        exact hrest pre htail

/-- The first method lands, and so do the others. -/
theorem allLand_cons {repo : Repository} {op : Op} {ops : List Op} :
    repo.AllLand (op :: ops) ↔ op.Lands repo.groups ∧ (repo.perform op).AllLand ops := by
  constructor
  · intro h
    refine ⟨h [] op (by simp), fun pre op' hpre => h (op :: pre) op' ?_⟩
    exact (List.prefix_cons_inj op).mpr hpre
  · rintro ⟨hnow, hrest⟩ pre op' hpre
    cases pre with
    | nil =>
        obtain ⟨rfl, -⟩ := List.cons_prefix_cons.mp hpre
        exact hnow
    | cons op'' pre =>
        obtain ⟨rfl, htail⟩ := List.cons_prefix_cons.mp hpre
        exact hrest pre op' htail

/-- **Run lemma.**  From a coherent repository, by induction on the calls. -/
theorem follows_iff_allLand_of_coherent {repo : Repository} (hc : repo.Coherent stringIds)
    (ops : List Op) : repo.Follows repo.groups.settings ops ↔ repo.AllLand ops := by
  induction ops generalizing repo with
  | nil =>
      constructor
      · rintro - pre op hpre
        simp at hpre
      · intro _ pre hpre
        rw [List.prefix_nil.mp hpre]
        exact (agrees_iff hc _).mpr rfl
  | cons op ops ih =>
      have hc' := perform_coherent hc op
      have hstep := settings_perform_iff hc op
      rw [follows_cons, allLand_cons, ← hstep, ← ih hc']
      constructor
      · rintro ⟨-, hrest⟩
        have hnext := (agrees_iff hc' _).mp (hrest [] List.nil_prefix)
        rw [hnext]
        exact ⟨rfl, hrest⟩
      · rintro ⟨hnext, hrest⟩
        rw [← hnext]
        exact ⟨(agrees_iff hc _).mpr rfl, hrest⟩

/-- **The settings store.**  For every database, every cache and every sequence
of calls at any clock readings: the settings behave as a total map with
defaults, in every state on the way, if and only if every `set_group_flag` finds
a row or writes the default. -/
theorem follows_iff_allLand (groups : Groups) (cacheSize cacheTtlSeconds : Int) (ops : List Op) :
    (new groups cacheSize cacheTtlSeconds).Follows groups.settings ops ↔
      (new groups cacheSize cacheTtlSeconds).AllLand ops :=
  follows_iff_allLand_of_coherent (new_coherent stringIds groups cacheSize cacheTtlSeconds) ops

/-- `/antilink off` in a chat that has no row: the flag stays on. -/
theorem setGroupFlag_lost :
    ¬ (new ∅ 1024 90).Follows (Groups.settings ∅) [.setGroupFlag "chat" .antiLink false] := by
  intro h
  have hflag := congrArg (fun answer => answer.toOption.map GroupSettings.antiLink)
    (h _ List.prefix_rfl "chat" 0 0)
  revert hflag
  decide +kernel

end Repository

end RubicaBot
