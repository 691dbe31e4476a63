import RubicaBot.Repository
import RubicaBot.Simulation

/-!
# RubicaBot.Repository.Transparency

The settings methods as a client calls them, with what each returns or raises,
on two machines: the `Repository`, and the bare table behind it, on which every
`get_group` runs its `SELECT`.

A repository that is coherent for congruent ids simulates its own table
(`cached_simulates`), whatever the clock readings are: the lifetime and the size
of the cache only decide how often the table is asked.  Two ids that are not
congruent give the cache away: `True` and `1` are one key and one row, but `'1'`
is another key of that row (`cache_transparent_iff`).
-/

namespace RubicaBot

open Py Transition

/-- A call, with the clock readings of the cache. -/
inductive SettingsCall where
  | getGroup (chatId : PyVal) (asked stored : Instant)
  | upsertGroup (chatId : PyVal) (title : Option String) (asked stored : Instant)
  | setGroupFlag (chatId : PyVal) (column : Column) (value : Bool)

/-- The chat the call is about. -/
def SettingsCall.chatId : SettingsCall → PyVal
  | .getGroup chatId _ _ => chatId
  | .upsertGroup chatId _ _ _ => chatId
  | .setGroupFlag chatId _ _ => chatId

/-- What a client sees of a call: that it raised, that it is done, or the
settings, as `==` compares them. -/
inductive SettingsReply where
  | settings (compared : Except PyError PyVal.DictKey × GroupSettings)
  | done
  | raised

namespace SettingsReply

/-- The reply that returns settings or raises. -/
def ofSettings (answer : Except PyError GroupSettings) : SettingsReply :=
  match compared answer with
  | some seen => .settings seen
  | none => .raised

/-- Settings that compare equal are the same reply. -/
theorem ofSettings_congr {answer answer' : Except PyError GroupSettings}
    (h : compared answer = compared answer') : ofSettings answer = ofSettings answer' := by
  unfold ofSettings
  rw [h]

/-- And the same reply is settings that compare equal. -/
theorem compared_of_ofSettings {answer : Except PyError GroupSettings} {settings : GroupSettings}
    (h : ofSettings answer = ofSettings (.ok settings)) :
    compared answer = some settings.compared := by
  unfold ofSettings at h
  cases hseen : compared answer with
  | none =>
      rw [hseen] at h
      cases h
  | some seen =>
      rw [hseen] at h
      rw [SettingsReply.settings.inj h]

/-- The reply that returns nothing or raises. -/
def ofDone {α : Type} (answer : Except PyError α) : SettingsReply :=
  if answer.isOk then .done else .raised

/-- All that is seen is whether it has raised. -/
theorem ofDone_congr {α β : Type} {answer : Except PyError α} {answer' : Except PyError β}
    (h : answer.isOk = answer'.isOk) : ofDone answer = ofDone answer' := by
  unfold ofDone
  rw [h]

end SettingsReply

/-- The call on the repository. -/
def Repository.call (repo : Repository) : SettingsCall → Option (SettingsReply × Repository)
  | .getGroup chatId asked stored =>
      let (answer, repo) := repo.getGroup chatId asked stored
      some (.ofSettings answer, repo)
  | .upsertGroup chatId title asked stored =>
      let (answer, repo) := repo.upsertGroup chatId title asked stored
      some (.ofSettings answer, repo)
  | .setGroupFlag chatId column value =>
      let (answer, repo) := repo.setGroupFlag chatId column value
      some (.ofDone answer, repo)

/-- The same calls with no cache at all.  A call that raises leaves the table as
it was. -/
def Groups.call (groups : Groups) : SettingsCall → Option (SettingsReply × Groups)
  | .getGroup chatId _ _ => some (.ofSettings (groups.select chatId), groups)
  | .upsertGroup chatId title _ _ =>
      let written := groups.insertOrRename chatId title
      some (.ofSettings (written.bind (·.select chatId)), written.toOption.getD groups)
  | .setGroupFlag chatId column value =>
      let written := groups.setColumn chatId column value
      some (.ofDone written, written.toOption.getD groups)

/-! ## the simulation -/

namespace Repository

/-- A repository over this table that is coherent for these ids. -/
def Serves (ids : Set PyVal) (repo : Repository) (groups : Groups) : Prop :=
  repo.Coherent ids ∧ repo.groups = groups

/-- **Every call about one of the ids answers as the bare table does, and keeps
the cache coherent.** -/
theorem cached_simulates {ids : Set PyVal} (hids : AllCongruent ids) :
    SimulatesOn {c | c.chatId ∈ ids} Repository.call Groups.call (Serves ids) := by
  rintro repo _ c hid ⟨hc, rfl⟩
  cases c with
  | getGroup chatId asked stored =>
      obtain ⟨hanswer, htable, hcoherent⟩ := getGroup_spec hids hc hid asked stored
      exact .some ⟨SettingsReply.ofSettings_congr hanswer, hcoherent, htable⟩
  | upsertGroup chatId title asked stored =>
      obtain ⟨hanswer, htable, hcoherent⟩ := upsertGroup_spec hids hc hid title asked stored
      exact .some ⟨SettingsReply.ofSettings_congr hanswer, hcoherent, htable⟩
  | setGroupFlag chatId column value =>
      obtain ⟨hanswer, htable, hcoherent⟩ := setGroupFlag_spec hids hc hid column value
      exact .some ⟨SettingsReply.ofDone_congr hanswer, hcoherent, htable⟩

/-! ## when the cache shows -/

/-- The calls answer as they would with no cache, over every table, with every
cache size and lifetime and at any clock readings. -/
def Transparent (ids : Set PyVal) : Prop :=
  ∀ (groups : Groups) (cacheSize cacheTtlSeconds : Int) (calls : List SettingsCall),
    (∀ c ∈ calls, c.chatId ∈ ids) →
      outputs Repository.call (new groups cacheSize cacheTtlSeconds) calls =
        outputs Groups.call groups calls

/-- On congruent ids nothing shows. -/
theorem transparent_of_allCongruent {ids : Set PyVal} (hids : AllCongruent ids) :
    Transparent ids := fun groups cacheSize cacheTtlSeconds _ hcalls =>
  outputs_eq_on (cached_simulates hids) ⟨new_coherent ids groups cacheSize cacheTtlSeconds, rfl⟩
    hcalls

/-- A repository that has read one chat's settings at time 0. -/
def holding (groups : Groups) (key : PyVal.DictKey) (settings : GroupSettings) : Repository where
  groups := groups
  groupCache := { maxSize := 1, ttlSeconds := 1, data := AList.insert key (0, settings) ∅ }

/-- The first `get_group` reads the table and stores what it finds. -/
theorem getGroup_new {groups : Groups} {chatId : PyVal} {key : PyVal.DictKey}
    {settings : GroupSettings} (hkey : chatId.dictKey = .ok key)
    (h : groups.select chatId = .ok settings) :
    (new groups 1 1).getGroup chatId 0 0 = (.ok settings, holding groups key settings) := by
  have hempty : (new groups 1 1).groupCache.get key 0 = (none, (new groups 1 1).groupCache) := rfl
  have hset : (new groups 1 1).groupCache.set key settings 0 =
      (holding groups key settings).groupCache := by
    simp [new, holding, LruTtlCache.new, LruTtlCache.set, LruTtlCache.shrink]
  have hselect : (new groups 1 1).groups.select chatId = .ok settings := h
  simp only [getGroup, hkey, hempty, hselect, hset]
  rfl

/-- As long as it is cached, it is the answer, whatever has become of the table. -/
theorem getGroup_cached (repo : Repository) {chatId : PyVal} {key : PyVal.DictKey}
    {settings : GroupSettings} (hkey : chatId.dictKey = .ok key)
    (hcached : repo.groupCache.data.lookup key = some (0, settings))
    (httl : repo.groupCache.ttlSeconds = 1) : (repo.getGroup chatId 0 0).1 = .ok settings := by
  have hfresh : ¬ (1 : ℚ) < 0 := by decide
  simp [getGroup, hkey, LruTtlCache.get, hcached, httl, hfresh]

/-- `get_group`, as a call. -/
theorem call_getGroup (repo : Repository) (chatId : PyVal) (asked stored : Instant) :
    repo.call (.getGroup chatId asked stored) =
      some (.ofSettings (repo.getGroup chatId asked stored).1,
        (repo.getGroup chatId asked stored).2) := rfl

/-- Under one key, the second read answers what the first one did, and the table
has to agree. -/
theorem Transparent.compared_select {ids : Set PyVal} (h : Transparent ids) {a b : PyVal}
    (ha : a ∈ ids) (hb : b ∈ ids) (hkey : a.dictKey = b.dictKey) {groups : Groups}
    {settings : GroupSettings} (hselect : groups.select a = .ok settings) :
    compared (groups.select b) = some settings.compared := by
  obtain ⟨t, ht, -⟩ := Groups.exists_sqlText_of_select hselect
  obtain ⟨key, hakey⟩ := exists_dictKey_of_sqlText ht
  have hbkey : b.dictKey = .ok key := hkey.symm.trans hakey
  have hfirst : (new groups 1 1).call (.getGroup a 0 0) =
      some (.ofSettings (.ok settings), holding groups key settings) := by
    rw [call_getGroup, getGroup_new hakey hselect]
  have hcached : outputs Repository.call (new groups 1 1) [.getGroup a 0 0, .getGroup b 0 0] =
      [.ofSettings (.ok settings), .ofSettings (.ok settings)] := by
    have hsecond := getGroup_cached (holding groups key settings) hbkey
      (AList.lookup_insert _) rfl
    rw [outputs_cons hfirst, outputs_cons (call_getGroup _ b 0 0), hsecond]
    rfl
  have hbare : outputs Groups.call groups [.getGroup a 0 0, .getGroup b 0 0] =
      [.ofSettings (groups.select a), .ofSettings (groups.select b)] := rfl
  have hsame := h groups 1 1 [.getGroup a 0 0, .getGroup b 0 0]
    (by simp [SettingsCall.chatId, ha, hb])
  rw [hcached, hbare] at hsame
  exact (SettingsReply.compared_of_ofSettings (List.cons.inj (List.cons.inj hsame).2).1.symm)

/-- Under one key, what is bound for the first read is bound for the second. -/
theorem Transparent.exists_sqlText {ids : Set PyVal} (h : Transparent ids) {a b : PyVal}
    (ha : a ∈ ids) (hb : b ∈ ids) (hkey : a.dictKey = b.dictKey) {groups : Groups}
    {settings : GroupSettings} (hselect : groups.select a = .ok settings) :
    ∃ t, sqlText b = .ok t := by
  have hsame := h.compared_select ha hb hkey hselect
  cases hb' : groups.select b with
  | error e =>
      rw [hb'] at hsame
      cases hsame
  | ok settings' =>
      obtain ⟨t, ht, -⟩ := Groups.exists_sqlText_of_select hb'
      exact ⟨t, ht⟩

/-- A table with one row. -/
def single (row : String) (found : GroupRow) : Groups := AList.insert row found ∅

/-- The ids bound to the row find it. -/
theorem select_single {chatId : PyVal} {row : String} (hrow : sqlText chatId = .ok (some row))
    (found : GroupRow) : (single row found).select chatId = .ok (found.settings row) := by
  have hlookup : (single row found).lookup row = some found := AList.lookup_insert ∅
  rw [Groups.select_of_sqlText _ hrow, Groups.find_of_lookup hlookup]

/-- No other id finds its title. -/
theorem sqlText_of_select_single {row : String} {found : GroupRow} {chatId : PyVal}
    {settings : GroupSettings} (h : (single row found).select chatId = .ok settings)
    (htitle : settings.title.isSome) : sqlText chatId = .ok (some row) := by
  obtain ⟨t, ht, rfl⟩ := Groups.exists_sqlText_of_select h
  rw [ht]
  cases t with
  | none => cases htitle
  | some text =>
      by_cases heq : text = row
      · rw [heq]
      · have hnone : (single row found).lookup text = none := by
          rw [single, AList.lookup_insert_ne heq, AList.lookup_empty]
        rw [Groups.find_of_lookup_none hnone] at htitle
        cases htitle

/-- Ids that are one key are bound to one row, or the second of two reads shows
it. -/
theorem Transparent.row_of_key {ids : Set PyVal} (h : Transparent ids) {a b : PyVal}
    (ha : a ∈ ids) (hb : b ∈ ids) (hkey : a.dictKey = b.dictKey) {row : String}
    (hrow : sqlText a = .ok (some row)) : sqlText b = .ok (some row) := by
  have hsame := h.compared_select ha hb hkey (select_single hrow { title := some "" })
  cases hread : (single row { title := some "" }).select b with
  | error e =>
      rw [hread] at hsame
      cases hsame
  | ok settings =>
      rw [hread] at hsame
      have htitle : settings.title = some "" :=
        congrArg (fun seen : _ × GroupSettings => seen.2.title) (Option.some.inj hsame)
      exact sqlText_of_select_single hread (by rw [htitle]; rfl)

/-- Ids that are one key and cannot be bound raise the same exception. -/
theorem sqlText_error_unique {a b : PyVal} (hkey : a.dictKey = b.dictKey) {e e' : PyError}
    (ha : sqlText a = .error e) (hb : sqlText b = .error e') : e = e' := by
  cases a <;> cases b <;> simp_all [sqlText, PyVal.dictKey]

/-- Equal keys name one row, or it shows. -/
theorem Transparent.bound_of_key {ids : Set PyVal} (h : Transparent ids) {a b : PyVal}
    (ha : a ∈ ids) (hb : b ∈ ids) (hkey : a.dictKey = b.dictKey) : sqlText a = sqlText b := by
  cases hat : sqlText a with
  | error e =>
      cases hbt : sqlText b with
      | error e' => rw [sqlText_error_unique hkey hat hbt]
      | ok t =>
          obtain ⟨t', ht'⟩ := h.exists_sqlText hb ha hkey.symm (Groups.select_of_sqlText ∅ hbt)
          rw [hat] at ht'
          cases ht'
  | ok t =>
      obtain ⟨t', ht'⟩ := h.exists_sqlText ha hb hkey (Groups.select_of_sqlText ∅ hat)
      cases t with
      | some row => rw [h.row_of_key ha hb hkey hat]
      | none =>
          cases t' with
          | none => rw [ht']
          | some row =>
              have hrow := h.row_of_key hb ha hkey.symm ht'
              rw [hat] at hrow
              cases hrow

/-- Through an id that is bound to the row, a flag of the row is set. -/
theorem setColumn_single {chatId : PyVal} {row : String} (hrow : sqlText chatId = .ok (some row))
    (found : GroupRow) (key : Flag) (value : Bool) :
    (single row found).setColumn chatId (.flag key) value =
      .ok (single row (found.setFlag key value)) := by
  have hmodify : (single row found).modify row (·.setFlag key value) =
      single row (found.setFlag key value) := by
    rw [Groups.modify, single, AList.lookup_insert]
    exact AList.insert_insert _
  rw [Groups.setColumn, hrow]
  exact congrArg Except.ok hmodify

/-- The write through one key leaves what another key has cached. -/
theorem call_setGroupFlag_holding {chatId : PyVal} {row : String} {key key' : PyVal.DictKey}
    (hrow : sqlText chatId = .ok (some row)) (hkey : chatId.dictKey = .ok key')
    (found : GroupRow) (settings : GroupSettings) (flag : Flag) (value : Bool) :
    (holding (single row found) key settings).call (.setGroupFlag chatId (.flag flag) value) =
      some (.done, { groups := single row (found.setFlag flag value), groupCache :=
        (holding (single row found) key settings).groupCache.invalidate key' }) := by
  have hset : (holding (single row found) key settings).groups.setColumn chatId (.flag flag) value =
      .ok (single row (found.setFlag flag value)) := setColumn_single hrow found flag value
  simp only [call, setGroupFlag, hset, invalidate, hkey]
  rfl

/-- Ids that are bound to one row are one key, or a read after the other one's
write is stale. -/
theorem Transparent.key_of_row {ids : Set PyVal} (h : Transparent ids) {a b : PyVal}
    (ha : a ∈ ids) (hb : b ∈ ids) {row : String} (harow : sqlText a = .ok (some row))
    (hbrow : sqlText b = .ok (some row)) : a.dictKey = b.dictKey := by
  by_contra hne
  obtain ⟨key, hkey⟩ := exists_dictKey_of_sqlText harow
  obtain ⟨key', hkey'⟩ := exists_dictKey_of_sqlText hbrow
  have hkeys : key ≠ key' := fun heq => hne (by rw [hkey, hkey', heq])
  have hfirst : (new (single row {}) 1 1).call (.getGroup a 0 0) =
      some (.ofSettings (.ok (GroupRow.settings {} row)),
        holding (single row {}) key (GroupRow.settings {} row)) := by
    rw [call_getGroup, getGroup_new hkey (select_single harow {})]
  have hstale := getGroup_cached ⟨single row (GroupRow.setFlag {} .antiLink false),
    (holding (single row {}) key (GroupRow.settings {} row)).groupCache.invalidate key'⟩ hkey
    ((AList.lookup_erase_ne hkeys).trans (AList.lookup_insert _)) rfl
  have hcached : outputs Repository.call (new (single row {}) 1 1)
      [.getGroup a 0 0, .setGroupFlag b (.flag .antiLink) false, .getGroup a 0 0] =
      [.ofSettings (.ok (GroupRow.settings {} row)), .done,
        .ofSettings (.ok (GroupRow.settings {} row))] := by
    rw [outputs_cons hfirst, outputs_cons (call_setGroupFlag_holding hbrow hkey' _ _ _ _),
      outputs_cons (call_getGroup _ a 0 0), hstale]
    rfl
  have hbare : outputs Groups.call (single row {})
      [.getGroup a 0 0, .setGroupFlag b (.flag .antiLink) false, .getGroup a 0 0] =
      [.ofSettings ((single row {}).select a), .done,
        .ofSettings ((single row (GroupRow.setFlag {} .antiLink false)).select a)] := by
    have hcall : (single row {}).call (.setGroupFlag b (.flag .antiLink) false) =
        some (.done, single row (GroupRow.setFlag {} .antiLink false)) := by
      simp only [Groups.call, setColumn_single hbrow]
      rfl
    have hread : ∀ groups : Groups, groups.call (.getGroup a 0 0) =
        some (.ofSettings (groups.select a), groups) := fun _ => rfl
    rw [outputs_cons (hread _), outputs_cons hcall, outputs_cons (hread _)]
    rfl
  have hsame := h (single row {}) 1 1
    [.getGroup a 0 0, .setGroupFlag b (.flag .antiLink) false, .getGroup a 0 0]
    (by simp [SettingsCall.chatId, ha, hb])
  rw [hcached, hbare, select_single harow, select_single harow] at hsame
  have hlast := (List.cons.inj (List.cons.inj (List.cons.inj hsame).2).2).1
  have hflag := congrArg (fun seen : _ × GroupSettings => seen.2.antiLink)
    (Option.some.inj (SettingsReply.compared_of_ofSettings hlast.symm))
  cases hflag

/-- **When the cache is transparent.**  For every set of chat ids: every sequence
of calls about them answers, over every table, with every cache size and lifetime
and at any clock readings, as it would with no cache, if and only if any two of the
ids are one key of the cache exactly when they are bound to one row. -/
theorem cache_transparent_iff (ids : Set PyVal) : Transparent ids ↔ AllCongruent ids := by
  constructor
  · intro h a ha b hb
    exact ⟨h.bound_of_key ha hb, fun row => h.key_of_row ha hb⟩
  · exact transparent_of_allCongruent

/-- A group turns its link filter off through an inline button whose `chat_id` is
the number 1, and `get_group('1')` goes on to say that it is on. -/
theorem stale_through_number :
    outputs Repository.call (new (single "1" {}) 1024 90)
        [.getGroup (.str "1") 0 0, .setGroupFlag (.int 1) (.flag .antiLink) false,
          .getGroup (.str "1") 1 1] ≠
      outputs Groups.call (single "1" {})
        [.getGroup (.str "1") 0 0, .setGroupFlag (.int 1) (.flag .antiLink) false,
          .getGroup (.str "1") 1 1] := by
  intro h
  have hflags := congrArg (List.map fun
    | .settings seen => seen.2.antiLink
    | _ => false) h
  revert hflags
  decide +kernel

end Repository

end RubicaBot
