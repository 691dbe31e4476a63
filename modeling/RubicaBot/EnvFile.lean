import RubicaBot.Dedup
import RubicaBot.Lines

/-!
# RubicaBot.EnvFile

The `.env` file: `render_env` of `install.py` writes it, and `read_env` of
`app/cli/rubikactl.py` reads it.

A value is read back as it was written up to the first boundary in it; what follows is
lines of their own, which may assign other keys (`assigned`).  So what is read of the
rendered settings is what they assign, one after another (`assignments_render`), and
that is the settings themselves when the values are stripped and of one line.
-/

namespace RubicaBot

open Py

/-! ## assigning the keys of a dictionary one after another -/

section Assign

variable {κ ν : Type} [DecidableEq κ]

/-- The value that the last assignment to the key assigns. -/
def latest (key : κ) (settings : List (κ × ν)) : Option ν := Recency.last key settings.reverse

/-- `data[key] = value` for each of the settings. -/
def Dict.assign (data : Dict κ ν) (settings : List (κ × ν)) : Dict κ ν :=
  settings.foldl (fun data setting => data.insert setting.1 setting.2) data

@[simp] theorem latest_nil (key : κ) : latest key ([] : List (κ × ν)) = none := rfl

/-- The later settings come first. -/
theorem latest_append (key : κ) (before after : List (κ × ν)) :
    latest key (before ++ after) = (latest key after).or (latest key before) := by
  simp [latest, Recency.last, List.find?_append, Option.map_or]

@[simp] theorem latest_singleton (key key' : κ) (value : ν) :
    latest key [(key', value)] = if key' = key then some value else none := by
  simp only [latest, Recency.last, List.reverse_singleton, List.find?_cons, List.find?_nil]
  by_cases h : key' = key <;> simp [h]

/-- The first setting is the one to be replaced. -/
theorem latest_cons (key key' : κ) (value : ν) (settings : List (κ × ν)) :
    latest key ((key', value) :: settings) =
      (latest key settings).or (if key' = key then some value else none) := by
  rw [← List.singleton_append, latest_append, latest_singleton]

/-- The last assignment counts. -/
theorem lookup_assign (data : Dict κ ν) (settings : List (κ × ν)) (key : κ) :
    (data.assign settings).lookup key = (latest key settings).or (data.lookup key) := by
  induction settings generalizing data with
  | nil => rfl
  | cons setting settings ih =>
      obtain ⟨key', value⟩ := setting
      have hfirst : Dict.assign data ((key', value) :: settings) =
          Dict.assign (data.insert key' value) settings := rfl
      rw [hfirst, ih, latest_cons, Option.or_assoc]
      by_cases hk : key' = key
      · subst hk
        rw [AList.lookup_insert, if_pos rfl, Option.some_or]
      · rw [AList.lookup_insert_ne (Ne.symm hk), if_neg hk, Option.none_or]

end Assign

/-! ## reading -/

/-- `s.split(sep, 1)` of a text with `sep` in it. -/
def cut (sep : Char) (s : String) : String × String :=
  (String.ofList (s.toList.takeWhile (· ≠ sep)),
    String.ofList (s.toList.dropWhile (· ≠ sep)).tail)

/-- What one line assigns, if it is not skipped. -/
def readEnvLine (line : String) : Option (String × String) :=
  if line = "" ∨ startsWith line "#" ∨ ¬ contains line "=" then none
  else some (strip (cut '=' line).1, strip (cut '=' line).2)

/-- `read_env`, of the text in the file, if there is one. -/
def readEnv (file : Option String) : Dict String String :=
  match file with
  | none => ∅
  | some content => Dict.assign ∅ ((splitLines (readText content)).filterMap readEnvLine)

/-! ## rendering -/

/-- `if value: lines.append(f"{key}={value}")`. -/
def ifGiven (key value : String) : List (String × String) :=
  if value = "" then [] else [(key, value)]

/-- The keys and values of the lines that `render_env` collects. -/
def envSettings (token apiBaseUrl webhookBaseUrl webhookSecret : String)
    (ownerId : Option String) : List (String × String) :=
  [("RUBIKA_BOT_TOKEN", token), ("RUBIKA_API_BASE_URL", apiBaseUrl)] ++
    ifGiven "RUBIKA_OWNER_ID" (ownerId.getD "") ++
    ifGiven "RUBIKA_WEBHOOK_BASE_URL" webhookBaseUrl ++
    ifGiven "RUBIKA_WEBHOOK_SECRET" webhookSecret

/-- `"\n".join(lines) + "\n"`. -/
def renderLines (settings : List (String × String)) : String :=
  "\n".intercalate (settings.map fun setting => setting.1 ++ "=" ++ setting.2) ++ "\n"

/-- `render_env`. -/
def renderEnv (token apiBaseUrl webhookBaseUrl webhookSecret : String)
    (ownerId : Option String) : String :=
  renderLines (envSettings token apiBaseUrl webhookBaseUrl webhookSecret ownerId)

/-! ## what the rendered settings assign -/

/-- A key that is read back as it is written. -/
structure IsEnvKey (key : String) : Prop where
  noEquals : '=' ∉ key.toList
  noComment : startsWith key "#" = false
  oneLine : ∀ c ∈ key.toList, isLineBoundary c = false
  stripped : strip key = key

/-- A value that is read back as it is written. -/
structure IsEnvValue (value : String) : Prop where
  stripped : strip value = value
  oneLine : ∀ c ∈ value.toList, isLineBoundary c = false

/-- What the lines of a text assign. -/
def assignments (cs : List Char) : List (String × String) :=
  (linesFrom false [] cs).filterMap fun line => readEnvLine (String.ofList line)

/-- What the lines after the first boundary in a value assign. -/
def injected (value : String) : List (String × String) :=
  (furtherLines value.toList).filterMap fun line => readEnvLine (String.ofList line)

/-- What a rendered setting assigns. -/
def assigned (setting : String × String) : List (String × String) :=
  (setting.1, strip (String.ofList (firstLine setting.2.toList))) :: injected setting.2

/-- The file is a list of assignments. -/
theorem readEnv_eq (content : String) :
    readEnv (some content) = Dict.assign ∅ (assignments content.toList) := by
  rw [readEnv, splitLines_readText, splitLines, List.filterMap_map]
  rfl

/-- What is read line by line is read piece by piece. -/
theorem assignments_append (xs ys : List Char) :
    assignments (xs ++ '\n' :: ys) = assignments xs ++ assignments ys :=
  filterMap_linesFrom_append rfl (fun h => absurd h (by simp)) xs ys

/-- A line with a key of the program. -/
theorem readEnvLine_of_isEnvKey {key line : String} {cs : List Char} (hkey : IsEnvKey key)
    (hline : line.toList = key.toList ++ '=' :: cs) :
    readEnvLine line = some (key, strip (String.ofList cs)) := by
  have hnot : ∀ c ∈ key.toList, decide (c ≠ '=') = true := fun c hc =>
    decide_eq_true fun heq => hkey.noEquals (heq ▸ hc)
  have hcut : cut '=' line = (key, String.ofList cs) := by
    rw [cut, hline, List.takeWhile_append_of_pos hnot, List.dropWhile_append_of_pos hnot]
    simp
  have hcomment : startsWith line "#" = false := by
    have hno := hkey.noComment
    unfold startsWith at hno ⊢
    rw [hline]
    cases hk : key.toList with
    | nil => rfl
    | cons c rest =>
        rw [hk] at hno
        exact hno
  have hcontains : contains line "=" = true := by
    rw [contains, hline, decide_eq_true_iff]
    exact ⟨key.toList, cs, by simp⟩
  have hne : line ≠ "" := fun h => by
    rw [h] at hline
    simp at hline
  have hskip : ¬ (line = "" ∨ startsWith line "#" = true ∨ ¬ contains line "=" = true) := by
    rw [hcomment, hcontains]
    exact fun h => h.elim hne fun h => h.elim Bool.false_ne_true fun h => h rfl
  rw [readEnvLine, if_neg hskip, hcut, hkey.stripped]

/-- What a setting becomes once it is written and read. -/
theorem assignments_setting {key : String} (hkey : IsEnvKey key) (value : String) :
    assignments (key.toList ++ '=' :: value.toList) = assigned (key, value) := by
  have hline : ∀ c ∈ key.toList ++ ['='], isLineBoundary c = false := fun c hc => by
    obtain hc | hc := List.mem_append.mp hc
    · exact hkey.oneLine c hc
    · rw [List.mem_singleton.mp hc]
      rfl
  have hsplit : key.toList ++ '=' :: value.toList = (key.toList ++ ['=']) ++ value.toList := by simp
  rw [assignments, hsplit, linesFrom_append hline, List.nil_append,
    linesFrom_of_ne_nil (by simp), List.filterMap_cons, List.append_assoc,
    List.singleton_append, readEnvLine_of_isEnvKey hkey (String.toList_ofList)]
  rfl

/-- **Reading what is rendered.** -/
theorem assignments_renderLines {settings : List (String × String)}
    (hkeys : ∀ setting ∈ settings, IsEnvKey setting.1) :
    assignments (renderLines settings).toList = settings.flatMap assigned := by
  rw [renderLines, String.toList_append, String.toList_intercalate]
  induction settings with
  | nil => rfl
  | cons setting settings ih =>
      have hkey := hkeys setting List.mem_cons_self
      have hline : (setting.1 ++ "=" ++ setting.2).toList =
          setting.1.toList ++ '=' :: setting.2.toList := by simp
      have hrest := ih fun s hs => hkeys s (List.mem_cons_of_mem _ hs)
      cases settings with
      | nil =>
          have hlast := assignments_append (setting.1.toList ++ '=' :: setting.2.toList) []
          rw [assignments_setting hkey] at hlast
          simpa [assignments, linesFrom] using hlast
      | cons setting' settings =>
          rw [List.map_cons, List.map_cons, List.map_cons, List.map_cons] at *
          rw [List.intercalate_cons_cons, hline, List.flatMap_cons, ← hrest,
            ← assignments_setting hkey, ← assignments_append]
          simp

/-! ## the round trip -/

/-- The keys that `render_env` writes. -/
def envKeys : List String :=
  ["RUBIKA_BOT_TOKEN", "RUBIKA_API_BASE_URL", "RUBIKA_OWNER_ID", "RUBIKA_WEBHOOK_BASE_URL",
    "RUBIKA_WEBHOOK_SECRET"]

/-- There is only one line. -/
theorem all_not_isLineBoundary_iff {cs : List Char} :
    (cs.all fun c => !isLineBoundary c) ↔ ∀ c ∈ cs, isLineBoundary c = false := by
  simp only [List.all_eq_true, Bool.not_eq_true']

instance (key : String) : Decidable (IsEnvKey key) :=
  decidable_of_iff ('=' ∉ key.toList ∧ startsWith key "#" = false ∧
    (key.toList.all fun c => !isLineBoundary c) ∧ strip key = key)
    ⟨fun h => ⟨h.1, h.2.1, all_not_isLineBoundary_iff.mp h.2.2.1, h.2.2.2⟩,
      fun h => ⟨h.1, h.2, all_not_isLineBoundary_iff.mpr h.3, h.4⟩⟩

instance (value : String) : Decidable (IsEnvValue value) :=
  decidable_of_iff (strip value = value ∧ (value.toList.all fun c => !isLineBoundary c))
    ⟨fun h => ⟨h.1, all_not_isLineBoundary_iff.mp h.2⟩,
      fun h => ⟨h.1, all_not_isLineBoundary_iff.mpr h.2⟩⟩

/-- The keys of the program are keys. -/
theorem isEnvKey_of_mem : ∀ key ∈ envKeys, IsEnvKey key := by decide +kernel

/-- A value that is empty is not written. -/
theorem mem_ifGiven {key value : String} {setting : String × String} :
    setting ∈ ifGiven key value ↔ value ≠ "" ∧ setting = (key, value) := by
  unfold ifGiven
  split <;> simp [*]

/-- Only keys of the program are written. -/
theorem isEnvKey_of_mem_envSettings {token apiBaseUrl webhookBaseUrl webhookSecret : String}
    {ownerId : Option String} {setting : String × String}
    (h : setting ∈ envSettings token apiBaseUrl webhookBaseUrl webhookSecret ownerId) :
    IsEnvKey setting.1 := by
  refine isEnvKey_of_mem _ ?_
  simp only [envSettings, List.mem_append, List.mem_cons, List.not_mem_nil, or_false,
    mem_ifGiven] at h
  obtain (((rfl | rfl) | ⟨-, rfl⟩) | ⟨-, rfl⟩) | ⟨-, rfl⟩ := h <;> simp [envKeys]

/-- A value of one line injects nothing. -/
theorem injected_of_isEnvValue {value : String} (h : IsEnvValue value) : injected value = [] := by
  rw [injected, furtherLines_of_forall h.oneLine, List.filterMap_nil]

/-- And is read back as it is. -/
theorem assigned_of_isEnvValue (key : String) {value : String} (h : IsEnvValue value) :
    assigned (key, value) = [(key, value)] := by
  rw [assigned, firstLine_of_forall h.oneLine, String.ofList_toList, h.stripped,
    injected_of_isEnvValue h]

/-- So are all settings with such values. -/
theorem readEnv_renderLines {settings : List (String × String)}
    (hkeys : ∀ setting ∈ settings, IsEnvKey setting.1)
    (hvalues : ∀ setting ∈ settings, IsEnvValue setting.2) :
    readEnv (some (renderLines settings)) = Dict.assign ∅ settings := by
  have hself : settings.flatMap assigned = settings :=
    (List.flatMap_congr fun setting hs =>
      assigned_of_isEnvValue setting.1 (hvalues setting hs)).trans
        (List.flatMap_singleton' settings)
  rw [readEnv_eq, assignments_renderLines hkeys, hself]

/-- A value as `render_env` takes it: nothing if it is empty. -/
def nonEmpty (value : String) : Option String := if value = "" then none else some value

/-- An empty value is as good as none. -/
theorem latest_ifGiven (key key' value : String) :
    latest key (ifGiven key' value) = if key' = key then nonEmpty value else none := by
  unfold ifGiven nonEmpty
  by_cases hvalue : value = ""
  · rw [if_pos hvalue, if_pos hvalue, ite_self, latest_nil]
  · rw [if_neg hvalue, if_neg hvalue, latest_singleton]

/-- **Reading undoes rendering.**  Of values that are stripped and of one line the token
and the API address are always read back, each of the others if it is not empty, and
nothing else is. -/
theorem readEnv_renderEnv {token apiBaseUrl webhookBaseUrl webhookSecret : String}
    {ownerId : Option String} (htoken : IsEnvValue token) (hapi : IsEnvValue apiBaseUrl)
    (hwebhook : IsEnvValue webhookBaseUrl) (hsecret : IsEnvValue webhookSecret)
    (howner : IsEnvValue (ownerId.getD "")) (key : String) :
    (readEnv (some
        (renderEnv token apiBaseUrl webhookBaseUrl webhookSecret ownerId))).lookup key =
      if key = "RUBIKA_BOT_TOKEN" then some token
      else if key = "RUBIKA_API_BASE_URL" then some apiBaseUrl
      else if key = "RUBIKA_OWNER_ID" then nonEmpty (ownerId.getD "")
      else if key = "RUBIKA_WEBHOOK_BASE_URL" then nonEmpty webhookBaseUrl
      else if key = "RUBIKA_WEBHOOK_SECRET" then nonEmpty webhookSecret
      else none := by
  have hvalues : ∀ setting ∈ envSettings token apiBaseUrl webhookBaseUrl webhookSecret ownerId,
      IsEnvValue setting.2 := by
    intro setting hs
    simp only [envSettings, List.mem_append, List.mem_cons, List.not_mem_nil, or_false,
      mem_ifGiven] at hs
    obtain (((rfl | rfl) | ⟨-, rfl⟩) | ⟨-, rfl⟩) | ⟨-, rfl⟩ := hs <;> assumption
  rw [renderEnv, readEnv_renderLines (fun _ hs => isEnvKey_of_mem_envSettings hs) hvalues,
    lookup_assign, AList.lookup_empty, Option.or_none, envSettings]
  simp only [latest_append, latest_cons, latest_nil, latest_ifGiven, Option.none_or,
    eq_comm (b := key)]
  split_ifs <;> simp_all

/-- A token with a comment sign, an equals sign, quotes and a space, and no secret. -/
theorem readEnv_renderEnv_signs :
    (readEnv (some (renderEnv "#a=\"b c\"" "https://botapi" "" "" (some "42")))).lookup
      "RUBIKA_BOT_TOKEN" = some "#a=\"b c\"" ∧
    (readEnv (some (renderEnv "#a=\"b c\"" "https://botapi" "" "" (some "42")))).lookup
      "RUBIKA_WEBHOOK_SECRET" = none := by
  have hread := @readEnv_renderEnv "#a=\"b c\"" "https://botapi" "" "" (some "42")
    (by decide +kernel) (by decide +kernel) (by decide +kernel) (by decide +kernel)
    (by decide +kernel)
  exact ⟨hread "RUBIKA_BOT_TOKEN", hread "RUBIKA_WEBHOOK_SECRET"⟩

end RubicaBot
