import RubicaBot.EnvFile

/-!
# RubicaBot.EnvFile.Configure

`rubikactl configure`: what a run that accepts the default at every prompt writes over
an existing `.env` file, and when it keeps the keys it was given no value for.

The old values come back from `read_env`, so they are stripped and of one line
(`isEnvValue_of_lookup`) and are rendered as they were.  A key can still be lost: if the
command does not write it, if it is the API address, whose default hides the stored
value, or if a line break in a given value assigns it.
-/

namespace RubicaBot

open Py

/-! ## the command -/

/-- `prompt_value`.  Of the answers that the user gives, `none` accepts the default;
without another answer the prompt does not end. -/
def promptValue (default : Option String) (required : Bool) :
    List (Option String) → Option (String × List (Option String))
  | [] => none
  | answer :: answers =>
      let value := strip (answer.getD (default.getD ""))
      if value ≠ "" then some (value, answers)
      else match default with
        | some default => some (default, answers)
        | none => if required then promptValue default required answers else some ("", answers)

/-- `given or prompt_value(…)`. -/
def orPrompt (given : String) (default : Option String) (required : Bool)
    (answers : List (Option String)) : Option (String × List (Option String)) :=
  if given ≠ "" then some (given, answers) else promptValue default required answers

/-- The options of `configure` as they stand on the command line. -/
structure ConfigureOptions where
  token : Option String := none
  ownerId : Option String := none
  webhookBaseUrl : Option String := none
  apiBaseUrl : Option String := none
  webhookSecret : Option String := none
  force : Bool := false

/-- The default of `--api-base-url`. -/
def defaultApiBaseUrl : String := "https://botapi.rubika.ir/v3"

/-- How `configure` ends: with a file, with `BadParameter`, or at a prompt without an answer. -/
inductive ConfigureEnd where
  | saved (envText : String)
  | badParameter
  | unanswered
deriving DecidableEq

/-- The text that `configure` renders. -/
def ConfigureOptions.envText (o : ConfigureOptions) (existing : Dict String String)
    (answers : List (Option String)) : Option String := do
  let (token, answers) ←
    orPrompt (o.token.getD "") (existing.lookup "RUBIKA_BOT_TOKEN") true answers
  let (ownerId, answers) ←
    orPrompt (o.ownerId.getD "") (existing.lookup "RUBIKA_OWNER_ID") true answers
  let apiBaseUrl := o.apiBaseUrl.getD defaultApiBaseUrl
  let apiBaseUrl :=
    if apiBaseUrl ≠ "" then apiBaseUrl
    else (existing.lookup "RUBIKA_API_BASE_URL").getD apiBaseUrl
  let (webhookBaseUrl, _) ←
    orPrompt (o.webhookBaseUrl.getD "")
      (some ((existing.lookup "RUBIKA_WEBHOOK_BASE_URL").getD "")) false answers
  let webhookSecret :=
    if o.webhookSecret.getD "" ≠ "" then o.webhookSecret.getD ""
    else (existing.lookup "RUBIKA_WEBHOOK_SECRET").getD ""
  some (renderEnv token apiBaseUrl webhookBaseUrl webhookSecret (some ownerId))

/-- `configure`. -/
def configure (o : ConfigureOptions) (file : Option String) (answers : List (Option String)) :
    ConfigureEnd :=
  match o.envText (readEnv file) answers with
  | none => .unanswered
  | some envText => if file.isSome ∧ ¬ o.force then .badParameter else .saved envText

/-! ## the stored values -/

/-- What `read_env` has read is stripped and of one line. -/
theorem isEnvValue_of_lookup {content key value : String}
    (h : (readEnv (some content)).lookup key = some value) : IsEnvValue value := by
  rw [readEnv_eq, lookup_assign, AList.lookup_empty, Option.or_none] at h
  have hmem := List.mem_reverse.mp (Recency.mem_of_last h)
  obtain ⟨line, hline, hread⟩ := List.mem_filterMap.mp hmem
  unfold readEnvLine at hread
  split at hread
  · cases hread
  · simp only [Option.some.injEq, Prod.mk.injEq] at hread
    obtain ⟨-, rfl⟩ := hread
    refine ⟨strip_strip _, fun c hc => ?_⟩
    have hin := mem_of_mem_strip hc
    rw [cut, String.toList_ofList, String.toList_ofList] at hin
    exact forall_of_mem_linesFrom (fun c hc => absurd hc List.not_mem_nil) hline c
      ((List.dropWhile_suffix _).subset (List.mem_of_mem_tail hin))

/-! ## a run that accepts the defaults -/

/-- The value that is rendered: the one that is given, or the stored one. -/
def pick (given stored : String) : String := if given ≠ "" then given else stored

/-- Who presses return accepts the default. -/
theorem promptValue_of_default {default : Option String}
    (hdefault : ∀ value, default = some value → strip value = value) {required : Bool}
    {answers : List (Option String)} (hanswers : ∀ answer ∈ answers, answer = none)
    {value : String} {rest : List (Option String)}
    (h : promptValue default required answers = some (value, rest)) :
    value = default.getD "" ∧ (required → default.isSome) ∧ ∀ answer ∈ rest, answer = none := by
  induction answers with
  | nil => cases h
  | cons answer answers ih =>
      obtain ⟨rfl, hrest⟩ := List.forall_mem_cons.mp hanswers
      have hstrip : strip (default.getD "") = default.getD "" := by
        cases default with
        | none => rfl
        | some value => exact hdefault value rfl
      simp only [promptValue, Option.getD_none, hstrip] at h
      cases default with
      | none =>
          cases required with
          | true => exact ih hrest h
          | false =>
              cases h
              exact ⟨rfl, fun h => absurd h (by simp), hrest⟩
      | some default =>
          split at h <;> cases h <;> exact ⟨rfl, fun _ => rfl, hrest⟩

/-- If nothing was given. -/
theorem orPrompt_of_default {given : String} {default : Option String}
    (hdefault : ∀ value, default = some value → strip value = value) {required : Bool}
    {answers : List (Option String)} (hanswers : ∀ answer ∈ answers, answer = none)
    {value : String} {rest : List (Option String)}
    (h : orPrompt given default required answers = some (value, rest)) :
    value = pick given (default.getD "") ∧ (required → given = "" → default.isSome) ∧
      ∀ answer ∈ rest, answer = none := by
  unfold orPrompt at h
  unfold pick
  split at h
  · next hgiven =>
      cases h
      exact ⟨(if_pos hgiven).symm, fun _ hempty => absurd hempty hgiven, hanswers⟩
  · next hgiven =>
      obtain ⟨hvalue, hsome, hrest⟩ := promptValue_of_default hdefault hanswers h
      exact ⟨by rw [if_neg hgiven, hvalue], fun hreq _ => hsome hreq, hrest⟩

/-- What the file has for the key; a key that is not there is as good as an empty one. -/
def storedValue (existing : Dict String String) (key : String) : String :=
  (existing.lookup key).getD ""

/-- The settings that a run that accepts the defaults writes. -/
def ConfigureOptions.settings (o : ConfigureOptions) (existing : Dict String String) :
    List (String × String) :=
  envSettings (pick (o.token.getD "") (storedValue existing "RUBIKA_BOT_TOKEN"))
    (pick (o.apiBaseUrl.getD defaultApiBaseUrl) (storedValue existing "RUBIKA_API_BASE_URL"))
    (pick (o.webhookBaseUrl.getD "") (storedValue existing "RUBIKA_WEBHOOK_BASE_URL"))
    (pick (o.webhookSecret.getD "") (storedValue existing "RUBIKA_WEBHOOK_SECRET"))
    (some (pick (o.ownerId.getD "") (storedValue existing "RUBIKA_OWNER_ID")))

/-- What is stored is accepted as it is. -/
theorem envText_of_default {o : ConfigureOptions} {existing : Dict String String} {text : String}
    (hstored : ∀ key value, existing.lookup key = some value → strip value = value)
    {answers : List (Option String)} (hanswers : ∀ answer ∈ answers, answer = none)
    (h : o.envText existing answers = some text) :
    renderLines (o.settings existing) = text ∧
      (o.token = none → (existing.lookup "RUBIKA_BOT_TOKEN").isSome) := by
  simp only [ConfigureOptions.envText, Option.bind_eq_bind, Option.bind_eq_some_iff,
    Option.some_inj] at h
  obtain ⟨⟨token, answers₁⟩, htoken, ⟨ownerId, answers₂⟩, howner, ⟨webhook, answers₃⟩,
    hwebhook, htext⟩ := h
  obtain ⟨rfl, hsome, hanswers₁⟩ := orPrompt_of_default (hstored _) hanswers htoken
  obtain ⟨rfl, -, hanswers₂⟩ := orPrompt_of_default (hstored _) hanswers₁ howner
  have hnone : strip "" = "" := rfl
  have hdefault : ∀ value, some ((existing.lookup "RUBIKA_WEBHOOK_BASE_URL").getD "") =
      some value → strip value = value := by
    intro value heq
    cases heq
    cases hl : existing.lookup "RUBIKA_WEBHOOK_BASE_URL" with
    | none => exact hnone
    | some value => exact hstored _ value hl
  obtain ⟨rfl, -, -⟩ := orPrompt_of_default hdefault hanswers₂ hwebhook
  have hapi : (if o.apiBaseUrl.getD defaultApiBaseUrl ≠ "" then
      o.apiBaseUrl.getD defaultApiBaseUrl
      else (existing.lookup "RUBIKA_API_BASE_URL").getD (o.apiBaseUrl.getD defaultApiBaseUrl)) =
      pick (o.apiBaseUrl.getD defaultApiBaseUrl) (storedValue existing "RUBIKA_API_BASE_URL") := by
    unfold pick storedValue
    split
    · rfl
    · next hempty => rw [not_not.mp hempty]
  rw [hapi] at htext
  exact ⟨htext, fun homitted => hsome rfl (by rw [homitted]; rfl)⟩

/-- What is saved are the settings. -/
theorem configure_saved {o : ConfigureOptions} {content text : String}
    {answers : List (Option String)} (hanswers : ∀ answer ∈ answers, answer = none)
    (h : configure o (some content) answers = .saved text) :
    renderLines (o.settings (readEnv (some content))) = text ∧
      (o.token = none → ((readEnv (some content)).lookup "RUBIKA_BOT_TOKEN").isSome) := by
  refine envText_of_default (fun key value hl => (isEnvValue_of_lookup hl).stripped) hanswers ?_
  unfold configure at h
  split at h
  · cases h
  · next henv =>
      split at h
      · cases h
      · cases h
        exact henv

/-! ## which keys are kept -/

/-- The options in the order in which their values are rendered. -/
def ConfigureOptions.fields (o : ConfigureOptions) : List (String × Option String) :=
  [("RUBIKA_BOT_TOKEN", o.token), ("RUBIKA_API_BASE_URL", o.apiBaseUrl),
    ("RUBIKA_OWNER_ID", o.ownerId), ("RUBIKA_WEBHOOK_BASE_URL", o.webhookBaseUrl),
    ("RUBIKA_WEBHOOK_SECRET", o.webhookSecret)]

/-- The option of the key is given. -/
def ConfigureOptions.Supplies (o : ConfigureOptions) (key : String) : Prop :=
  ∃ value, (key, some value) ∈ o.fields

/-- A key whose option is omitted has a line of its own in the new file. -/
def HasLine (existing : Dict String String) (key : String) : Prop :=
  key = "RUBIKA_BOT_TOKEN" ∨ key = "RUBIKA_API_BASE_URL" ∨
    key ∈ envKeys ∧ storedValue existing key ≠ ""

instance (existing : Dict String String) (key : String) : Decidable (HasLine existing key) :=
  inferInstanceAs (Decidable (_ ∨ _ ∨ _ ∧ _))

/-- What line breaks in the given values assign, after the line of the key if it has one. -/
def ConfigureOptions.injectedAfter (o : ConfigureOptions) (existing : Dict String String)
    (key : String) : List (String × String) :=
  (if HasLine existing key then o.fields.dropWhile fun field => field.1 ≠ key
    else o.fields).flatMap fun field => injected (field.2.getD "")

/-- The command, left to its defaults, has the stored value of the key: it always
has that of the token; that of the API address if it is the default; those of the
other keys that it writes if they are not empty; and no others. -/
def Survives (existing : Dict String String) (key : String) : Prop :=
  if key = "RUBIKA_BOT_TOKEN" then True
  else if key = "RUBIKA_API_BASE_URL" then existing.lookup key = some defaultApiBaseUrl
  else if key ∈ envKeys then existing.lookup key ≠ some ""
  else existing.lookup key = none

/-- The key keeps its value: what is injected is that value or, if nothing is, it
survives. -/
def ConfigureOptions.Keeps (o : ConfigureOptions) (existing : Dict String String)
    (key : String) : Prop :=
  match latest key (o.injectedAfter existing key) with
  | some value => existing.lookup key = some value
  | none => Survives existing key

/-- What has been read can be written again. -/
theorem isEnvValue_storedValue (content key : String) :
    IsEnvValue (storedValue (readEnv (some content)) key) := by
  unfold storedValue
  cases hl : (readEnv (some content)).lookup key with
  | none => decide +kernel
  | some value => exact isEnvValue_of_lookup hl

/-- So only an option can inject something. -/
theorem injected_pick (given : String) {stored : String} (h : IsEnvValue stored) :
    injected (pick given stored) = injected given := by
  unfold pick
  split
  · rfl
  · next hempty =>
      rw [not_not.mp hempty, injected_of_isEnvValue h]
      rfl

/-- What a setting assigns to a key. -/
theorem latest_assigned (key key' value : String) : latest key (assigned (key', value)) =
    (latest key (injected value)).or
      (if key' = key then some (strip (String.ofList (firstLine value.toList))) else none) :=
  latest_cons _ _ _ _

/-- And what it assigns if it is written at all. -/
theorem latest_assigned_ifGiven (key key' value : String) :
    latest key ((ifGiven key' value).flatMap assigned) = (latest key (injected value)).or
      (if key' = key ∧ value ≠ "" then some (strip (String.ofList (firstLine value.toList)))
        else none) := by
  unfold ifGiven
  by_cases hvalue : value = ""
  · subst hvalue
    simp [injected, furtherLines]
  · simp [hvalue, latest_assigned]

/-- The line of the key, if its option is omitted. -/
def ownLine (existing : Dict String String) (key : String) : Option String :=
  if key = "RUBIKA_BOT_TOKEN" then some (storedValue existing key)
  else if key = "RUBIKA_API_BASE_URL" then some defaultApiBaseUrl
  else if key ∈ envKeys ∧ storedValue existing key ≠ "" then some (storedValue existing key)
  else none

/-- The option of that key was not given. -/
theorem omitted_of_not_supplies {o : ConfigureOptions} {key : String} (hkey : ¬ o.Supplies key)
    (option : Option String) (hmem : (key, option) ∈ o.fields) : option = none := by
  cases option with
  | none => rfl
  | some value => exact absurd ⟨value, hmem⟩ hkey

/-- A value that was read is a line, and stripped. -/
theorem strip_firstLine_storedValue (content key : String) :
    strip (String.ofList (firstLine (storedValue (readEnv (some content)) key).toList)) =
      storedValue (readEnv (some content)) key := by
  have hvalue := isEnvValue_storedValue content key
  rw [firstLine_of_forall hvalue.oneLine, String.ofList_toList, hvalue.stripped]

/-- What is injected after the line of a key overrides it, and the line what is injected
before. -/
theorem latest_settings {o : ConfigureOptions} {content key : String}
    (hkey : ¬ o.Supplies key) :
    latest key ((o.settings (readEnv (some content))).flatMap assigned) =
      (latest key (o.injectedAfter (readEnv (some content)) key)).or
        (ownLine (readEnv (some content)) key) := by
  have hfirst := strip_firstLine_storedValue content
  have hapi : injected (o.apiBaseUrl.getD defaultApiBaseUrl) =
      injected (o.apiBaseUrl.getD "") := by
    cases o.apiBaseUrl with
    | none => decide
    | some value => rfl
  simp only [ConfigureOptions.settings, envSettings, List.flatMap_append, List.flatMap_cons,
    List.flatMap_nil, List.append_nil, latest_append, latest_assigned, latest_assigned_ifGiven,
    injected_pick _ (isEnvValue_storedValue content _), Option.getD_some, hapi]
  have hempty : injected "" = [] := by decide
  by_cases hmem : key ∈ envKeys
  · simp only [envKeys, List.mem_cons, List.not_mem_nil, or_false] at hmem
    obtain rfl | rfl | rfl | rfl | rfl := hmem
    · have hnone := omitted_of_not_supplies hkey o.token (by simp [ConfigureOptions.fields])
      simp [ConfigureOptions.injectedAfter, HasLine, ConfigureOptions.fields, ownLine, hnone,
        hempty, pick, hfirst, latest_append]
    · have hnone := omitted_of_not_supplies hkey o.apiBaseUrl (by simp [ConfigureOptions.fields])
      have hdefault : pick defaultApiBaseUrl
          (storedValue (readEnv (some content)) "RUBIKA_API_BASE_URL") = defaultApiBaseUrl :=
        if_pos (by decide)
      have hline : strip (String.ofList (firstLine defaultApiBaseUrl.toList)) =
          defaultApiBaseUrl := by decide
      simp [ConfigureOptions.injectedAfter, HasLine, ConfigureOptions.fields, ownLine, hnone,
        hempty, hdefault, hline, latest_append, Option.or_assoc]
    · have hnone := omitted_of_not_supplies hkey o.ownerId (by simp [ConfigureOptions.fields])
      by_cases hstored : storedValue (readEnv (some content)) "RUBIKA_OWNER_ID" = "" <;>
        simp [ConfigureOptions.injectedAfter, HasLine, ConfigureOptions.fields, ownLine, hnone,
          hempty, pick, hfirst, latest_append, envKeys, hstored, Option.or_assoc]
    · have hnone := omitted_of_not_supplies hkey o.webhookBaseUrl
        (by simp [ConfigureOptions.fields])
      by_cases hstored : storedValue (readEnv (some content)) "RUBIKA_WEBHOOK_BASE_URL" = "" <;>
        simp [ConfigureOptions.injectedAfter, HasLine, ConfigureOptions.fields, ownLine, hnone,
          hempty, pick, hfirst, latest_append, envKeys, hstored, Option.or_assoc]
    · have hnone := omitted_of_not_supplies hkey o.webhookSecret (by simp [ConfigureOptions.fields])
      by_cases hstored : storedValue (readEnv (some content)) "RUBIKA_WEBHOOK_SECRET" = "" <;>
        simp [ConfigureOptions.injectedAfter, HasLine, ConfigureOptions.fields, ownLine, hnone,
          hempty, pick, hfirst, latest_append, envKeys, hstored, Option.or_assoc]
  · have hne : ∀ key' ∈ envKeys, key' ≠ key := fun key' hk heq => hmem (heq ▸ hk)
    simp only [envKeys, List.forall_mem_cons] at hne
    obtain ⟨htoken, hapi, howner, hwebhook, hsecret, -⟩ := hne
    simp [ConfigureOptions.injectedAfter, HasLine, ConfigureOptions.fields, ownLine, hmem,
      latest_append, htoken, hapi, howner, hwebhook, hsecret, Ne.symm htoken, Ne.symm hapi,
      Option.or_assoc]

/-- The line of a key keeps its value if the value survives. -/
theorem ownLine_eq_iff {existing : Dict String String} {key : String}
    (htoken : key = "RUBIKA_BOT_TOKEN" → (existing.lookup key).isSome) :
    ownLine existing key = existing.lookup key ↔ Survives existing key := by
  unfold ownLine Survives
  by_cases hfirst : key = "RUBIKA_BOT_TOKEN"
  · obtain ⟨value, hvalue⟩ := Option.isSome_iff_exists.mp (htoken hfirst)
    simp only [if_pos hfirst, storedValue, hvalue, Option.getD_some]
  · rw [if_neg hfirst, if_neg hfirst]
    by_cases hapi : key = "RUBIKA_API_BASE_URL"
    · rw [if_pos hapi, if_pos hapi, eq_comm]
    · rw [if_neg hapi, if_neg hapi]
      by_cases hmem : key ∈ envKeys
      · rw [if_pos hmem]
        cases hl : existing.lookup key with
        | none => simp [storedValue, hl]
        | some value => by_cases hvalue : value = "" <;> simp [storedValue, hl, hmem, hvalue]
      · rw [if_neg fun h => hmem h.1, if_neg hmem, eq_comm]

/-- **What reconfiguring keeps.**  A run over an existing file that accepts the defaults
leaves the keys that it is given no value for as they were exactly when each of them
survives, or a line break in a given value assigns it the old value. -/
theorem configure_keeps_iff {o : ConfigureOptions} {content text : String}
    {answers : List (Option String)} (hanswers : ∀ answer ∈ answers, answer = none)
    (h : configure o (some content) answers = .saved text) :
    (∀ key, ¬ o.Supplies key →
      (readEnv (some text)).lookup key = (readEnv (some content)).lookup key) ↔
    ∀ key, ¬ o.Supplies key → o.Keeps (readEnv (some content)) key := by
  obtain ⟨rfl, htoken⟩ := configure_saved hanswers h
  have hkeys : ∀ setting ∈ o.settings (readEnv (some content)), IsEnvKey setting.1 :=
    fun setting hs => isEnvKey_of_mem_envSettings hs
  refine forall₂_congr fun key hkey => ?_
  have hown : ownLine (readEnv (some content)) key = (readEnv (some content)).lookup key ↔
      Survives (readEnv (some content)) key := ownLine_eq_iff fun hfirst => by
    subst hfirst
    refine htoken ?_
    cases hoption : o.token with
    | none => rfl
    | some value => exact absurd ⟨value, by simp [ConfigureOptions.fields, hoption]⟩ hkey
  rw [readEnv_eq (renderLines _), assignments_renderLines hkeys, lookup_assign,
    AList.lookup_empty, Option.or_none, latest_settings hkey, ConfigureOptions.Keeps]
  cases latest key (o.injectedAfter (readEnv (some content)) key) with
  | none => exact hown
  | some value => exact eq_comm

/-- Values of one line inject nothing. -/
theorem keeps_iff_survives {o : ConfigureOptions} {existing : Dict String String}
    (h : ∀ field ∈ o.fields, IsEnvValue (field.2.getD "")) (key : String) :
    o.Keeps existing key ↔ Survives existing key := by
  have hnil : o.injectedAfter existing key = [] := by
    refine List.flatMap_eq_nil_iff.mpr fun field hmem => injected_of_isEnvValue (h field ?_)
    split at hmem
    · exact (List.dropWhile_suffix _).subset hmem
    · exact hmem
  rw [ConfigureOptions.Keeps, hnil, latest_nil]

/-- The keys that survive can be counted. -/
theorem survives_of_mem {existing : Dict String String}
    (h : ∀ key ∈ existing.keys ++ envKeys, Survives existing key) (key : String) :
    Survives existing key := by
  by_cases hmem : key ∈ existing.keys ++ envKeys
  · exact h key hmem
  · obtain ⟨hnot, henv⟩ := not_or.mp (mt List.mem_append.mpr hmem)
    have hne : ∀ key' ∈ envKeys, key ≠ key' := fun key' hk heq => henv (heq ▸ hk)
    rw [Survives, if_neg (hne _ (by decide)), if_neg (hne _ (by decide)), if_neg henv]
    exact AList.lookup_eq_none.mpr hnot

instance (existing : Dict String String) (key : String) : Decidable (Survives existing key) :=
  inferInstanceAs (Decidable (ite _ _ _))

/-- An `.env` file with a self-hosted API and a database of its own. -/
def selfHosted : List (String × String) :=
  [("RUBIKA_BOT_TOKEN", "t"), ("RUBIKA_API_BASE_URL", "https://api.local"),
    ("RUBIKA_OWNER_ID", "1"), ("RUBIKA_DB_URL", "sqlite:///data/live.db")]

/-- The API address and the database are lost although no option was given. -/
theorem configure_selfHosted :
    let text := renderLines [("RUBIKA_BOT_TOKEN", "t"), ("RUBIKA_API_BASE_URL", defaultApiBaseUrl),
      ("RUBIKA_OWNER_ID", "1")]
    configure { force := true } (some (renderLines selfHosted)) [none, none, none] = .saved text ∧
      ¬ ∀ key, ¬ ConfigureOptions.Supplies { force := true } key →
        (readEnv (some text)).lookup key =
          (readEnv (some (renderLines selfHosted))).lookup key := by
  have hold : readEnv (some (renderLines selfHosted)) = Dict.assign ∅ selfHosted :=
    readEnv_renderLines (by decide +kernel) (by decide +kernel)
  refine ⟨by rw [configure, hold]; rfl, fun hkeeps => ?_⟩
  have hapi := hkeeps "RUBIKA_API_BASE_URL" (by simp [ConfigureOptions.Supplies,
    ConfigureOptions.fields])
  rw [hold, readEnv_renderLines (by decide +kernel) (by decide +kernel)] at hapi
  exact absurd hapi (by decide +kernel)

/-- A file with the default API and only keys that the command writes. -/
def hosted : List (String × String) :=
  [("RUBIKA_BOT_TOKEN", "t"), ("RUBIKA_API_BASE_URL", defaultApiBaseUrl),
    ("RUBIKA_OWNER_ID", "1")]

/-- A new token, and all else is kept. -/
theorem configure_keeps_hosted :
    ∃ text, configure { token := some "u", force := true } (some (renderLines hosted))
        [none, none] = .saved text ∧
      ∀ key, ¬ ConfigureOptions.Supplies { token := some "u", force := true } key →
        (readEnv (some text)).lookup key = (readEnv (some (renderLines hosted))).lookup key := by
  have hold : readEnv (some (renderLines hosted)) = Dict.assign ∅ hosted :=
    readEnv_renderLines (by decide +kernel) (by decide +kernel)
  have hsaved : configure { token := some "u", force := true } (some (renderLines hosted))
      [none, none] = .saved (renderEnv "u" defaultApiBaseUrl "" "" (some "1")) := by
    rw [configure, hold]
    rfl
  refine ⟨_, hsaved, (configure_keeps_iff (by decide +kernel) hsaved).mpr fun key _ => ?_⟩
  rw [hold]
  exact (keeps_iff_survives (by decide +kernel) key).mpr (survives_of_mem (by decide +kernel) key)

end RubicaBot
