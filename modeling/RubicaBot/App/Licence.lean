import RubicaBot.App.Rest
import RubicaBot.Plugins.Suspending.Licence
import RubicaBot.Plugins.Suspending.Sentence

/-!
# RubicaBot.App.Licence

Who is behind what the process does.

A dispatch keeps to what the tables allow that it starts on (`processJob_allowed`), and
these are the ones its predecessors left.  So every call that any of them ever makes, and
every change of the rules, has an update behind it that licences it; and who is an admin
never changes.

No other dispatch can come between an offence and what is to be done about it either: the
sentence is passed on those tables, and carried out call by call.  The client alone can put
an end to it, by raising.
-/

namespace RubicaBot

open Py Transition

namespace Suspending

/-- Whose command it is depends on who is an admin only. -/
theorem Commanded.congr {env : Env} {ctx : Context} {rules rules' : Rules}
    {update : PyVal} {name : String} {chatId : PyVal} (hadmins : rules'.admins = rules.admins)
    (h : Commanded env ctx rules update name chatId) :
    Commanded env ctx rules' update name chatId := by
  obtain ⟨inv, senderId, hrequested, hname, hchat, hsender, hmay⟩ := h
  have hisAdmin : rules'.isAdmin chatId senderId = rules.isAdmin chatId senderId := by
    rw [Rules.isAdmin, Rules.isAdmin, hadmins]
  exact ⟨inv, senderId, hrequested, hname, hchat, hsender, hisAdmin ▸ hmay⟩

end Suspending

/-- A start changes the rules as its update allows. -/
theorem Start.apply_reconfigures (worker : Nat) (env : Env) (ctx : Context) (job : Job)
    (t : Tables) :
    Suspending.Reconfigures env ctx t.rules (Suspending.updateOf job) t
      ((Start.job worker env ctx job).apply t) := by
  rw [← Start.advance_program]
  exact (Suspending.processJob_allowed env ctx job t).advance_snd (fun _ => .of_rules_eq rfl)
    fun _ _ _ h h' => h.trans h'

/-- The janitor has no business with the rules. -/
theorem runDbJanitor_rules (settings : JanitorSettings) (now : Instant) (t : Tables) :
    (runDbJanitor settings now t).rules = t.rules := by
  have hclean {result : Tables} (h : settings.cleanUp now t = .ok result) :
      result.rules = t.rules := by
    unfold JanitorSettings.cleanUp at h
    split at h
    · obtain ⟨rows, -, hresult⟩ := Effect.exists_of_bind_eq_ok h
      cases hresult
      rfl
    · cases h
      rfl
  have htrim {t result : Tables} (h : settings.trim t = .ok result) : result.rules = t.rules := by
    obtain ⟨limit, -, hresult⟩ := Effect.exists_of_bind_eq_ok h
    cases hresult
    rfl
  unfold runDbJanitor
  split
  · rfl
  · next cleaned hcleaned =>
      split
      · exact hclean hcleaned
      · next trimmed htrimmed => exact (htrim htrimmed).trans (hclean hcleaned)

/-- Nobody makes an admin. -/
theorem Start.applyAll_admins (starts : List Start) (t₀ : Tables) :
    (Start.applyAll starts t₀).rules.admins = t₀.rules.admins := by
  induction starts with
  | nil => rfl
  | cons st starts ih =>
      rw [← ih]
      cases st with
      | job worker env ctx job => exact (Start.apply_reconfigures worker env ctx job _).admins
      | janitor settings now => exact congrArg Rules.admins (runDbJanitor_rules settings now _)

namespace App

variable {d : AppSettings} {t₀ : Tables} {s : App}

/-- The calls of the client that a thread has made, answered or not. -/
def calls {σ : Type} (t : Thread σ Suspension PyVal PyError Unit) : List ApiCall :=
  (apiExchanges t.exchanges).map Prod.fst ++
    match t.waitsFor with
    | some (.api call) => [call]
    | _ => []

/-- A call has been answered, or is waited for. -/
theorem mem_calls {t : Thread Tables Suspension PyVal PyError Unit} {call : ApiCall}
    (h : call ∈ calls t) :
    (∃ x ∈ t.exchanges, x.1 = .api call) ∨ t.waitsFor = some (.api call) := by
  obtain h | h := List.mem_append.mp h
  · obtain ⟨y, hy, rfl⟩ := List.mem_map.mp h
    obtain ⟨x, hx, hxy⟩ := List.mem_filterMap.mp hy
    refine .inl ⟨x, hx, ?_⟩
    split at hxy
    · next c hc =>
        cases hxy
        exact hc
    · cases hxy
  · split at h
    · next c hwaits =>
        cases List.mem_singleton.mp h
        exact .inr hwaits
    · cases h

/-- Without the cache, every call of a dispatch is licensed by its update and the tables that
its predecessors left. -/
theorem Sound.licensed (hs : s.Sound d t₀) {n worker : Nat} {env : Env} {ctx : Context} {job : Job}
    (hstart : s.starts[n]? = some (.job worker env ctx job))
    {t : Thread Tables Suspension PyVal PyError Unit}
    (hthread : s.dispatches.threads[n]? = some t) :
    ctx.ownerId = d.context.ownerId ∧
      (Start.applyAll (s.starts.drop (n + 1)) t₀).rules.admins = t₀.rules.admins ∧
      ∀ call ∈ calls t, Suspending.Licensed env ctx
        (Start.applyAll (s.starts.drop (n + 1)) t₀) (Suspending.updateOf job) call := by
  obtain ⟨hprogram, hstarted⟩ := hs.started hstart hthread
  refine ⟨hs.owned _ _ _ _ (List.mem_of_getElem? hstart), Start.applyAll_admins _ _, ?_⟩
  have htraced := hs.threaded.traced t (List.mem_of_getElem? hthread)
  have hallowed := Suspending.processJob_allowed env ctx job
    (Start.applyAll (s.starts.drop (n + 1)) t₀)
  have hprogram : t.program = Suspending.processJob env ctx job := hprogram
  rw [← hstarted, ← hprogram] at hallowed
  rw [← hstarted]
  obtain ⟨hmade, hconfined⟩ := htraced.allowed hallowed
  intro call hcall
  obtain ⟨x, hx, hxcall⟩ | hwaits := mem_calls hcall
  · have hlicensed := hmade x hx
    rw [hxcall] at hlicensed
    exact hlicensed
  · exact hconfined.of_waitsFor hwaits

/-! ### one message -/

/-- A deployment for one message. -/
def settingsFor (ownerId : Option String) (message : List (String × PyVal)) : AppSettings :=
  { pingSettings with
    runtime :=
      { Runtime.plain with jsonLoads := fun _ => .ok (.dict [("message", .dict message)]) }
    context := { ownerId := ownerId } }

/-- The worker waits, the message arrives, and the client answers once. -/
def linkRun : List Label :=
  [.worker (.get 0) .plain none,
    .request ⟨ByteArray.empty, none, 0, 0, 0, "u"⟩, .queue (.lockAcquired 0),
    .queue (.childTakes 0 .high), .worker (.resume 0 .high) .plain none,
    .replied 0 (.ok (.dict [("ok", .bool true)]))]

/-! ## the rules -/

/-- What of the tables the starts have changed, one of the dispatches has. -/
theorem exists_start_of_changed {β : Type} {f : Tables → β} {P : Env → Context → Job → Prop}
    (hjob : ∀ worker env ctx job t, t.rules.admins = t₀.rules.admins →
      f ((Start.job worker env ctx job).apply t) = f t ∨ P env ctx job)
    (hjanitor : ∀ settings now t, f (runDbJanitor settings now t) = f t) {starts : List Start}
    (hchanged : f (Start.applyAll starts t₀) ≠ f t₀) :
    ∃ worker env ctx job, .job worker env ctx job ∈ starts ∧ P env ctx job := by
  induction starts with
  | nil => exact absurd rfl hchanged
  | cons st starts ih =>
      by_cases hbefore : f (Start.applyAll starts t₀) = f t₀
      · cases st with
        | job worker env ctx job =>
            have hadmins := Start.applyAll_admins starts t₀
            obtain hsame | hP := hjob worker env ctx job _ hadmins
            · exact absurd (hsame.trans hbefore) hchanged
            · exact ⟨worker, env, ctx, job, List.mem_cons_self, hP⟩
        | janitor settings now =>
            exact absurd ((hjanitor settings now _).trans hbefore) hchanged
      · obtain ⟨worker, env, ctx, job, hmem, hP⟩ := ih hbefore
        exact ⟨worker, env, ctx, job, List.mem_cons_of_mem _ hmem, hP⟩

/-- The dispatch of a job, which a received request with a good signature has asked for; its
context names the configured owner. -/
def Dispatched (d : AppSettings) (s : App) (env : Env) (ctx : Context) (job : Job) : Prop :=
  (∃ worker, .job worker env ctx job ∈ s.starts) ∧ ctx.ownerId = d.context.ownerId ∧
    ∃ r ∈ s.received, ∃ call, r.call d = some call ∧ call.job = job

/-- What has been started was requested, and has the owner of the configuration. -/
theorem Sound.dispatched (hs : s.Sound d t₀) {worker : Nat} {env : Env} {ctx : Context}
    {job : Job} (h : .job worker env ctx job ∈ s.starts) : Dispatched d s env ctx job :=
  ⟨⟨worker, h⟩, hs.owned _ _ _ _ h, hs.request_of_start (List.mem_filterMap.mpr ⟨_, h, rfl⟩)⟩

/-- **Licensed rules.**  In every run nobody becomes an admin or stops being one; and if a
chat has other settings, or another word in its filter, than at the start, then there is a
dispatched update behind it: a command in that chat from the owner, from one of its admins or
from nobody, or, for the settings, a press of a toggle. -/
theorem rules_licensed {ls : List Label} (h : run (step d) (init d t₀) ls = some s) :
    s.tables.rules.admins = t₀.rules.admins ∧
      (∀ chat, s.tables.rules.groups.settings chat ≠ t₀.rules.groups.settings chat →
        ∃ env ctx job chatId, Dispatched d s env ctx job ∧ sqlText chatId = .ok (some chat) ∧
          (Suspending.Commanded env ctx t₀.rules (Suspending.updateOf job) "antilink" chatId ∨
            Suspending.Toggled (Suspending.updateOf job) chatId)) ∧
      ∀ chat word, s.tables.rules.filters.lookup (chat, word) ≠
          t₀.rules.filters.lookup (chat, word) →
        ∃ env ctx job chatId, Dispatched d s env ctx job ∧ sqlText chatId = .ok (some chat) ∧
          Suspending.Commanded env ctx t₀.rules (Suspending.updateOf job) "filter" chatId := by
  have hs := run_sound h
  rw [hs.tables_eq]
  refine ⟨Start.applyAll_admins _ _, fun chat hchanged => ?_, fun chat word hchanged => ?_⟩
  · obtain ⟨worker, env, ctx, job, hmem, chatId, hchat, hmay⟩ := exists_start_of_changed
      (f := fun t => t.rules.groups.settings chat)
      (P := fun env ctx job => ∃ chatId, sqlText chatId = .ok (some chat) ∧
        (Suspending.Commanded env ctx t₀.rules (Suspending.updateOf job) "antilink" chatId ∨
          Suspending.Toggled (Suspending.updateOf job) chatId))
      (fun worker env ctx job t hadmins => by
        obtain hsame | ⟨chatId, hchat, hmay⟩ :=
          (Start.apply_reconfigures worker env ctx job t).settings chat
        · exact .inl hsame
        · exact .inr ⟨chatId, hchat, hmay.imp_left (·.congr hadmins.symm)⟩)
      (fun settings now t => congrArg (·.groups.settings chat) (runDbJanitor_rules settings now t))
      hchanged
    exact ⟨env, ctx, job, chatId, hs.dispatched hmem, hchat, hmay⟩
  · obtain ⟨worker, env, ctx, job, hmem, chatId, hchat, hmay⟩ := exists_start_of_changed
      (f := fun t => t.rules.filters.lookup (chat, word))
      (P := fun env ctx job => ∃ chatId, sqlText chatId = .ok (some chat) ∧
        Suspending.Commanded env ctx t₀.rules (Suspending.updateOf job) "filter" chatId)
      (fun worker env ctx job t hadmins => by
        obtain hsame | ⟨chatId, hchat, hmay⟩ :=
          (Start.apply_reconfigures worker env ctx job t).filters chat word
        · exact .inl hsame
        · exact .inr ⟨chatId, hchat, hmay.congr hadmins.symm⟩)
      (fun settings now t =>
        congrArg (·.filters.lookup (chat, word)) (runDbJanitor_rules settings now t))
      hchanged
    exact ⟨env, ctx, job, chatId, hs.dispatched hmem, hchat, hmay⟩

/-- The owner adds a word to the filter. -/
def filterSettings : AppSettings := settingsFor (some "o")
  [("chat", .dict [("id", .str "c"), ("type", .str "Group")]),
    ("sender", .dict [("id", .str "o")]), ("message_id", .str "m"),
    ("text", .str "/filter add x")]

theorem filterRun_adds :
    (run (step filterSettings) (init filterSettings { rules := {} }) linkRun).any (fun s =>
      (s.tables.rules.filters.lookup ("c", "x")).isSome) = true := by
  decide +kernel

theorem rules_licensed_filter :
    ∃ (s : App) (env : Env) (ctx : Context) (job : Job) (chatId : PyVal),
      run (step filterSettings) (init filterSettings { rules := {} }) linkRun = some s ∧
        Dispatched filterSettings s env ctx job ∧
        Suspending.Commanded env ctx {} (Suspending.updateOf job) "filter" chatId := by
  obtain ⟨s, hrun, hadds⟩ := (Option.any_eq_true _ _).mp filterRun_adds
  obtain ⟨-, -, hfilters⟩ := rules_licensed hrun
  have hchanged : s.tables.rules.filters.lookup ("c", "x") ≠
      ({ rules := {} } : Tables).rules.filters.lookup ("c", "x") := by
    intro hsame
    rw [hsame] at hadds
    exact absurd hadds (by decide)
  obtain ⟨env, ctx, job, chatId, hdispatched, -, hcommanded⟩ := hfilters "c" "x" hchanged
  exact ⟨s, env, ctx, job, chatId, hrun, hdispatched, hcommanded⟩

/-! ## offences -/

/-- What has been started has a thread. -/
theorem Sound.exists_thread (hs : s.Sound d t₀) {n : Nat} {st : Start}
    (hst : s.starts[n]? = some st) :
    ∃ t, s.dispatches.threads[n]? = some t ∧ t.program = st.program ∧
      t.startedIn = Start.applyAll (s.starts.drop (n + 1)) t₀ ∧ Threads.Traced t := by
  obtain ⟨hn, -⟩ := List.getElem?_eq_some_iff.mp hst
  rw [← hs.threaded.length_eq] at hn
  have hthread := List.getElem?_eq_getElem hn
  obtain ⟨hprogram, hstarted⟩ := hs.started hst hthread
  exact ⟨_, hthread, hprogram, hstarted, hs.threaded.traced _ (List.getElem_mem hn)⟩

/-- Without the cache, a sentence is carried out call by call: the coroutine comes to it
before it first suspends, and recites it from there. -/
theorem Sound.punished (hs : s.Sound d t₀) {n worker : Nat} {env : Env} {ctx : Context} {job : Job}
    (hstart : s.starts[n]? = some (.job worker env ctx job))
    (hrecorded : Suspending.Recorded env { ctx with job := some job }
      (Start.applyAll (s.starts.drop (n + 1)) t₀) (Suspending.updateOf job))
    {plan : List ApiCall}
    (hsentenced : Suspending.Sentenced env ctx (Start.applyAll (s.starts.drop (n + 1)) t₀)
      (Suspending.updateOf job) plan) :
    ∃ t, s.dispatches.threads[n]? = some t ∧ t.Executes (plan.map .api) ∧
      (AtRest d s → t.calls = plan.map .api ∨
        ∃ c e, t.exchanges.getLast? = some (c, .error e)) := by
  obtain ⟨t, hthread, hprogram, hstarted, htraced⟩ := hs.exists_thread hstart
  have hexecutes :=
    Suspending.processJob_executes hrecorded hsentenced hprogram hstarted htraced
  refine ⟨t, hthread, hexecutes, fun hrest => ?_⟩
  have hover := hrest.finished (List.mem_of_getElem? hthread)
  obtain ⟨result, hresult⟩ := Option.isSome_iff_exists.mp hover
  cases result with
  | ok a => exact .inl (hexecutes.returned a hresult)
  | error e =>
      obtain ⟨xs, c, hlast, -⟩ := hexecutes.raised e hresult
      exact .inr ⟨c, e, hlast ▸ List.getLast?_concat⟩

end App

end RubicaBot
