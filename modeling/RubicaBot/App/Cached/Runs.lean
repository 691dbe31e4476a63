import RubicaBot.App.Cached

/-!
# RubicaBot.App.Cached.Runs

What holds in every run of the process with the cache.

Its dispatches and passes are as good as one after another, and each dispatch has made the
calls that it makes by itself; every call of the client has a licence, every offence is
punished, and the janitor does not show.  All of it is in terms of the dispatches without
the cache, on the tables alone: so nothing of the order of the dispatches, of the replies
or of the times is left in it.

The condition is on the requests alone: a toggle is pressed only for chats that are named
by strings.
-/

namespace RubicaBot

open Py Transition

namespace App

variable {d : AppSettings} {cache : Cached.CacheSettings} {t₀ : Tables} {c : App CachedTables}
  {s : App}

/-- The thread without the cache. -/
theorem Shadows.exists_thread (h : Shadows c s) {n : Nat}
    {t : Thread CachedTables Suspension PyVal PyError Unit}
    (ht : c.dispatches.threads[n]? = some t) :
    ∃ t', s.dispatches.threads[n]? = some t' ∧ t.Matches Cached.Shadows t' :=
  rel_some_iff.mp (ht ▸ h.dispatches.threads n)

/-- And the thread with it. -/
theorem Shadows.exists_cached_thread (h : Shadows c s) {n : Nat}
    {t' : Thread Tables Suspension PyVal PyError Unit}
    (ht' : s.dispatches.threads[n]? = some t') :
    ∃ t, c.dispatches.threads[n]? = some t ∧ t.Matches Cached.Shadows t' :=
  rel_some_right_iff.mp (ht' ▸ h.dispatches.threads n)

/-- The two make the same calls. -/
theorem calls_eq {t : Thread CachedTables Suspension PyVal PyError Unit}
    {t' : Thread Tables Suspension PyVal PyError Unit} (h : t.Matches Cached.Shadows t') :
    calls t = calls t' := by
  rw [calls, calls, h.exchanges, h.waitsFor]

/-- They come to rest together. -/
theorem Shadows.atRest (h : Shadows c s) (hrest : AtRest d c) : AtRest d s := by
  intro lab hlab
  have hstep := h.step (d := d) lab
  rwa [hrest lab hlab, rel_none_iff] at hstep

/-- What a thread runs is what has been started. -/
theorem Shadows.program_eq (h : Shadows c s) {n : Nat} {st : Start}
    {t : Thread CachedTables Suspension PyVal PyError Unit} (hst : c.starts[n]? = some st)
    (ht : c.dispatches.threads[n]? = some t) : t.program = Cached.program st := by
  have hprogram := congrArg (·[n]?) h.programs
  simpa [ht, hst] using hprogram

/-! ## two deployments -/

/-- Whoever reads every body as an update that is no press of a button is safe. -/
theorem pressesByString_of_loads {update : PyVal}
    (hloads : ∀ body, d.runtime.jsonLoads body = .ok update)
    (hrequest : panelRequest update = .ok none) (lab : Label) : lab ∈ PressesByString d := by
  rintro r - update' chatId hparse ⟨key, callback, htoggle⟩
  unfold parseBody at hparse
  split at hparse
  · rw [hloads] at hparse
    cases hparse
    cases hrequest.symm.trans htoggle
  · cases hparse

/-- A cache, on an empty database, with a clock that stands. -/
def emptyTables : CachedTables :=
  Cached.CacheSettings.over ⟨1024, 90, fun _ => 0⟩ { rules := {} }

/-- No button is pressed in it. -/
theorem pingRun_pressesByString : ∀ lab ∈ pingRun, lab ∈ PressesByString pingSettings :=
  fun lab _ => pressesByString_of_loads (fun _ => rfl) rfl lab

theorem cachedPing_isSome :
    (run (step pingSettings) (startup pingSettings emptyTables) pingRun).isSome := by
  decide +kernel

/-- A link in a group, by `u`. -/
def linkSettings : AppSettings := settingsFor none
  [("chat", .dict [("id", .str "c"), ("type", .str "Group")]),
    ("sender", .dict [("id", .str "u")]), ("message_id", .str "m"), ("text", .str "t.me/x")]

/-- Nor in this one. -/
theorem linkRun_pressesByString : ∀ lab ∈ linkRun, lab ∈ PressesByString linkSettings :=
  fun lab _ => pressesByString_of_loads (fun _ => rfl) rfl lab

theorem cachedLink_isSome :
    (run (step linkSettings) (startup linkSettings emptyTables) linkRun).isSome := by
  decide +kernel

/-! ## the serial order -/

/-- **Serial order.**  However the dispatches of the workers, their calls of the client and
the passes of the janitor interleave, the tables are what running each of them by itself,
without a cache, makes of the first ones, one after another in the order in which the
workers took the jobs off the queue; and each started from what those before it left. -/
theorem tables_serial {ls : List Label} (hpressed : ∀ lab ∈ ls, lab ∈ PressesByString d)
    (h : run (step d) (startup d (cache.over t₀)) ls = some c) :
    c.dispatches.shared.tables = Start.applyAll c.starts t₀ ∧
      c.starts.filterMap Start.job? = c.pool.passed ∧
      ∀ n st t, c.starts[n]? = some st → c.dispatches.threads[n]? = some t →
        t.program = Cached.program st ∧
          t.startedIn.tables = Start.applyAll (c.starts.drop (n + 1)) t₀ := by
  obtain ⟨s, hrun, hshadows⟩ := run_shadows hpressed h
  have hs := run_sound hrun
  refine ⟨?_, ?_, fun n st t hst ht => ?_⟩
  · rw [hshadows.dispatches.shared.1, hshadows.starts]
    exact hs.tables_eq
  · rw [hshadows.starts, hshadows.pool]
    exact hs.passed
  · obtain ⟨t', ht', hmatch⟩ := hshadows.exists_thread ht
    refine ⟨hshadows.program_eq hst ht, ?_⟩
    rw [hmatch.startedIn.1, hshadows.starts]
    exact (hs.started (hshadows.starts ▸ hst) ht').2

theorem tables_serial_ping :
    ∃ c, run (step pingSettings) (startup pingSettings emptyTables) pingRun = some c ∧
      c.dispatches.shared.tables = Start.applyAll c.starts { rules := {} } := by
  have hrun := (Option.some_get cachedPing_isSome).symm
  exact ⟨_, hrun, (tables_serial pingRun_pressesByString hrun).1⟩

/-- **As if alone.**  A dispatch that is over, and that is not a press of a toggle, has made
the calls and come to the result that it comes to by itself, without a cache, on the tables
that those before it left, with a client that gives the same replies. -/
theorem dispatch_as_alone {ls : List Label} (hpressed : ∀ lab ∈ ls, lab ∈ PressesByString d)
    (h : run (step d) (startup d (cache.over t₀)) ls = some c)
    {n worker : Nat} {env : Env} {ctx : Context} {job : Job}
    (hstart : c.starts[n]? = some (.job worker env ctx job))
    (htoggles : ¬ Suspending.Toggles (Suspending.updateOf job))
    {t : Thread CachedTables Suspension PyVal PyError Unit}
    (hthread : c.dispatches.threads[n]? = some t) {result : Except PyError Unit}
    (hresult : t.result = some result) (calls : List ApiCall)
    {reply : Nat → ApiCall → Except PyError PyVal}
    (hreply : ∀ k call r, (apiExchanges t.exchanges)[k]? = some (call, r) →
      reply (calls.length + k) call = r) :
    processJob (env.answering reply) ctx job
        ((Start.applyAll (c.starts.drop (n + 1)) t₀).world calls) =
      (result, (Start.applyAll (c.starts.drop n) t₀).world
        (calls ++ (apiExchanges t.exchanges).map Prod.fst)) := by
  obtain ⟨s, hrun, hshadows⟩ := run_shadows hpressed h
  obtain ⟨t', ht', hmatch⟩ := hshadows.exists_thread hthread
  rw [hshadows.starts] at hstart ⊢
  rw [hmatch.exchanges] at hreply ⊢
  rw [hmatch.result] at hresult
  exact (run_sound hrun).as_alone hstart htoggles ht' hresult calls hreply

/-- The dispatch is over, and presses no toggle. -/
theorem pingRun_dispatches :
    (((Option.get _ cachedPing_isSome).starts[1]?.bind Start.job?).any fun job =>
        match panelRequest (Suspending.updateOf job) with
        | .ok (some (.toggle _ _ _)) => false
        | _ => true) = true ∧
      ((Option.get _ cachedPing_isSome).dispatches.threads[1]?.bind Thread.result).isSome =
        true := by
  decide +kernel

/-- A client that gives these replies. -/
def replaying (xs : List (ApiCall × Except PyError PyVal)) : Nat → ApiCall → Except PyError PyVal :=
  fun k _ => (xs[k]?.map Prod.snd).getD (.ok .none)

theorem dispatch_as_alone_ping :
    ∃ (c : App CachedTables) (t : Thread CachedTables Suspension PyVal PyError Unit) (env : Env)
      (ctx : Context) (job : Job),
      run (step pingSettings) (startup pingSettings emptyTables) pingRun = some c ∧
        c.dispatches.threads[1]? = some t ∧
        (processJob (env.answering (replaying (apiExchanges t.exchanges))) ctx job
          ((Start.applyAll (c.starts.drop 2) { rules := {} }).world [])).2.apiCalls =
            (apiExchanges t.exchanges).map Prod.fst := by
  have hrun := (Option.some_get cachedPing_isSome).symm
  obtain ⟨hjob, hresult⟩ := pingRun_dispatches
  obtain ⟨job, hstart, htoggle⟩ := (Option.any_eq_true _ _).mp hjob
  obtain ⟨st, hst, hjob⟩ := Option.bind_eq_some_iff.mp hstart
  obtain ⟨result, hresult⟩ := Option.isSome_iff_exists.mp hresult
  obtain ⟨t, ht, hresult⟩ := Option.bind_eq_some_iff.mp hresult
  cases st with
  | janitor settings now => cases hjob
  | job worker env ctx job' =>
      obtain rfl := Option.some.inj hjob
      have htoggles : ¬ Suspending.Toggles (Suspending.updateOf job') := by
        intro h
        obtain ⟨chatId, key, callback, hrequest⟩ := h
        rw [hrequest] at htoggle
        cases htoggle
      have hreply : ∀ k call r, (apiExchanges t.exchanges)[k]? = some (call, r) →
          replaying (apiExchanges t.exchanges) (([] : List ApiCall).length + k) call = r := by
        intro k call r hk
        rw [List.length_nil, Nat.zero_add, replaying, hk]
        rfl
      have halone := dispatch_as_alone pingRun_pressesByString hrun hst htoggles ht hresult []
        hreply
      refine ⟨_, t, env, ctx, job', hrun, ht, ?_⟩
      rw [halone]
      rfl

/-! ## calls -/

/-- **Licensed calls.**  Whatever the interleaving, a dispatch calls the client only with a
licence: it deletes a message or bans somebody for an offence of the update it works on, as
the tables are that its predecessors left, and the offender is no admin of the chat; or
because the update is the owner's command, or that of an admin, or that of nobody; and it
speaks only where the update comes from. -/
theorem calls_licensed {ls : List Label} (hpressed : ∀ lab ∈ ls, lab ∈ PressesByString d)
    (h : run (step d) (startup d (cache.over t₀)) ls = some c)
    {n worker : Nat} {env : Env} {ctx : Context} {job : Job}
    (hstart : c.starts[n]? = some (.job worker env ctx job))
    {t : Thread CachedTables Suspension PyVal PyError Unit}
    (hthread : c.dispatches.threads[n]? = some t) :
    ctx.ownerId = d.context.ownerId ∧
      (Start.applyAll (c.starts.drop (n + 1)) t₀).rules.admins = t₀.rules.admins ∧
      ∀ call ∈ calls t, Suspending.Licensed env ctx
        (Start.applyAll (c.starts.drop (n + 1)) t₀) (Suspending.updateOf job) call := by
  obtain ⟨s, hrun, hshadows⟩ := run_shadows hpressed h
  obtain ⟨t', ht', hmatch⟩ := hshadows.exists_thread hthread
  rw [hshadows.starts] at hstart ⊢
  rw [calls_eq hmatch]
  exact (run_sound hrun).licensed hstart ht'

/-- The message is deleted and its sender banned. -/
theorem linkRun_punishes :
    (((Option.get _ cachedLink_isSome).starts[0]?).any fun st => st.job?.isSome) = true ∧
      ((Option.get _ cachedLink_isSome).dispatches.threads[0]?.any fun t =>
        (calls t).countP ApiCall.isPunishment == 2) = true := by
  decide +kernel

theorem calls_licensed_link :
    ∃ (c : App CachedTables) (env : Env) (ctx : Context) (job : Job) (call : ApiCall),
      run (step linkSettings) (startup linkSettings emptyTables) linkRun = some c ∧
        call.isPunishment ∧
        Suspending.Licensed env ctx (Start.applyAll (c.starts.drop 1) { rules := {} })
          (Suspending.updateOf job) call := by
  have hrun := (Option.some_get cachedLink_isSome).symm
  obtain ⟨hjob, hpunishes⟩ := linkRun_punishes
  obtain ⟨st, hstart, hjob⟩ := (Option.any_eq_true _ _).mp hjob
  obtain ⟨t, hthread, hpunishes⟩ := (Option.any_eq_true _ _).mp hpunishes
  have hsome : 0 < (calls t).countP ApiCall.isPunishment := by
    rw [eq_of_beq hpunishes]
    decide
  obtain ⟨call, hcall, hpunishment⟩ := List.countP_pos_iff.mp hsome
  cases st with
  | janitor settings now => cases hjob
  | job worker env ctx job =>
      obtain ⟨-, -, hlicensed⟩ := calls_licensed linkRun_pressesByString hrun hstart hthread
      exact ⟨_, env, ctx, job, call, hrun, hpunishment, hlicensed call hcall⟩

/-- **Offences are punished.**  If a dispatched message can be recorded and is one to punish,
as the tables are that its predecessors left, then the dispatch makes the calls of the
sentence and no others, in this order, each once the one before it has been answered; and at
rest it has made all of them, unless the client has raised. -/
theorem offences_punished {ls : List Label} (hpressed : ∀ lab ∈ ls, lab ∈ PressesByString d)
    (h : run (step d) (startup d (cache.over t₀)) ls = some c)
    {n worker : Nat} {env : Env} {ctx : Context} {job : Job}
    (hstart : c.starts[n]? = some (.job worker env ctx job))
    (hrecorded : Suspending.Recorded env { ctx with job := some job }
      (Start.applyAll (c.starts.drop (n + 1)) t₀) (Suspending.updateOf job))
    {plan : List ApiCall}
    (hsentenced : Suspending.Sentenced env ctx (Start.applyAll (c.starts.drop (n + 1)) t₀)
      (Suspending.updateOf job) plan) :
    ∃ t, c.dispatches.threads[n]? = some t ∧ t.Executes (plan.map .api) ∧
      (AtRest d c → t.calls = plan.map .api ∨
        ∃ call e, t.exchanges.getLast? = some (call, .error e)) := by
  obtain ⟨s, hrun, hshadows⟩ := run_shadows hpressed h
  rw [hshadows.starts] at hstart hrecorded hsentenced
  obtain ⟨t', ht', hexecutes, hrest⟩ := (run_sound hrun).punished hstart hrecorded hsentenced
  obtain ⟨t, ht, hmatch⟩ := hshadows.exists_cached_thread ht'
  refine ⟨t, ht, hmatch.executes hexecutes, fun hquiet => ?_⟩
  rw [hmatch.calls, hmatch.exchanges]
  exact hrest (hshadows.atRest hquiet)

/-- The message can be recorded, and is one to punish. -/
theorem linkRun_condemns :
    ((Option.get _ cachedLink_isSome).starts[0]?.any fun
      | .job _ env ctx job =>
          (snapshotOf env { ctx with job := some job } (Suspending.updateOf job)).isOk &&
          (logMessage (Start.applyAll ((Option.get _ cachedLink_isSome).starts.drop 1)
            { rules := {} }).messages (Suspending.updateOf job)).isOk &&
          match antiLinkOffence env (Start.applyAll ((Option.get _ cachedLink_isSome).starts.drop 1)
              { rules := {} }).rules (Suspending.updateOf job) with
          | .ok (some o) => o.messageId.truthy && o.senderId.truthy
          | _ => false
      | .janitor _ _ => false) = true := by
  decide +kernel

theorem offences_punished_link :
    ∃ (c : App CachedTables) (t : Thread CachedTables Suspension PyVal PyError Unit)
      (chatId messageId userId : PyVal) (rest : List ApiCall),
      run (step linkSettings) (startup linkSettings emptyTables) linkRun = some c ∧
        c.dispatches.threads[0]? = some t ∧
        t.Executes ((.deleteMessage chatId messageId :: .banChatMember chatId userId ::
          rest).map Suspension.api) := by
  have hrun := (Option.some_get cachedLink_isSome).symm
  obtain ⟨st, hstart, hcondemns⟩ := (Option.any_eq_true _ _).mp linkRun_condemns
  cases st with
  | janitor settings now => cases hcondemns
  | job worker env ctx job =>
      obtain ⟨hrecord, hoffence⟩ := (Bool.and_eq_true _ _).mp hcondemns
      obtain ⟨hstored, hlogged⟩ := (Bool.and_eq_true _ _).mp hrecord
      split at hoffence
      · next o ho =>
          obtain ⟨hid, hsender⟩ := (Bool.and_eq_true _ _).mp hoffence
          obtain ⟨message, hmoderated, hmessage, htrigger⟩ :=
            Suspending.antiLinkOffence_eq_some ho
          obtain ⟨t, hthread, hexecutes, -⟩ := offences_punished linkRun_pressesByString hrun
            hstart ⟨Effect.exists_of_isOk hstored, Effect.exists_of_isOk hlogged⟩
            (.link hmoderated hmessage htrigger)
          rw [Suspending.deletion, if_pos hid, Suspending.ban, if_pos hsender] at hexecutes
          exact ⟨_, t, _, _, _, _, hrun, hthread, hexecutes⟩
      · cases hoffence

/-! ## the janitor -/

/-- **The janitor does not show.**  In every run the rules, the flood histories and the
newest messages of every chat, as many as the janitor keeps, are those that the dispatches
alone make, without it; of the snapshots it has taken away some that were older than the
retention at one of its passes, and no other. -/
theorem janitor_unseen {ls : List Label} (hpressed : ∀ lab ∈ ls, lab ∈ PressesByString d)
    (h : run (step d) (startup d (cache.over t₀)) ls = some c) :
    c.dispatches.shared.tables.rules =
        (Start.applyAll (c.starts.filter Start.isJob) t₀).rules ∧
      c.dispatches.shared.tables.floodEvents =
        (Start.applyAll (c.starts.filter Start.isJob) t₀).floodEvents ∧
      (∀ chatId n, Retained d.janitor.messagesKeepPerChat n →
        fetchRecentMessageIds c.dispatches.shared.tables.messages chatId n =
          fetchRecentMessageIds (Start.applyAll (c.starts.filter Start.isJob) t₀).messages
            chatId n) ∧
      c.dispatches.shared.tables.incomingUpdates.Sublist
        (Start.applyAll (c.starts.filter Start.isJob) t₀).incomingUpdates ∧
      ∀ row ∈ (Start.applyAll (c.starts.filter Start.isJob) t₀).incomingUpdates,
        Start.Recent c.starts row → row ∈ c.dispatches.shared.tables.incomingUpdates := by
  obtain ⟨s, hrun, hshadows⟩ := run_shadows hpressed h
  rw [hshadows.dispatches.shared.1, hshadows.starts]
  exact janitor_hidden hrun

theorem janitor_unseen_ping :
    ∃ c, run (step pingSettings) (startup pingSettings emptyTables) pingRun = some c ∧
      fetchRecentMessageIds c.dispatches.shared.tables.messages (.str "c") 5 =
        fetchRecentMessageIds
          (Start.applyAll (c.starts.filter Start.isJob) { rules := {} }).messages (.str "c") 5 := by
  have hrun := (Option.some_get cachedPing_isSome).symm
  exact ⟨_, hrun,
    (janitor_unseen pingRun_pressesByString hrun).2.2.1 (.str "c") 5 fun _ => by decide⟩

end App

end RubicaBot
