import RubicaBot.App.Licence
import RubicaBot.App.Retention
import RubicaBot.Plugins.Suspending.Cached

/-!
# RubicaBot.App.Cached

The process with the cache of the group settings, and what its runs have in common with
those without it.

The two processes run in step (`Shadows`): they take the same jobs, make the same calls
and get the same replies, and have the same tables, as long as no toggle is pressed for a
chat that is not named by a string.  One that is named by a number has another key in the
cache than in the table, and then the settings that a dispatch goes by may be those of
some time ago (`Repository.stale_through_number`).  So each result about the order of the
dispatches, their calls and the tables is proved of the process without the cache, and
holds of the one with it under that condition.
-/

namespace RubicaBot

open Py Transition

/-! ## the process -/

namespace Cached

/-- What is run for a start, behind the cache. -/
def program : Start → CachedSuspending Unit
  | .job _ env ctx job => processJob env ctx job
  | .janitor settings now => uncached (.atomic (.update (runDbJanitor settings now)))

instance : Programs CachedTables := ⟨program⟩

/-- How the cache is constructed, and what `time.monotonic()` is going to say to it. -/
structure CacheSettings where
  cacheSize : Int
  cacheTtlSeconds : Int
  clock : Nat → Instant

/-- These tables behind an empty cache. -/
def CacheSettings.over (cache : CacheSettings) (t : Tables) : CachedTables :=
  ⟨t, .new cache.cacheSize cache.cacheTtlSeconds, cache.clock⟩

/-- An empty cache is coherent. -/
theorem CacheSettings.over_shadows (cache : CacheSettings) (t : Tables) :
    Shadows (cache.over t) t :=
  ⟨rfl, Repository.new_coherent stringIds t.rules.groups cache.cacheSize cache.cacheTtlSeconds⟩

/-- The toggles are pressed for chats that are named by strings. -/
def PressesByString (d : AppSettings) (r : Request) : Prop :=
  ∀ update chatId, parseBody d.runtime r.body = .ok update →
    Suspending.Toggled update chatId → chatId ∈ stringIds

/-- The job of such a request names its chats by strings. -/
theorem PressesByString.namesByString {d : AppSettings} {r : Request} (h : PressesByString d r)
    {call : EnqueueCall} (hcall : r.call d = some call) :
    NamesByString (Suspending.updateOf call.job) := by
  unfold Request.call at hcall
  split at hcall
  · next job _ hjob =>
      cases hcall
      obtain ⟨update, hparse, hbuild⟩ := Effect.exists_of_bind_eq_ok hjob
      exact namesByString_of_buildJob hbuild fun chatId => h update chatId hparse
  · cases hcall

/-- What is started matches what is started without the cache. -/
theorem program_matches {st : Start}
    (h : ∀ job, st.job? = some job → NamesByString (Suspending.updateOf job)) :
    Coroutine.Matches Shadows (program st) st.program := by
  cases st with
  | job worker env ctx job => exact processJob_matches env ctx (h job rfl)
  | janitor settings now =>
      refine uncached_matches (Coroutine.confined_atomic fun t => ?_)
      exact congrArg Rules.groups (runDbJanitor_rules settings now t)

end Cached

namespace App

/-! ## in step -/

/-- The process behind the cache and the one without it are in step. -/
structure Shadows (c : App CachedTables) (s : App) : Prop where
  rateLimiter : c.rateLimiter = s.rateLimiter
  pool : c.pool = s.pool
  starts : c.starts = s.starts
  received : c.received = s.received
  dispatches : c.dispatches.Matches Cached.Shadows s.dispatches
  programs : c.dispatches.threads.map Thread.program = c.starts.map Cached.program

variable {d : AppSettings} {t₀ : Tables} {c c' : App CachedTables} {s s' : App}

/-- The `n`-th threads of the two. -/
theorem Shadows.bind_thread (h : Shadows c s) {β : Type}
    {f : Thread CachedTables Suspension PyVal PyError Unit → Option β}
    {f' : Thread Tables Suspension PyVal PyError Unit → Option β}
    (hf : ∀ t t', t.Matches Cached.Shadows t' → f t = f' t') (n : Nat) :
    c.dispatches.threads[n]?.bind f = s.dispatches.threads[n]?.bind f' := by
  have hthreads := h.dispatches.threads n
  generalize c.dispatches.threads[n]? = x, s.dispatches.threads[n]? = y at hthreads
  cases hthreads with
  | none => rfl
  | some hmatch => exact hf _ _ hmatch

/-- The dispatches come to the same results. -/
theorem Shadows.resultOf (h : Shadows c s) (i : Nat) : c.resultOf i = s.resultOf i := by
  unfold App.resultOf
  rw [h.starts]
  split
  · exact h.bind_thread (fun _ _ hmatch => hmatch.result) _
  · rfl

/-- The pools can do the same. -/
theorem Shadows.poolStep (h : Shadows c s) (l : WorkerPool.Label) :
    Option.Rel Shadows (c.poolStep l) (s.poolStep l) := by
  unfold App.poolStep
  rw [h.pool]
  cases s.pool.step l with
  | none => exact .none
  | some pool => exact .some ⟨h.rateLimiter, rfl, h.starts, h.received, h.dispatches, h.programs⟩

/-- A reply takes the two dispatches on in step. -/
theorem Shadows.resume (h : Shadows c s) (n : Nat) (reply : Except PyError PyVal) :
    Option.Rel Shadows (c.resume n reply) (s.resume n reply) := by
  unfold App.resume
  have hreply := h.dispatches.reply n reply
  cases hc : c.dispatches.step (.reply n reply) with
  | none =>
      rw [hc, rel_none_iff] at hreply
      rw [hreply]
      exact .none
  | some dispatches =>
      rw [hc, rel_some_iff] at hreply
      obtain ⟨dispatches', hs, hmatch⟩ := hreply
      rw [hs]
      exact .some ⟨h.rateLimiter, h.pool, h.starts, h.received, hmatch,
        (Threads.programs_of_reply hc).trans h.programs⟩

/-- And so does a start, if the chats are named by strings. -/
theorem Shadows.start (h : Shadows c s) {st : Start}
    (hst : ∀ job, st.job? = some job → Cached.NamesByString (Suspending.updateOf job)) :
    Shadows (c.start st) (s.start st) where
  rateLimiter := h.rateLimiter
  pool := h.pool
  starts := congrArg (st :: ·) h.starts
  received := h.received
  dispatches := h.dispatches.start (Cached.program_matches hst)
  programs := congrArg (Cached.program st :: ·) h.programs

/-- A request does not come near the cache. -/
theorem Shadows.handleRequest (h : Shadows c s) (r : Request) :
    Option.Rel Shadows (c.handleRequest d r) (s.handleRequest d r) := by
  have hnext : ∀ limiter pool,
      Shadows { c with received := r :: c.received, rateLimiter := limiter, pool := pool }
        { s with received := r :: s.received, rateLimiter := limiter, pool := pool } :=
    fun _ _ => ⟨rfl, rfl, h.starts, congrArg (r :: ·) h.received, h.dispatches, h.programs⟩
  simp only [App.handleRequest, h.rateLimiter, h.pool]
  cases verifySignature d.runtime r.body r.signature d.webhookSecret with
  | error e => exact .some (hnext _ _)
  | ok verified =>
      cases verified with
      | false => exact .some (hnext _ _)
      | true =>
          cases s.rateLimiter.allow r.now with
          | mk allowed limiter =>
              cases allowed with
              | false => exact .some (hnext _ _)
              | true =>
                  cases r.job d.runtime with
                  | error e => exact .some (hnext _ _)
                  | ok job =>
                      dsimp only
                      cases s.pool.step (.queue (.enqueue job r.checkedAt)) with
                      | none => exact .none
                      | some pool => exact .some (hnext _ _)

/-- The chats of what has been started are named by strings. -/
def Named (s : App) : Prop :=
  ∀ job ∈ s.starts.filterMap Start.job?, Cached.NamesByString (Suspending.updateOf job)

/-- In step, whether the chats are named by strings or not. -/
theorem rel_of_shadows {x : Option (App CachedTables)} {y : Option App}
    (h : Option.Rel Shadows x y) : Option.Rel (fun c s => s.Named → Shadows c s) x y := by
  cases h with
  | none => exact .none
  | some h => exact .some fun _ => h

/-- A worker may start a dispatch, and then the chats of its job matter. -/
theorem Shadows.work (h : Shadows c s) (l : WorkerPool.Label) (env : Env)
    (stats : Option StatsView) :
    Option.Rel (fun c s => s.Named → Shadows c s) (c.work d l env stats)
      (s.work d l env stats) := by
  have hnext : ∀ pool, Shadows { c with pool := pool } { s with pool := pool } :=
    fun _ => ⟨h.rateLimiter, rfl, h.starts, h.received, h.dispatches, h.programs⟩
  simp only [App.work, h.pool]
  cases l.own with
  | none => exact .none
  | some own =>
      obtain ⟨i, ql⟩ := own
      cases s.pool.step l with
      | none => exact .none
      | some pool =>
          dsimp only
          split
          · refine .some fun hnamed => (hnext pool).start fun job hjob => hnamed job ?_
            exact List.mem_filterMap.mpr ⟨_, List.mem_cons_self, hjob⟩
          · exact .some fun _ => hnext pool

/-- **Step lemma.**  What one of the processes can do the other can, and they stay in step
as long as the chats are named by strings. -/
theorem Shadows.step (h : Shadows c s) (lab : Label) :
    Option.Rel (fun c s => s.Named → Shadows c s) (c.step d lab) (s.step d lab) := by
  have hwaits := h.bind_thread (fun _ _ hmatch => Thread.Matches.waitsFor hmatch)
  cases lab with
  | request r => exact rel_of_shadows (h.handleRequest r)
  | queue l =>
      simp only [App.step]
      split
      · exact rel_of_shadows (h.poolStep _)
      · exact .none
  | worker l env stats => exact h.work l env stats
  | replied n reply =>
      simp only [App.step, hwaits]
      generalize s.dispatches.threads[n]?.bind Thread.waitsFor = waits
      rcases waits with - | call | -
      · exact .none
      · exact rel_of_shadows (h.resume n reply)
      · exact .none
  | woke n =>
      simp only [App.step, hwaits]
      generalize s.dispatches.threads[n]?.bind Thread.waitsFor = waits
      rcases waits with - | call | -
      · exact .none
      · exact .none
      · exact rel_of_shadows (h.resume n _)
  | handled i error now =>
      simp only [App.step, h.resultOf]
      split
      · exact rel_of_shadows (h.poolStep _)
      · exact rel_of_shadows (h.poolStep _)
      · exact .none
  | janitor now =>
      refine .some fun _ => h.start fun job hjob => ?_
      cases hjob
  | stop => exact rel_of_shadows (h.poolStep _)
  | stopReturns => exact rel_of_shadows (h.poolStep _)

/-! ## runs -/

/-- The labels whose requests press toggles only for chats that are named by strings. -/
def PressesByString (d : AppSettings) : Set Label :=
  {lab | ∀ r, lab = .request r → Cached.PressesByString d r}

/-- A request that has been received has been received before or just now. -/
theorem received_of_step {lab : Label} (h : s.step d lab = some s') {r : Request}
    (hr : r ∈ s'.received) : r ∈ s.received ∨ lab = .request r := by
  cases Step.of_step h with
  | turnedAway r' limiter | enqueue r' limiter =>
      obtain rfl | hr := List.mem_cons.mp hr
      · exact .inr rfl
      · exact .inl hr
  | pool | waits | dispatch | resumed | janitor => exact .inl hr

/-- Then so are the chats of all that is started. -/
theorem Sound.named (hs : s.Sound d t₀)
    (hpressed : ∀ r ∈ s.received, Cached.PressesByString d r) : s.Named := by
  intro job hjob
  obtain ⟨r, hr, call, hcall, rfl⟩ := hs.request_of_start hjob
  exact (hpressed r hr).namesByString hcall

/-- The two processes start in step. -/
theorem startup_shadows (d : AppSettings) (cache : Cached.CacheSettings) (t₀ : Tables) :
    Shadows (startup d (cache.over t₀)) (init d t₀) :=
  ⟨rfl, rfl, rfl, rfl, Threads.matches_init (cache.over_shadows t₀), rfl⟩

/-- **Run lemma.**  Each run with the cache is one without it, and they end in step. -/
theorem run_shadows {cache : Cached.CacheSettings} {ls : List Label}
    (hpressed : ∀ lab ∈ ls, lab ∈ PressesByString d)
    (h : run (step d) (startup d (cache.over t₀)) ls = some c) :
    ∃ s, run (step d) (init d t₀) ls = some s ∧ Shadows c s := by
  let Related : App CachedTables → App → Prop := fun c s =>
    Shadows c s ∧ s.Sound d t₀ ∧ ∀ r ∈ s.received, Cached.PressesByString d r
  have hstep : ∀ c s, ∀ lab ∈ PressesByString d, Related c s → ∀ c', c.step d lab = some c' →
      ∃ s', s.step d lab = some s' ∧ Related c' s' := by
    rintro c s lab hlab ⟨hshadows, hsound, hreceived⟩ c' hc
    have hrel := hshadows.step (d := d) lab
    rw [hc, rel_some_iff] at hrel
    obtain ⟨s', hs, hnext⟩ := hrel
    have hsound' := step_sound hsound hs
    have hreceived' : ∀ r ∈ s'.received, Cached.PressesByString d r := by
      intro r hr
      obtain hr | rfl := received_of_step hs hr
      · exact hreceived r hr
      · exact hlab r rfl
    exact ⟨s', hs, hnext (hsound'.named hreceived'), hsound', hreceived'⟩
  obtain ⟨s, hrun, hshadows, -⟩ := run_matched (R := Related) hstep
    ⟨startup_shadows d cache t₀, init_sound d t₀, nofun⟩ hpressed h
  exact ⟨s, hrun, hshadows⟩

end App

end RubicaBot
