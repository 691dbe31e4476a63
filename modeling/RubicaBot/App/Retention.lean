import RubicaBot.App.Serial
import RubicaBot.Plugins.Suspending.Blind

/-!
# RubicaBot.App.Retention

What the janitor hides.

A pass may come at any moment of a run.  It takes messages and snapshots away, and nothing
that a dispatch writes depends on those; so the tables of a run are those of its dispatches
alone, but for messages that are not among the newest of their chat and snapshots that are
older than the retention.
-/

namespace RubicaBot

open Py Transition

/-! ## one pass -/

/-- So many of the newest messages of a chat are kept. -/
def Retained (keepPerChat : Int) (n : Nat) : Prop := 0 ≤ keepPerChat → (n : Int) ≤ keepPerChat

/-- The messages are the same as far as they are kept. -/
def SameNewest (keepPerChat : Int) (xs ys : List MessageRow) : Prop :=
  ∀ chatId n, Retained keepPerChat n →
    (xs.filter fun row => row.chatId = chatId).take n =
      (ys.filter fun row => row.chatId = chatId).take n

/-- No snapshot is missing that is `recent`. -/
def SameRecent (recent : IncomingRow → Prop) (xs ys : List IncomingRow) : Prop :=
  xs.Sublist ys ∧ ∀ row ∈ ys, recent row → row ∈ xs

/-- A message that is logged is among the newest of both. -/
theorem logs_sameNewest (keepPerChat : Int) : Logs (SameNewest keepPerChat) := by
  intro rows xs ys h chatId n hn
  rw [List.filter_append, List.filter_append, List.take_append, List.take_append]
  refine congrArg _ (h chatId _ fun hkeep => ?_)
  have hle := hn hkeep
  omega

/-- A snapshot that is stored is among the recent ones of both. -/
theorem logs_sameRecent (recent : IncomingRow → Prop) : Logs (SameRecent recent) := by
  intro rows xs ys h
  refine ⟨h.1.append_left rows, fun row hrow hrecent => ?_⟩
  obtain hrow | hrow := List.mem_append.mp hrow
  · exact List.mem_append_left _ hrow
  · exact List.mem_append_right _ (h.2 row hrow hrecent)

/-- What is kept of a chat is the front of its messages; `newer` are the chats of the rows
before these. -/
theorem filter_keepNewest {limit : Int} (hlimit : 0 ≤ limit) (chatId : String)
    (newer : List String) (rows : List MessageRow) :
    (keepNewest limit newer rows).filter (fun row => row.chatId = chatId) =
      (rows.filter fun row => row.chatId = chatId).take (limit.toNat - newer.count chatId) := by
  induction rows generalizing newer with
  | nil => simp [keepNewest]
  | cons row rows ih =>
      unfold keepNewest
      by_cases hchat : row.chatId = chatId
      · have hcount : (row.chatId :: newer).count chatId = newer.count chatId + 1 := by
          rw [hchat, List.count_cons_self]
        by_cases hkept : limit < 0 ∨ (newer.count row.chatId : Int) < limit
        · have hsucc : limit.toNat - newer.count chatId =
              limit.toNat - (newer.count chatId + 1) + 1 := by
            rw [hchat] at hkept
            omega
          rw [if_pos hkept, List.filter_cons_of_pos (by simpa using hchat), ih, hcount,
            List.filter_cons_of_pos (by simpa using hchat), hsucc, List.take_succ_cons]
        · have hzero : limit.toNat - newer.count chatId = 0 := by
            rw [hchat] at hkept
            omega
          have hzero' : limit.toNat - (newer.count chatId + 1) = 0 := by omega
          rw [if_neg hkept, ih, hcount, hzero, hzero', List.take_zero, List.take_zero]
      · have hcount : (row.chatId :: newer).count chatId = newer.count chatId :=
          List.count_cons_of_ne hchat
        rw [List.filter_cons_of_neg (by simpa using hchat)]
        split
        · rw [List.filter_cons_of_neg (by simpa using hchat), ih, hcount]
        · rw [ih, hcount]

/-- A negative limit keeps everything. -/
theorem keepNewest_of_neg {limit : Int} (hlimit : limit < 0) (newer : List String)
    (rows : List MessageRow) : keepNewest limit newer rows = rows := by
  induction rows generalizing newer with
  | nil => rfl
  | cons row rows ih => rw [keepNewest, if_pos (.inl hlimit), ih]

/-- Trimming takes away nothing that is kept. -/
theorem SameNewest.trim {keepPerChat : Int} {xs ys : List MessageRow}
    (h : SameNewest keepPerChat xs ys) :
    SameNewest keepPerChat (trimMessagesPerChat xs keepPerChat).1 ys := by
  intro chatId n hn
  rw [← h chatId n hn]
  show ((keepNewest keepPerChat [] xs).filter fun row => row.chatId = chatId).take n = _
  by_cases hkeep : 0 ≤ keepPerChat
  · have hle := hn hkeep
    rw [filter_keepNewest hkeep, List.count_nil, List.take_take, Nat.min_eq_left (by omega)]
  · rw [keepNewest_of_neg (by omega)]

/-- Cleaning up takes away nothing that is recent. -/
theorem SameRecent.cleanup {recent : IncomingRow → Prop} {xs ys rows : List IncomingRow}
    (h : SameRecent recent xs ys) {maxAgeSeconds : Int} {now : Instant} {deleted : Nat}
    (hrecent : ∀ row, recent row → now - maxAgeSeconds ≤ row.receivedAt)
    (hclean : cleanupIncomingUpdates xs maxAgeSeconds now = .ok (rows, deleted)) :
    SameRecent recent rows ys := by
  obtain ⟨cutoff, hcutoff, hrows⟩ := Effect.exists_of_bind_eq_ok hclean
  unfold secondsBefore at hcutoff
  split at hcutoff
  · cases hcutoff
    cases hrows
    refine ⟨List.filter_sublist.trans h.1, fun row hrow hrow' => ?_⟩
    refine List.mem_filter.mpr ⟨h.2 row hrow hrow', ?_⟩
    simpa using hrecent row hrow'
  · cases hcutoff

section Pass

variable {settings : JanitorSettings} {recent : IncomingRow → Prop} {now : Instant}
  {t t' result : Tables}

/-- Cleaning up the snapshots takes none of the recent ones. -/
theorem cleanUp_same
    (hrecent : settings.incomingUpdatesEnabled = true → ∀ row, recent row →
      now - ((settings.incomingUpdatesRetentionHours * 3600 : Int) : ℚ) ≤ row.receivedAt)
    (h : SameButLogs (SameNewest settings.messagesKeepPerChat) (SameRecent recent) t t')
    (hclean : settings.cleanUp now t = .ok result) :
    SameButLogs (SameNewest settings.messagesKeepPerChat) (SameRecent recent) result t' := by
  unfold JanitorSettings.cleanUp at hclean
  split at hclean
  · next henabled =>
      obtain ⟨⟨rows, deleted⟩, hrows, hresult⟩ := Effect.exists_of_bind_eq_ok hclean
      cases hresult
      exact ⟨h.rules, h.floodEvents, h.flagWrites, h.messages,
        h.incomingUpdates.cleanup (hrecent henabled) hrows⟩
  · cases hclean
    exact h

/-- Trimming the messages takes none of the newest. -/
theorem trim_same
    (h : SameButLogs (SameNewest settings.messagesKeepPerChat) (SameRecent recent) t t')
    (htrim : settings.trim t = .ok result) :
    SameButLogs (SameNewest settings.messagesKeepPerChat) (SameRecent recent) result t' := by
  obtain ⟨limit, hlimit, hresult⟩ := Effect.exists_of_bind_eq_ok htrim
  rw [MessageTable.bindInt_eq_ok hlimit] at hresult
  cases hresult
  exact ⟨h.rules, h.floodEvents, h.flagWrites, h.messages.trim, h.incomingUpdates⟩

/-- **One pass**, on one side only. -/
theorem runDbJanitor_same
    (hrecent : settings.incomingUpdatesEnabled = true → ∀ row, recent row →
      now - ((settings.incomingUpdatesRetentionHours * 3600 : Int) : ℚ) ≤ row.receivedAt)
    (h : SameButLogs (SameNewest settings.messagesKeepPerChat) (SameRecent recent) t t') :
    SameButLogs (SameNewest settings.messagesKeepPerChat) (SameRecent recent)
      (runDbJanitor settings now t) t' := by
  unfold runDbJanitor
  split
  · exact h
  · next cleaned hclean =>
      have hcleaned := cleanUp_same hrecent h hclean
      split
      · exact hcleaned
      · next trimmed htrim => exact trim_same hcleaned htrim

end Pass

/-- What is fetched of the messages that are kept is the same. -/
theorem SameNewest.fetch {keepPerChat : Int} {xs ys : List MessageRow}
    (h : SameNewest keepPerChat xs ys) (chatId : PyVal) {n : Nat} (hn : Retained keepPerChat n) :
    fetchRecentMessageIds xs chatId n = fetchRecentMessageIds ys chatId n := by
  unfold fetchRecentMessageIds
  cases sqlText chatId with
  | error e => rfl
  | ok text =>
      cases text with
      | none => rfl
      | some c =>
          exact congrArg (fun rows : List MessageRow =>
            (Except.ok (rows.map (·.messageId)) : Except PyError (List String))) (h c n hn)

/-! ## all passes of a run -/

namespace Start

/-- What workers have started. -/
def isJob (st : Start) : Bool := st.job?.isSome

/-- A snapshot is younger than the retention at every pass. -/
def Recent (starts : List Start) (row : IncomingRow) : Prop :=
  ∀ settings now, .janitor settings now ∈ starts → settings.incomingUpdatesEnabled = true →
    now - ((settings.incomingUpdatesRetentionHours * 3600 : Int) : ℚ) ≤ row.receivedAt

/-- The last one starts on what the others have made. -/
theorem applyAll_cons (st : Start) (starts : List Start) (t₀ : Tables) :
    applyAll (st :: starts) t₀ = st.apply (applyAll starts t₀) := rfl

/-- By induction on the starts; only a pass is on one side alone. -/
theorem applyAll_same {settings : JanitorSettings} (recent : IncomingRow → Prop) (t₀ : Tables)
    {starts : List Start}
    (hsettings : ∀ settings' now, .janitor settings' now ∈ starts → settings' = settings)
    (hrecent : ∀ row, recent row → Recent starts row) :
    SameButLogs (SameNewest settings.messagesKeepPerChat) (SameRecent recent)
      (applyAll starts t₀) (applyAll (starts.filter isJob) t₀) := by
  induction starts with
  | nil =>
      exact ⟨rfl, rfl, rfl, fun _ _ _ => rfl, List.Sublist.refl _, fun _ hrow _ => hrow⟩
  | cons st starts ih =>
      have hrest := ih (fun settings' now hmem => hsettings _ now (List.mem_cons_of_mem _ hmem))
        fun row hrow settings' now hmem => hrecent row hrow settings' now
          (List.mem_cons_of_mem _ hmem)
      cases st with
      | job worker env ctx job =>
          rw [List.filter_cons_of_pos rfl]
          have hblind := Suspending.processJob_blind (logs_sameNewest _) (logs_sameRecent recent)
            env ctx job _ _ hrest
          rw [applyAll_cons, applyAll_cons, ← advance_program, ← advance_program]
          exact hblind.states
      | janitor settings' now =>
          obtain rfl := hsettings settings' now List.mem_cons_self
          rw [List.filter_cons_of_neg (by simp [isJob, job?])]
          exact runDbJanitor_same
            (fun henabled row hrow => hrecent row hrow _ now List.mem_cons_self henabled) hrest

end Start

namespace App

variable {d : AppSettings} {t₀ : Tables} {s s' : App}

/-- The janitor is always the same. -/
theorem step_janitor {lab : Label}
    (hs : ∀ settings now, .janitor settings now ∈ s.starts → settings = d.janitor)
    (h : s.step d lab = some s') :
    ∀ settings now, .janitor settings now ∈ s'.starts → settings = d.janitor := by
  intro settings now hmem
  cases Step.of_step h with
  | dispatch l env stats i ql hown pool hpool job hdel =>
      obtain hmem | hmem := List.mem_cons.mp hmem
      · cases hmem
      · exact hs settings now hmem
  | janitor now' =>
      obtain hmem | hmem := List.mem_cons.mp hmem
      · cases hmem
        rfl
      · exact hs settings now hmem
  | turnedAway | enqueue | pool | waits | resumed => exact hs settings now hmem

/-- Without the cache, a run of the process leaves what its dispatches alone leave, but for
old messages and snapshots (`Start.applyAll_same`). -/
theorem janitor_hidden {ls : List Label} (h : run (step d) (init d t₀) ls = some s) :
    s.tables.rules = (Start.applyAll (s.starts.filter Start.isJob) t₀).rules ∧
      s.tables.floodEvents = (Start.applyAll (s.starts.filter Start.isJob) t₀).floodEvents ∧
      (∀ chatId n, Retained d.janitor.messagesKeepPerChat n →
        fetchRecentMessageIds s.tables.messages chatId n =
          fetchRecentMessageIds (Start.applyAll (s.starts.filter Start.isJob) t₀).messages
            chatId n) ∧
      s.tables.incomingUpdates.Sublist
        (Start.applyAll (s.starts.filter Start.isJob) t₀).incomingUpdates ∧
      ∀ row ∈ (Start.applyAll (s.starts.filter Start.isJob) t₀).incomingUpdates,
        Start.Recent s.starts row → row ∈ s.tables.incomingUpdates := by
  have hjanitor := run_invariant_of_step
    (I := fun s : App => ∀ settings now, .janitor settings now ∈ s.starts → settings = d.janitor)
    (fun _ _ _ hs hstep => step_janitor hs hstep)
    (fun _ _ hmem => absurd hmem List.not_mem_nil) h
  have hsame := Start.applyAll_same (Start.Recent s.starts) t₀ hjanitor fun _ hrow => hrow
  rw [(run_sound h).tables_eq]
  exact ⟨hsame.rules, hsame.floodEvents, fun chatId n hn => hsame.messages.fetch chatId hn,
    hsame.incomingUpdates.1, hsame.incomingUpdates.2⟩

end App

end RubicaBot
