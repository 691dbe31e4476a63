import RubicaBot.Client
import RubicaBot.Plugins.Deletion

/-!
# RubicaBot.Client.Failure

What becomes of an exchange that failed.

Who calls the client goes by `result.get("ok", True)`, and `api_call` looks at the
status only to decide whether to try again.  A transport error, or a body on which
`json()` raises a `ValueError`, is turned into a result that says so.  Another exception
is let through, and any other body is returned as it came, and may be no dictionary, or
not own up to the failure its status tells of.
-/

namespace RubicaBot

open Py BotM

/-- `entries.get("ok", True)`. -/
def okField (entries : List (String × PyVal)) : PyVal :=
  ((entries.find? fun e => e.1 = "ok").map Prod.snd).getD (.bool true)

namespace ApiExchange

/-- There was a transport error, or a status from 400. -/
def failed : ApiExchange → Bool
  | .transportError _ => true
  | .response statusCode _ => 400 ≤ statusCode

/-- If `json()` raises, it is a `ValueError`; else the body is an object, and with a
status from 400 it has an `ok` that is falsy. -/
def OwnsUp : ApiExchange → Prop
  | .transportError _ => True
  | .response _ (.error e) => e.isValueError
  | .response statusCode (.ok body) => ∃ entries, body = .dict entries ∧
      (statusCode < 400 ∨ ∃ entry, entries.find? (fun e => e.1 = "ok") = some entry ∧
        entry.2.truthy = false)

/-- The result is a dictionary, and it says so if the exchange has failed. -/
def Reported (exchange : ApiExchange) (result : Except PyError PyVal) : Prop :=
  ∃ entries, result = .ok (.dict entries) ∧ (exchange.failed → (okField entries).truthy = false)

/-- `ok` is there, and is falsy. -/
theorem okField_falsy_iff {entries : List (String × PyVal)} :
    (okField entries).truthy = false ↔
      ∃ entry, entries.find? (fun e => e.1 = "ok") = some entry ∧ entry.2.truthy = false := by
  unfold okField
  cases entries.find? fun e => e.1 = "ok" with
  | none => simp [PyVal.truthy]
  | some entry => simp

/-- The result of an exchange reports its failure exactly if the exchange owns up to it. -/
theorem reported_iff (method : String) (exchange : ApiExchange) :
    exchange.Reported (exchange.result method) ↔ exchange.OwnsUp := by
  cases exchange with
  | transportError error => exact iff_of_true ⟨_, rfl, fun _ => rfl⟩ trivial
  | response statusCode body =>
      cases body with
      | error e =>
          cases hcaught : e.isValueError with
          | true =>
              have hresult : (response statusCode (.error e)).result method =
                  .ok (.dict [("ok", .bool false), ("error", .str "invalid_json")]) :=
                if_pos hcaught
              rw [hresult]
              exact iff_of_true ⟨_, rfl, fun _ => rfl⟩ hcaught
          | false =>
              have hresult : (response statusCode (.error e)).result method = .error e := by
                simp [result, hcaught]
              rw [hresult]
              refine iff_of_false nofun fun h : e.isValueError = true => ?_
              rw [hcaught] at h
              cases h
      | ok body =>
          cases hdict : body.isDict with
          | false =>
              have hresult : (response statusCode (.ok body)).result method =
                  .error .attributeError := by
                simp [result, hdict]
              rw [hresult]
              refine iff_of_false nofun fun h => ?_
              obtain ⟨entries, rfl, -⟩ := h
              cases hdict
          | true =>
              have hresult : (response statusCode (.ok body)).result method = .ok body := by
                simp [result, hdict]
              rw [hresult]
              constructor
              · intro h
                obtain ⟨entries, hbody, hfailed⟩ := h
                cases hbody
                refine ⟨entries, rfl, ?_⟩
                by_cases hstatus : statusCode < 400
                · exact .inl hstatus
                · exact .inr (okField_falsy_iff.mp (hfailed (by simpa [failed] using hstatus)))
              · intro h
                obtain ⟨entries, rfl, hok⟩ := h
                refine ⟨entries, rfl, fun hfailed => ?_⟩
                obtain hstatus | hfalsy := hok
                · have h400 : 400 ≤ statusCode := by simpa [failed] using hfailed
                  omega
                · exact okField_falsy_iff.mpr hfalsy

/-- A reported failure is not counted as a deletion. -/
theorem Reported.not_counted {exchange : ApiExchange} {result : Except PyError PyVal}
    (h : exchange.Reported result) (hfailed : exchange.failed) :
    countsAsDeleted result = false := by
  obtain ⟨entries, rfl, hok⟩ := h
  exact hok hfailed

end ApiExchange

/-- The method of the API that a call is of. -/
def ApiCall.method : ApiCall → String
  | .sendMessage _ _ _ => "sendMessage"
  | .deleteMessage _ _ => "deleteMessage"
  | .banChatMember _ _ => "banChatMember"
  | .unbanChatMember _ _ => "unbanChatMember"
  | .setCommands _ => "setCommands"
  | .editInlineKeypad _ _ _ => "editInlineKeypad"

namespace Client

/-- The exchange after which `api_call` returns or raises. -/
def lastExchange (client : Client) (jitter : Nat → ℚ) (outcomes : Nat → ApiExchange) :
    ApiExchange :=
  outcomes (client.slept jitter outcomes)

/-- `api_call` returns a dictionary, and if the last exchange has failed it says so and is
not counted as a deletion. -/
def Reports (client : Client) (jitter : Nat → ℚ) (method : String)
    (outcomes : Nat → ApiExchange) : Prop :=
  ∃ fuel events entries,
    client.apiCall jitter method outcomes fuel 0 = some (events, .ok (.dict entries)) ∧
      ((client.lastExchange jitter outcomes).failed →
        (okField entries).truthy = false ∧ countsAsDeleted (.ok (.dict entries)) = false)

section Ends

variable {client : Client} {jitter : Nat → ℚ} {method : String} {outcomes : Nat → ApiExchange}
  {fuel : Nat} {events : List ClientEvent} {result : Except PyError PyVal}

/-- What `api_call` returns is the result of the last exchange, and all sleeps have
ended; what it raises else is the `OverflowError` of a sleep. -/
theorem apiCall_ends (h : client.apiCall jitter method outcomes fuel 0 = some (events, result)) :
    (client.InRange jitter outcomes ∧
        result = (client.lastExchange jitter outcomes).result method) ∨
      result = .error .overflowError := by
  rw [apiCall_eq] at h
  split at h
  · obtain ⟨ending, hends, hpair⟩ := Option.map_eq_some_iff.mp h
    cases hpair
    unfold endsWith at hends
    split at hends
    · next hall =>
        rw [Nat.zero_add, Option.some.injEq] at hends
        exact .inl ⟨slept_eq_retries_iff.mp hall, hends.symm⟩
    · split at hends
      · exact .inr (Option.some.inj hends).symm
      · cases hends
  · cases h

/-- In range, it is the result of the last exchange. -/
theorem apiCall_returns (h : client.InRange jitter outcomes) :
    ∃ events, client.apiCall jitter method outcomes (client.retries outcomes + 1) 0 =
      some (events, (client.lastExchange jitter outcomes).result method) := by
  refine ⟨client.eventsFrom jitter method 0 (client.retries outcomes), ?_⟩
  rw [apiCall_of_inRange h, if_pos (Nat.lt_succ_self _), lastExchange, slept_eq_retries_iff.mpr h]

/-- It reports exactly if no sleep raises or goes on for ever, and the last exchange
owns up. -/
theorem reports_iff :
    client.Reports jitter method outcomes ↔
      client.InRange jitter outcomes ∧ (client.lastExchange jitter outcomes).OwnsUp := by
  constructor
  · intro h
    obtain ⟨fuel, events, entries, hcall, hfailed⟩ := h
    obtain ⟨hrange, hresult⟩ | hraised := apiCall_ends hcall
    · refine ⟨hrange, (ApiExchange.reported_iff method _).mp ?_⟩
      exact ⟨entries, hresult.symm, fun h => (hfailed h).1⟩
    · cases hraised
  · intro h
    obtain ⟨hrange, howns⟩ := h
    obtain ⟨events, hcall⟩ := @apiCall_returns client jitter method outcomes hrange
    obtain ⟨entries, hresult, hok⟩ := (ApiExchange.reported_iff method _).mpr howns
    rw [hresult] at hcall
    refine ⟨_, events, entries, hcall, fun hfailed => ⟨hok hfailed, ?_⟩⟩
    exact ApiExchange.Reported.not_counted ⟨entries, rfl, hok⟩ hfailed

end Ends

/-- The plugins' client is this one: the nth call of the API has these outcomes, and
these draws of `random.uniform`. -/
def Answers (client : Client) (env : Env) (jitter : Nat → Nat → ℚ)
    (outcomes : Nat → Nat → ApiExchange) : Prop :=
  ∀ n call, ∃ fuel events,
    client.apiCall (jitter n) call.method (outcomes n) fuel 0 = some (events, env.reply n call)

/-- A deletion whose last exchange owns up, and is counted, has not failed. -/
theorem Answers.not_counted {client : Client} {env : Env} {jitter : Nat → Nat → ℚ}
    {outcomes : Nat → Nat → ApiExchange} (h : client.Answers env jitter outcomes) (n : Nat)
    (call : ApiCall) (howns : (client.lastExchange (jitter n) (outcomes n)).OwnsUp)
    (hfailed : (client.lastExchange (jitter n) (outcomes n)).failed) :
    countsAsDeleted (env.reply n call) = false := by
  obtain ⟨fuel, events, hcall⟩ := h n call
  obtain ⟨-, hresult⟩ | hraised := apiCall_ends hcall
  · rw [hresult]
    exact ((ApiExchange.reported_iff call.method _).mpr howns).not_counted hfailed
  · rw [hraised]
    rfl

/-- **Failures that are reported.**  For all settings, draws and outcomes: `api_call`
returns a dictionary that says so if the last exchange has failed, and that
`delete_handler` does not count, if and only if no sleep raises or is infinite and the
last exchange owns up.  And where the last exchanges of all messages own up, the number
of deletions that `delete_handler` reports has none in it whose last exchange has
failed. -/
theorem failure_reported_iff (client : Client) :
    (∀ (jitter : Nat → ℚ) (method : String) (outcomes : Nat → ApiExchange),
      client.Reports jitter method outcomes ↔
        client.InRange jitter outcomes ∧ (client.lastExchange jitter outcomes).OwnsUp) ∧
      ∀ (env : Env) (jitter : Nat → Nat → ℚ) (outcomes : Nat → Nat → ApiExchange),
        client.Answers env jitter outcomes → ∀ chatId ids (w : World),
          (∀ message ∈ ids.zipIdx w.apiCalls.length,
            (client.lastExchange (jitter message.2) (outcomes message.2)).OwnsUp) →
          ∃ failed, (deleteEach env chatId 0 0 ids w).1 =
            .ok ((ids.zipIdx w.apiCalls.length).countP fun message =>
                countedAt env chatId message &&
                  !(client.lastExchange (jitter message.2) (outcomes message.2)).failed,
              failed) := by
  refine ⟨fun jitter method outcomes => reports_iff, ?_⟩
  intro env jitter outcomes hanswers chatId ids w howns
  obtain ⟨failed, hrun, -⟩ := deleteEach_eq env chatId 0 0 ids w
  refine ⟨failed, ?_⟩
  rw [hrun, Nat.zero_add]
  have hcount : (ids.zipIdx w.apiCalls.length).countP (countedAt env chatId) =
      (ids.zipIdx w.apiCalls.length).countP fun message => countedAt env chatId message &&
        !(client.lastExchange (jitter message.2) (outcomes message.2)).failed := by
    refine List.countP_congr fun message hmessage => ?_
    cases hfailed : (client.lastExchange (jitter message.2) (outcomes message.2)).failed with
    | false => simp
    | true =>
        have hnot : countedAt env chatId message = false :=
          hanswers.not_counted _ _ (howns message hmessage) hfailed
        simp [hnot]
  rw [hcount]

/-- `[]`, with status 200. -/
def listBody : Nat → ApiExchange := fun _ => .response 200 (.ok (.list []))

/-- Brackets that are nested too deeply for the parser. -/
def deepBody : Nat → ApiExchange := fun _ => .response 200 (.error .recursionError)

/-- A refusal without an `ok`. -/
def bareRefusal : Nat → ApiExchange :=
  fun _ => .response 403 (.ok (.dict [("status", .str "FORBIDDEN")]))

/-- A body that is a list makes `api_call` raise, one that `json()` gives up on makes it
raise as well, and a refused deletion without an `ok` is taken for a success and
counted. -/
theorem failure_not_reported :
    ¬ ({} : Client).Reports (fun _ => 0) "deleteMessage" listBody ∧
      ¬ ({} : Client).Reports (fun _ => 0) "deleteMessage" deepBody ∧
      ¬ ({} : Client).Reports (fun _ => 0) "deleteMessage" bareRefusal ∧
      ∃ events result, ({} : Client).apiCall (fun _ => 0) "deleteMessage" bareRefusal 1 0 =
          some (events, result) ∧
        (({} : Client).lastExchange (fun _ => 0) bareRefusal).failed ∧ countsAsDeleted result := by
  have hrefused : ¬ (bareRefusal 0).OwnsUp := by
    rintro ⟨entries, hbody, hstatus | ⟨entry, hentry, -⟩⟩
    · exact absurd hstatus (by decide)
    · cases hbody
      cases hentry
  refine ⟨fun h => ?_, fun h => ?_, fun h => hrefused (reports_iff.mp h).2, _, _, rfl, rfl, rfl⟩
  · obtain ⟨entries, hbody, -⟩ := (reports_iff.mp h).2
    cases hbody
  · cases (reports_iff.mp h).2

end Client

end RubicaBot
