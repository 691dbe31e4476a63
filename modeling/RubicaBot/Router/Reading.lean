import RubicaBot.Effect
import RubicaBot.Router

/-!
# RubicaBot.Router.Reading

Which payloads `handle_request` can read, and what it reads in them.

Every fallback chain of the handler has a total counterpart here, in terms of
`PyVal.field`.  `Readable` says when none of the lookups on the way raises: the
containers are dictionaries, the parts of the deduplication key are strings, and
a text has a word to take the command from.  Then `buildJob` returns the job
with these readings (`buildJob_of_readable`); otherwise it raises
(`buildJob_of_not_readable`).
-/

namespace RubicaBot

open Py

/-! ## what is read -/

namespace Payload

/-- `extract_message(payload) or {}`. -/
def message (p : PyVal) : PyVal :=
  ((p.field "message").or ((p.field "data").or (p.field "inline_message"))).or .emptyDict

/-- `message.get(container) or {}`. -/
def container (p : PyVal) (key : String) : PyVal := ((message p).field key).or .emptyDict

/-- `get_chat_id(message)`. -/
def chatId (p : PyVal) : PyVal := ((container p "chat").field "id").or ((message p).field "chat_id")

/-- `get_message_id(message)`. -/
def messageId (p : PyVal) : PyVal := ((message p).field "message_id").or ((message p).field "id")

/-- `get_sender_id(message)`. -/
def senderId (p : PyVal) : PyVal :=
  ((container p "sender").field "id").or ((message p).field "sender_id")

/-- `get_text(message)`. -/
def text (p : PyVal) : PyVal := ((message p).field "text").or ((message p).field "body")

/-- The id of the update: its own, or that of its message. -/
def updateId (p : PyVal) : PyVal :=
  (p.field "update_id").or ((p.field "message_id").or ((message p).field "message_id"))

/-- `button_id` of the payload or of its message. -/
def buttonId (p : PyVal) : PyVal := (p.field "button_id").or ((message p).field "button_id")

/-- `str(button_id) if button_id else None`. -/
def button (rt : Runtime) (p : PyVal) : PyVal :=
  if (buttonId p).truthy then .str ((buttonId p).toStr rt.unicode) else .none

/-- The id of the update as a text, or a new one if there is none. -/
def jobId (rt : Runtime) (p : PyVal) (r : Request) : String :=
  if (updateId p).isNone then r.uuid else (updateId p).toStr rt.unicode

/-- The values the deduplication key is joined from. -/
def keyValues (rt : Runtime) (p : PyVal) : List PyVal :=
  [chatId p, messageId p, p.field "type", button rt p].filter (·.truthy)

/-- Their texts. -/
def keyParts (rt : Runtime) (p : PyVal) : List String := (keyValues rt p).filterMap PyVal.str?

end Payload

/-- Slashes, then nothing but white space: no command can be split off. -/
def Wordless (s : String) : Prop := (s.toList.dropWhile (· == '/')).dropWhile isSpace = []

instance (s : String) : Decidable (Wordless s) := by
  unfold Wordless
  infer_instance

/-- A payload none of whose readings raises. -/
structure Readable (p : PyVal) : Prop where
  payload : p.isDict = true
  message : (Payload.message p).isDict = true
  chat : (Payload.container p "chat").isDict = true
  sender : (Payload.container p "sender").isDict = true
  strings : ∀ v ∈ [Payload.chatId p, Payload.messageId p, p.field "type"],
    v.truthy = true → ∃ s, v = .str s
  text : (Payload.text p).truthy = true → ∃ s, Payload.text p = .str s ∧ ¬ Wordless s

/-! ## the getters -/

/-- The message of a dictionary. -/
theorem extractMessage_of_isDict {p : PyVal} (h : p.isDict = true) :
    extractMessage p =
      .ok ((p.field "message").or ((p.field "data").or (p.field "inline_message"))) := by
  simp only [extractMessage, PyVal.get_of_isDict h, bind, Except.bind, PyVal.orElse_ok]

/-- The id in a container of the message, or in the message itself. -/
theorem getIdOf_of_isDict {m : PyVal} (h : m.isDict = true) {container : String}
    (hinner : ((m.field container).or .emptyDict).isDict = true) (key : String) :
    getIdOf m container key =
      .ok ((((m.field container).or .emptyDict).field "id").or (m.field key)) := by
  unfold getIdOf
  cases htruthy : m.truthy with
  | true =>
      simp only [if_true, PyVal.get_of_isDict h, PyVal.get_of_isDict hinner, bind, Except.bind,
        PyVal.orElse_ok]
  | false =>
      rw [PyVal.eq_emptyDict h htruthy]
      rfl

/-- The id of the message. -/
theorem getMessageId_of_isDict {m : PyVal} (h : m.isDict = true) :
    getMessageId m = .ok ((m.field "message_id").or (m.field "id")) := by
  unfold getMessageId
  cases htruthy : m.truthy with
  | true => simp only [if_true, PyVal.get_of_isDict h, bind, Except.bind, PyVal.orElse_ok]
  | false =>
      rw [PyVal.eq_emptyDict h htruthy]
      rfl

/-- Its text. -/
theorem getText_of_isDict {m : PyVal} (h : m.isDict = true) :
    getText m = .ok ((m.field "text").or (m.field "body")) := by
  unfold getText
  cases htruthy : m.truthy with
  | true => simp only [if_true, PyVal.get_of_isDict h, bind, Except.bind, PyVal.orElse_ok]
  | false =>
      rw [PyVal.eq_emptyDict h htruthy]
      rfl

/-- An id that could be read came from dictionaries. -/
theorem isDict_of_getIdOf {v id : PyVal} {container key : String}
    (h : getIdOf (v.or .emptyDict) container key = .ok id) :
    (v.or .emptyDict).isDict = true ∧
      (((v.or .emptyDict).field container).or .emptyDict).isDict = true := by
  cases htruthy : (v.or .emptyDict).truthy with
  | false =>
      have hempty : v.or .emptyDict = .emptyDict := by
        unfold PyVal.or at htruthy ⊢
        split at htruthy
        · next htrue =>
            rw [htrue] at htruthy
            cases htruthy
        · next hfalse => rw [if_neg hfalse]
      rw [hempty]
      exact ⟨rfl, rfl⟩
  | true =>
      have hm : (v.or .emptyDict).isDict = true := by
        by_contra hnot
        rw [Bool.not_eq_true] at hnot
        simp only [getIdOf, htruthy, if_true, PyVal.get_of_not_isDict hnot, bind, Except.bind] at h
        cases h
      refine ⟨hm, ?_⟩
      by_contra hnot
      rw [Bool.not_eq_true] at hnot
      simp only [getIdOf, htruthy, if_true, PyVal.get_of_isDict hm, PyVal.get_of_not_isDict hnot,
        bind, Except.bind] at h
      cases h

/-! ## join, split -/

/-- `":".join` of strings. -/
theorem joinColon_of_strings {values : List PyVal} (h : ∀ v ∈ values, ∃ s, v = .str s) :
    joinColon values = .ok (":".intercalate (values.filterMap PyVal.str?)) := by
  unfold joinColon
  rw [Effect.mapM_eq_ok_filterMap fun v hv => ?_]
  · rfl
  · obtain ⟨s, rfl⟩ := h v hv
    exact ⟨s, rfl, rfl⟩

/-- What could be joined were strings. -/
theorem strings_of_joinColon {values : List PyVal} {joined : String}
    (h : joinColon values = .ok joined) : ∀ v ∈ values, ∃ s, v = .str s := by
  obtain ⟨parts, hparts, -⟩ := Effect.exists_of_bind_eq_ok h
  clear h
  induction values generalizing parts with
  | nil =>
      intro v hv
      exact absurd hv List.not_mem_nil
  | cons v vs ih =>
      rw [List.mapM_cons] at hparts
      obtain ⟨s, hs, hrest⟩ := Effect.exists_of_bind_eq_ok hparts
      obtain ⟨ss, hss, -⟩ := Effect.exists_of_bind_eq_ok hrest
      intro v' hv'
      rcases List.mem_cons.mp hv' with rfl | hv'
      · cases v' with
        | str s => exact ⟨s, rfl⟩
        | _ => cases hs
      · exact ih ss hss v' hv'

/-- There is no word after the slashes. -/
theorem splitOnce_eq_nil_iff (s : String) :
    splitOnce (lstrip (· == '/') s) = [] ↔ Wordless s := by
  unfold splitOnce Wordless lstrip
  rw [String.toList_ofList]
  split
  · next h => simp [h]
  · next c cs h =>
      rw [h]
      simp only [reduceCtorEq, iff_false]
      split <;> simp

/-- The priority can be computed exactly for a text with a word. -/
theorem priorityOf_isOk_iff (rt : Runtime) (text : PyVal) :
    (∃ priority, priorityOf rt text = .ok priority) ↔
      (text.truthy = true → ∃ s, text = .str s ∧ ¬ Wordless s) := by
  unfold priorityOf
  cases htruthy : text.truthy with
  | false => simp
  | true =>
      simp only [if_true, forall_const]
      constructor
      · rintro ⟨priority, h⟩
        obtain ⟨s, hs, hrest⟩ := Effect.exists_of_bind_eq_ok h
        cases text with
        | str s' =>
            cases hs
            refine ⟨s, rfl, fun hwordless => ?_⟩
            rw [(splitOnce_eq_nil_iff s).mpr hwordless] at hrest
            cases hrest
        | _ => cases hs
      · rintro ⟨s, rfl, hword⟩
        cases hsplit : splitOnce (lstrip (· == '/') s) with
        | nil => exact absurd ((splitOnce_eq_nil_iff s).mp hsplit) hword
        | cons word rest =>
            simp only [PyVal.asStr, bind, Except.bind, hsplit]
            split
            · exact ⟨_, rfl⟩
            · split <;> exact ⟨_, rfl⟩

/-! ## the job -/

/-- The `Job` of a readable payload. -/
def Payload.job (rt : Runtime) (p : PyVal) (r : Request) (priority : JobPriority) : Job where
  jobId := jobId rt p r
  receivedAt := r.receivedAt
  chatId := chatId p
  messageId := messageId p
  senderId := senderId p
  updateType := p.field "type"
  text := text p
  rawPayload := p
  dedupKey :=
    let joined := ":".intercalate (keyParts rt p)
    some (if joined = "" then jobId rt p r else joined)
  priority := priority

/-- The key's parts are strings. -/
theorem Readable.keyValues {p : PyVal} (h : Readable p) (rt : Runtime) :
    ∀ v ∈ Payload.keyValues rt p, ∃ s, v = .str s := by
  intro v hv
  obtain ⟨hmem, htruthy⟩ := List.mem_filter.mp hv
  have hstrings := h.strings
  simp only [List.mem_cons, List.not_mem_nil, or_false] at hmem hstrings
  rcases hmem with rfl | rfl | rfl | rfl
  · exact hstrings _ (.inl rfl) htruthy
  · exact hstrings _ (.inr (.inl rfl)) htruthy
  · exact hstrings _ (.inr (.inr rfl)) htruthy
  · unfold Payload.button at htruthy ⊢
    split
    · exact ⟨_, rfl⟩
    · next hfalse =>
        rw [if_neg hfalse] at htruthy
        cases htruthy

/-- **Readable payloads.**  `buildJob` returns the job with the total readings. -/
theorem buildJob_of_readable (rt : Runtime) {p : PyVal} (h : Readable p) (r : Request) :
    ∃ priority, priorityOf rt (Payload.text p) = .ok priority ∧
      buildJob rt p r = .ok (Payload.job rt p r priority) := by
  obtain ⟨priority, hpriority⟩ := (priorityOf_isOk_iff rt _).mpr h.text
  refine ⟨priority, hpriority, ?_⟩
  have hp := PyVal.get_of_isDict h.payload
  have hm := PyVal.get_of_isDict h.message
  have hmessage : ((p.field "message").or ((p.field "data").or (p.field "inline_message"))).or
      .emptyDict = Payload.message p := rfl
  have hchat : getChatId (Payload.message p) = .ok (Payload.chatId p) :=
    getIdOf_of_isDict h.message h.chat "chat_id"
  have hsender : getSenderId (Payload.message p) = .ok (Payload.senderId p) :=
    getIdOf_of_isDict h.message h.sender "sender_id"
  have hmessageId : getMessageId (Payload.message p) = .ok (Payload.messageId p) :=
    getMessageId_of_isDict h.message
  have htext : getText (Payload.message p) = .ok (Payload.text p) := getText_of_isDict h.message
  have hjoin : joinColon ([Payload.chatId p, Payload.messageId p, p.field "type",
      Payload.button rt p].filter (·.truthy)) = .ok (":".intercalate (Payload.keyParts rt p)) :=
    joinColon_of_strings (h.keyValues rt)
  have hbutton : (if ((p.field "button_id").or ((Payload.message p).field "button_id")).truthy then
      PyVal.str
        (((p.field "button_id").or ((Payload.message p).field "button_id")).toStr rt.unicode)
      else .none) = Payload.button rt p := rfl
  simp only [buildJob, extractMessage_of_isDict h.payload, bind, Except.bind, hmessage, hp, hm,
    PyVal.orElse_ok, hchat, hmessageId, hsender, htext, hbutton, hjoin, hpriority]
  rfl

/-- What could be built was readable. -/
theorem readable_of_buildJob {rt : Runtime} {p : PyVal} {r : Request} {job : Job}
    (h : buildJob rt p r = .ok job) : Readable p := by
  obtain ⟨m, hextract, h⟩ := Effect.exists_of_bind_eq_ok h
  have hp : p.isDict = true := by
    obtain ⟨v, hv, -⟩ := Effect.exists_of_bind_eq_ok hextract
    obtain ⟨entries, rfl⟩ := PyVal.exists_dict_of_get hv
    rfl
  rw [extractMessage_of_isDict hp] at hextract
  cases hextract
  obtain ⟨_, -, h⟩ := Effect.exists_of_bind_eq_ok h
  obtain ⟨_, -, h⟩ := Effect.exists_of_bind_eq_ok h
  obtain ⟨updateType, htype, h⟩ := Effect.exists_of_bind_eq_ok h
  obtain ⟨chatId, hchat, h⟩ := Effect.exists_of_bind_eq_ok h
  obtain ⟨messageId, hmessageId, h⟩ := Effect.exists_of_bind_eq_ok h
  obtain ⟨senderId, hsender, h⟩ := Effect.exists_of_bind_eq_ok h
  obtain ⟨text, htext, h⟩ := Effect.exists_of_bind_eq_ok h
  obtain ⟨_, -, h⟩ := Effect.exists_of_bind_eq_ok h
  obtain ⟨buttonId, -, h⟩ := Effect.exists_of_bind_eq_ok h
  obtain ⟨joined, hjoined, h⟩ := Effect.exists_of_bind_eq_ok h
  obtain ⟨priority, hpriority, -⟩ := Effect.exists_of_bind_eq_ok h
  obtain ⟨hmessage, hinChat⟩ := isDict_of_getIdOf hchat
  obtain ⟨-, hinSender⟩ := isDict_of_getIdOf hsender
  have hstrings := strings_of_joinColon hjoined
  rw [PyVal.get_of_isDict hp, Except.ok.injEq] at htype
  rw [getChatId, getIdOf_of_isDict hmessage hinChat, Except.ok.injEq] at hchat
  rw [getMessageId_of_isDict hmessage, Except.ok.injEq] at hmessageId
  rw [getText_of_isDict hmessage, Except.ok.injEq] at htext
  refine ⟨hp, hmessage, hinChat, hinSender, fun v hv htruthy => ?_, ?_⟩
  · refine hstrings v (List.mem_filter.mpr ⟨?_, htruthy⟩)
    have hv : v ∈ [chatId, messageId, updateType] := by
      rw [← hchat, ← hmessageId, ← htype]
      exact hv
    simp only [List.mem_cons, List.not_mem_nil, or_false] at hv ⊢
    tauto
  · have hisOk := (priorityOf_isOk_iff rt text).mp ⟨priority, hpriority⟩
    rw [← htext] at hisOk
    exact hisOk

/-- So a job that was built is the one with the total readings. -/
theorem job_of_buildJob {rt : Runtime} {p : PyVal} {r : Request} {job : Job}
    (h : buildJob rt p r = .ok job) :
    Readable p ∧ ∃ priority, priorityOf rt (Payload.text p) = .ok priority ∧
      job = Payload.job rt p r priority := by
  have hread := readable_of_buildJob h
  obtain ⟨priority, hpriority, hjob⟩ := buildJob_of_readable rt hread r
  exact ⟨hread, priority, hpriority, Except.ok.inj (h.symm.trans hjob)⟩

/-- **`buildJob` raises on the payloads that are not readable, and on no other.** -/
theorem buildJob_isOk_iff (rt : Runtime) (p : PyVal) (r : Request) :
    (∃ job, buildJob rt p r = .ok job) ↔ Readable p := by
  constructor
  · rintro ⟨job, h⟩
    exact readable_of_buildJob h
  · intro h
    obtain ⟨priority, -, hjob⟩ := buildJob_of_readable rt h r
    exact ⟨_, hjob⟩

/-- The chat of a readable message is a string, if there is one. -/
theorem Readable.exists_str_of_getChatId {p m chatId : PyVal} (h : Readable p)
    (hm : extractMessage p = .ok m) (hchat : getChatId m = .ok chatId)
    (htruthy : chatId.truthy = true) : ∃ s, chatId = .str s := by
  rw [extractMessage_of_isDict h.payload, Except.ok.injEq] at hm
  have hmessage : m.truthy = true := by
    by_contra hfalse
    have hnone : getChatId m = .ok .none := if_neg hfalse
    cases hnone.symm.trans hchat
    cases htruthy
  have hsame : Payload.message p = m := by
    rw [Payload.message, hm]
    exact if_pos hmessage
  have hread : getChatId (Payload.message p) = .ok (Payload.chatId p) :=
    getIdOf_of_isDict h.message h.chat "chat_id"
  rw [hsame, hchat, Except.ok.injEq] at hread
  rw [hread] at htruthy ⊢
  exact h.strings _ List.mem_cons_self htruthy

end RubicaBot
