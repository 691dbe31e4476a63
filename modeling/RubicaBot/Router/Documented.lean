import RubicaBot.Router.Reading

/-!
# RubicaBot.Router.Documented

The payloads that `MODELS_DOC` (`app/utils/models_doc.py`) documents, and what
the webhook makes of them.

A documented `Update` keeps its message under `new_message` or
`updated_message`, and a documented `InlineMessage` is the message;
`extract_message` looks under `message`, `data` and `inline_message`.  So of the
documented payloads only an `InlineMessage` in an `inline_message` envelope is
understood, and of these only the ones whose id and text are there for every
`or` to take (`understood_iff`).
-/

namespace RubicaBot

open Py

/-! ## the documented records -/

/-- A dictionary with no fields but the documented ones, and strings where the
documentation says `str`. -/
structure DocRecord (fields strings : List String) where
  val : PyVal
  isDict : val.isDict = true
  field_eq_none : ∀ key, key ∉ fields → val.field key = .none
  field_eq_str : ∀ key ∈ strings, ∃ s, val.field key = .str s

/-- The record with these entries. -/
def DocRecord.ofEntries {fields strings : List String} (entries : List (String × PyVal))
    (hfields : ∀ e ∈ entries, e.1 ∈ fields)
    (hstrings : ∀ key ∈ strings, ∃ s, (PyVal.dict entries).field key = .str s) :
    DocRecord fields strings where
  val := .dict entries
  isDict := rfl
  field_eq_none key hkey := by
    have hfind : entries.find? (fun e => e.1 = key) = none := by
      rw [List.find?_eq_none]
      intro e he heq
      rw [decide_eq_true_eq] at heq
      exact hkey (heq ▸ hfields e he)
    simp only [PyVal.field, hfind, Option.map_none, Option.getD_none]
  field_eq_str := hstrings

/-- `Message`. -/
abbrev DocMessage : Type :=
  DocRecord
    ["message_id", "text", "time", "is_edited", "sender_type", "sender_id", "aux_data", "file",
      "reply_to_message_id", "forwarded_from", "forwarded_no_link", "location", "sticker",
      "contact_message", "poll"]
    ["message_id", "text", "sender_id"]

/-- `Update`. -/
abbrev DocUpdate : Type :=
  DocRecord ["type", "chat_id", "removed_message_id", "new_message", "updated_message"]
    ["type", "chat_id"]

/-- `InlineMessage`. -/
abbrev DocInlineMessage : Type :=
  DocRecord ["sender_id", "text", "file", "location", "aux_data", "message_id", "chat_id"]
    ["sender_id", "text", "message_id", "chat_id"]

/-- A documented payload with a message. -/
inductive Documented where
  /-- The update has the message under `new_message` or under `updated_message`. -/
  | update (u : DocUpdate) (m : DocMessage) (key : String)
      (hkey : key ∈ ["new_message", "updated_message"]) (hm : u.val.field key = m.val)
  | bare (m : DocInlineMessage)
  /-- Under `inline_message`. -/
  | enveloped (m : DocInlineMessage)

namespace Documented

/-- What is posted. -/
def payload : Documented → PyVal
  | .update u _ _ _ _ => u.val
  | .bare m => m.val
  | .enveloped m => .dict [("inline_message", m.val)]

/-- The message in it. -/
def message : Documented → PyVal
  | .update _ m _ _ _ => m.val
  | .bare m => m.val
  | .enveloped m => m.val

/-- The chat it is from. -/
def chatId : Documented → PyVal
  | .update u _ _ _ _ => u.val.field "chat_id"
  | .bare m => m.val.field "chat_id"
  | .enveloped m => m.val.field "chat_id"

/-- The plugins get the message, and the job carries its ids and its text. -/
def Understood (rt : Runtime) (d : Documented) : Prop :=
  extractMessage d.payload = .ok d.message ∧ ∀ r, ∃ job, buildJob rt d.payload r = .ok job ∧
    job.chatId = d.chatId ∧ job.messageId = d.message.field "message_id" ∧
    job.senderId = d.message.field "sender_id" ∧ job.text = d.message.field "text"

/-- An `InlineMessage` in an envelope, with an id and a text that has a word. -/
def Legible : Documented → Prop
  | .update _ _ _ _ _ => False
  | .bare _ => False
  | .enveloped m => m.val.field "message_id" ≠ .str "" ∧
      ∃ s, m.val.field "text" = .str s ∧ s ≠ "" ∧ ¬ Wordless s

end Documented

/-! ## what is understood -/

/-- Where none of the three names is documented, there is no message. -/
theorem DocRecord.extractMessage {fields strings : List String} (v : DocRecord fields strings)
    (hfields : ∀ key ∈ ["message", "data", "inline_message"], key ∉ fields) :
    RubicaBot.extractMessage v.val = .ok .none := by
  have hnone (key : String) (hkey : key ∈ ["message", "data", "inline_message"]) :
      v.val.field key = .none := v.field_eq_none key (hfields key hkey)
  rw [extractMessage_of_isDict v.isDict, hnone "message" (by simp), hnone "data" (by simp),
    hnone "inline_message" (by simp)]
  rfl

/-- A record with a string in it is not empty. -/
theorem DocRecord.truthy {fields strings : List String} (v : DocRecord fields strings)
    (key : String) (hkey : key ∈ strings) : v.val.truthy = true := by
  by_contra hfalse
  rw [Bool.not_eq_true] at hfalse
  obtain ⟨s, hs⟩ := v.field_eq_str key hkey
  rw [PyVal.eq_emptyDict v.isDict hfalse, PyVal.field_emptyDict] at hs
  cases hs

namespace Documented

/-- A string is what `or` takes unless it is empty. -/
theorem str_or_none (s : String) : (PyVal.str s).or .none = if s = "" then .none else .str s := by
  by_cases hs : s = ""
  · simp [PyVal.or, PyVal.truthy, hs]
  · simp [PyVal.or, PyVal.truthy, hs]

/-- It survives the `or` exactly when it is not empty. -/
theorem or_none_eq_iff {v : PyVal} {s : String} (hv : v = .str s) : v.or .none = v ↔ s ≠ "" := by
  rw [hv, str_or_none]
  split
  · next h => simp [h]
  · next h => simp [h]

variable (m : DocInlineMessage)

/-! ### what the webhook reads in an envelope -/

/-- The message of an envelope that is read. -/
theorem message_enveloped : Payload.message (enveloped m).payload = m.val := by
  have htruthy : m.val.truthy = true := m.truthy "text" (by simp)
  have hfirst : PyVal.none.or (PyVal.none.or m.val) = m.val := rfl
  show (PyVal.none.or (PyVal.none.or m.val)).or .emptyDict = m.val
  rw [hfirst, PyVal.or, if_pos htruthy]

/-- There is no `chat` and no `sender` in it. -/
theorem container_enveloped {key : String} (hkey : key ∈ ["chat", "sender"]) :
    Payload.container (enveloped m).payload key = .emptyDict := by
  have hnone : m.val.field key = .none := m.field_eq_none key (by
    simp only [List.mem_cons, List.not_mem_nil, or_false] at hkey
    rcases hkey with rfl | rfl <;> decide)
  rw [Payload.container, message_enveloped, hnone]
  rfl

/-- Its chat. -/
theorem chatId_enveloped : Payload.chatId (enveloped m).payload = m.val.field "chat_id" := by
  rw [Payload.chatId, container_enveloped m (by simp), message_enveloped]
  rfl

/-- Its sender. -/
theorem senderId_enveloped : Payload.senderId (enveloped m).payload = m.val.field "sender_id" := by
  rw [Payload.senderId, container_enveloped m (by simp), message_enveloped]
  rfl

/-- Its id. -/
theorem messageId_enveloped :
    Payload.messageId (enveloped m).payload = (m.val.field "message_id").or .none := by
  rw [Payload.messageId, message_enveloped, m.field_eq_none "id" (by decide)]

/-- Its text. -/
theorem text_enveloped :
    Payload.text (enveloped m).payload = (m.val.field "text").or .none := by
  rw [Payload.text, message_enveloped, m.field_eq_none "body" (by decide)]

/-- Nothing but the text can keep it from being read. -/
theorem readable_enveloped {s : String} (hs : m.val.field "text" = .str s) :
    Readable (enveloped m).payload ↔ (s ≠ "" → ¬ Wordless s) := by
  have htext : Payload.text (enveloped m).payload = if s = "" then .none else .str s := by
    rw [text_enveloped, hs, str_or_none]
  constructor
  · intro h hne
    have hread := h.text
    rw [htext, if_neg hne] at hread
    obtain ⟨s', hs', hword⟩ := hread (by simpa [PyVal.truthy] using hne)
    cases hs'
    exact hword
  · intro hword
    refine ⟨rfl, ?_, ?_, ?_, ?_, ?_⟩
    · rw [message_enveloped]
      exact m.isDict
    · rw [container_enveloped m (by simp)]
      rfl
    · rw [container_enveloped m (by simp)]
      rfl
    · intro v hv htruthy
      simp only [List.mem_cons, List.not_mem_nil, or_false] at hv
      rcases hv with rfl | rfl | rfl
      · rw [chatId_enveloped]
        exact m.field_eq_str "chat_id" (by simp)
      · obtain ⟨id, hid⟩ := m.field_eq_str "message_id" (by simp)
        rw [messageId_enveloped, hid, str_or_none] at htruthy ⊢
        split at htruthy
        · cases htruthy
        · next hne => exact ⟨id, if_neg hne⟩
      · cases htruthy
    · rw [htext]
      split
      · intro htruthy
        cases htruthy
      · next hne => exact fun _ => ⟨s, rfl, hword hne⟩

/-- A message that is not found is not handed over. -/
theorem not_understood_of_none {rt : Runtime} {d : Documented}
    (hnone : extractMessage d.payload = .ok .none) (hdict : d.message.isDict = true) :
    ¬ d.Understood rt := by
  intro h
  have heq : PyVal.none = d.message := Except.ok.inj (hnone.symm.trans h.1)
  rw [← heq] at hdict
  cases hdict

/-- What is understood was legible. -/
theorem legible_of_understood {rt : Runtime} (h : (enveloped m).Understood rt) :
    (enveloped m).Legible := by
  obtain ⟨s, hs⟩ := m.field_eq_str "text" (by simp)
  obtain ⟨id, hid⟩ := m.field_eq_str "message_id" (by simp)
  obtain ⟨job, hbuild, -, hjobId, -, hjobText⟩ := h.2 ⟨ByteArray.empty, none, 0, 0, 0, ""⟩
  obtain ⟨hread, priority, -, rfl⟩ := job_of_buildJob hbuild
  have hidNe : id ≠ "" := (or_none_eq_iff hid).mp ((messageId_enveloped m).symm.trans hjobId)
  have hsNe : s ≠ "" := (or_none_eq_iff hs).mp ((text_enveloped m).symm.trans hjobText)
  refine ⟨fun heq => ?_, s, hs, hsNe, (readable_enveloped m hs).mp hread hsNe⟩
  rw [hid, PyVal.str.injEq] at heq
  exact hidNe heq

/-- And what is legible is understood. -/
theorem understood_of_legible (rt : Runtime) (h : (enveloped m).Legible) :
    (enveloped m).Understood rt := by
  obtain ⟨hidNe, s, hs, hsNe, hword⟩ := h
  obtain ⟨id, hid⟩ := m.field_eq_str "message_id" (by simp)
  rw [hid, ne_eq, PyVal.str.injEq] at hidNe
  have hread : Readable (enveloped m).payload := (readable_enveloped m hs).mpr fun _ => hword
  refine ⟨rfl, fun r => ?_⟩
  obtain ⟨priority, -, hjob⟩ := buildJob_of_readable rt hread r
  refine ⟨_, hjob, chatId_enveloped m, ?_, senderId_enveloped m, ?_⟩
  · exact (messageId_enveloped m).trans ((or_none_eq_iff hid).mpr hidNe)
  · exact (text_enveloped m).trans ((or_none_eq_iff hs).mpr hsNe)

/-- **The documented model.**  The webhook understands a documented payload exactly
when it is an `InlineMessage` in an envelope whose id and text are not empty and
whose text has a word. -/
theorem understood_iff (rt : Runtime) (d : Documented) : d.Understood rt ↔ d.Legible := by
  cases d with
  | update u m key hkey hm =>
      have hnone : extractMessage u.val = .ok .none := u.extractMessage (by decide)
      constructor
      · exact not_understood_of_none (d := update u m key hkey hm) hnone m.isDict
      · exact False.elim
  | bare m =>
      have hnone : extractMessage m.val = .ok .none := m.extractMessage (by decide)
      constructor
      · exact not_understood_of_none (d := bare m) hnone m.isDict
      · exact False.elim
  | enveloped m => exact ⟨legible_of_understood m, understood_of_legible m rt⟩

/-! ### a new message -/

/-- A documented message. -/
def greeting : DocMessage :=
  .ofEntries [("message_id", .str "m0"), ("text", .str "hi"), ("sender_id", .str "u0")]
    (by simp) (by simp [PyVal.field])

/-- The update it comes in. -/
def newMessage : DocUpdate :=
  .ofEntries [("type", .str "NewMessage"), ("chat_id", .str "c0"), ("new_message", greeting.val)]
    (by simp) (by simp [PyVal.field])

/-- The message is not found, and its job says nothing of where it is from. -/
theorem newMessage_not_understood :
    ¬ (update newMessage greeting "new_message" (by simp) rfl).Understood .plain ∧
      ∃ job, buildJob .plain newMessage.val ⟨ByteArray.empty, none, 0, 0, 0, ""⟩ = .ok job ∧
        job.chatId = .none ∧ job.text = .none := by
  constructor
  · rintro ⟨hextract, -⟩
    cases hextract
  · exact ⟨_, rfl, rfl, rfl⟩

end Documented

end RubicaBot
