import RubicaBot.Router.Reading

/-!
# RubicaBot.Router.Identity

When are two updates the same update?

The deduplication key is the non-empty ones of chat id, message id, type and
button, joined with `:`; only where all four are missing it is the job id, which
is the update id's text.  So the key does not contain the update id of any
update that names a chat, a message or even just a type, and a joined text does
not tell where one part ends and the next begins.  `pieces` is what the key does
determine: its parts, cut at every colon.
-/

namespace RubicaBot

open Py

/-! ## joining and cutting at a separator -/

/-- Cutting a joined text at the separator cuts each part. -/
theorem splitOn_intercalate_flatMap {α : Type} [BEq α] [LawfulBEq α] (a : α) {parts : List (List α)}
    (h : parts ≠ []) : ([a].intercalate parts).splitOn a = parts.flatMap (·.splitOn a) := by
  induction parts with
  | nil => exact absurd rfl h
  | cons part parts ih =>
      cases parts with
      | nil => simp
      | cons next rest =>
          rw [List.flatMap_cons, ← ih (List.cons_ne_nil _ _), ← List.splitOn_append_cons_self]
          rfl

/-- Texts that are cut into the same pieces are the same. -/
theorem splitOn_injective {α : Type} [BEq α] [LawfulBEq α] (a : α) {xs ys : List α}
    (h : xs.splitOn a = ys.splitOn a) : xs = ys := by
  calc xs = [a].intercalate (xs.splitOn a) := (List.intercalate_splitOn a).symm
    _ = [a].intercalate (ys.splitOn a) := by rw [h]
    _ = ys := List.intercalate_splitOn a

namespace Payload

/-- The key's parts, or the job id where there are none. -/
def identity (rt : Runtime) (p : PyVal) (r : Request) : List String :=
  if keyParts rt p = [] then [jobId rt p r] else keyParts rt p

/-- The pieces between the colons of the identity. -/
def pieces (rt : Runtime) (p : PyVal) (r : Request) : List (List Char) :=
  (identity rt p r).flatMap (·.toList.splitOn ':')

/-- Without anything else there is the id of the job. -/
theorem identity_ne_nil (rt : Runtime) (p : PyVal) (r : Request) : identity rt p r ≠ [] := by
  unfold identity
  split
  · exact List.cons_ne_nil _ _
  · next h => exact h

/-- The key's parts are not empty. -/
theorem ne_empty_of_mem_keyParts {rt : Runtime} {p : PyVal} {s : String}
    (h : s ∈ keyParts rt p) : s ≠ "" := by
  obtain ⟨v, hv, hs⟩ := List.mem_filterMap.mp h
  have htruthy := (List.mem_filter.mp hv).2
  cases v with
  | str s' =>
      cases hs
      simpa [PyVal.truthy] using htruthy
  | _ => cases hs

/-- The joined parts are empty only if there are none. -/
theorem joined_eq_empty_iff (rt : Runtime) (p : PyVal) :
    ":".intercalate (keyParts rt p) = "" ↔ keyParts rt p = [] := by
  constructor
  · intro h
    cases hparts : keyParts rt p with
    | nil => rfl
    | cons part parts =>
        have hne : part ≠ "" := ne_empty_of_mem_keyParts (hparts ▸ List.mem_cons_self)
        have hlist := congrArg String.toList h
        rw [hparts, String.toList_intercalate] at hlist
        cases parts with
        | nil => exact absurd (String.toList_inj.mp (by simpa using hlist)) hne
        | cons next rest => simp [List.intercalate] at hlist
  · intro h
    rw [h]
    rfl

/-- The key of a job is its identity, joined. -/
theorem effectiveKey_job (rt : Runtime) (p : PyVal) (r : Request) (priority : JobPriority) :
    (job rt p r priority).effectiveKey = ":".intercalate (identity rt p r) := by
  unfold Job.effectiveKey job identity
  by_cases hparts : keyParts rt p = []
  · simp [hparts]
  · have hjoined : ":".intercalate (keyParts rt p) ≠ "" :=
      fun h => hparts ((joined_eq_empty_iff rt p).mp h)
    simp only [hparts, if_false, hjoined, ne_eq, not_false_eq_true, if_true]

end Payload

/-- **Keys and pieces.**  Two accepted payloads get the same key exactly when
their identities are cut into the same pieces. -/
theorem effectiveKey_eq_iff {rt : Runtime} {p p' : PyVal} {r r' : Request} {job job' : Job}
    (h : buildJob rt p r = .ok job) (h' : buildJob rt p' r' = .ok job') :
    job.effectiveKey = job'.effectiveKey ↔ Payload.pieces rt p r = Payload.pieces rt p' r' := by
  obtain ⟨-, priority, -, rfl⟩ := job_of_buildJob h
  obtain ⟨-, priority', -, rfl⟩ := job_of_buildJob h'
  have hpieces (p : PyVal) (r : Request) :
      (":".intercalate (Payload.identity rt p r)).toList.splitOn ':' = Payload.pieces rt p r := by
    have hne : (Payload.identity rt p r).map String.toList ≠ [] := by
      simpa using Payload.identity_ne_nil rt p r
    have hcut := splitOn_intercalate_flatMap ':' hne
    rw [String.toList_intercalate, Payload.pieces, ← List.flatMap_map]
    exact hcut
  rw [Payload.effectiveKey_job, Payload.effectiveKey_job, ← hpieces p r, ← hpieces p' r']
  constructor
  · intro heq
    rw [heq]
  · intro heq
    exact String.toList_inj.mp (splitOn_injective ':' heq)

/-- A call of `enqueue` is a duplicate exactly when the deduplicator says so. -/
theorem JobQueue.enqueue_duplicate_iff (q : JobQueue) (job : Job) (now : Instant) :
    (q.enqueue job now).1 = .duplicate ↔
      (q.deduplicator.seen (some job.effectiveKey) now).1 = true := by
  obtain ⟨-, ⟨hans, hseen, -⟩ | ⟨hans, hseen, -⟩ | ⟨hans, hseen, -⟩⟩ := q.enqueue_cases job now
  · simp [hans, hseen]
  · simp [hans, hseen]
  · simp [hans, hseen]

/-- A job with another key makes no duplicate of a later one, nor saves it from
being one. -/
theorem JobQueue.enqueue_duplicate_after (q : JobQueue) {job job' : Job} {now now' : Instant}
    (hnow : now ≤ now') (hne : job.effectiveKey ≠ job'.effectiveKey) :
    ((q.enqueue job now).2.enqueue job' now').1 = .duplicate ↔
      (q.enqueue job' now').1 = .duplicate := by
  rw [enqueue_duplicate_iff, enqueue_duplicate_iff, (q.enqueue_cases job now).1,
    Deduplicator.seen_after_other _ hne.symm hnow]

/-- **Distinct updates.**  For any two accepted payloads, whatever their update
ids: their keys differ, and neither is a duplicate because of the other, if and
only if their identities are cut into different pieces. -/
theorem not_merged_iff {rt : Runtime} {p p' : PyVal} {r r' : Request} {job job' : Job}
    (h : buildJob rt p r = .ok job) (h' : buildJob rt p' r' = .ok job') :
    (job.effectiveKey ≠ job'.effectiveKey ∧ ∀ (q : JobQueue) (now now' : Instant), now ≤ now' →
        (((q.enqueue job now).2.enqueue job' now').1 = .duplicate ↔
          (q.enqueue job' now').1 = .duplicate) ∧
        (((q.enqueue job' now).2.enqueue job now').1 = .duplicate ↔
          (q.enqueue job now').1 = .duplicate)) ↔
      Payload.pieces rt p r ≠ Payload.pieces rt p' r' := by
  rw [Ne, effectiveKey_eq_iff h h']
  constructor
  · exact fun hdistinct => hdistinct.1
  · intro hpieces
    have hne : job.effectiveKey ≠ job'.effectiveKey :=
      fun heq => hpieces ((effectiveKey_eq_iff h h').mp heq)
    refine ⟨hpieces, fun q now now' hnow => ?_⟩
    exact ⟨q.enqueue_duplicate_after hnow hne, q.enqueue_duplicate_after hnow hne.symm⟩

/-! ## two edits of one message -/

/-- The update for an edit: the message has a new text, the update a new id. -/
def edited (updateId messageId text : String) : PyVal :=
  .dict [("update_id", .str updateId), ("type", .str "UpdatedMessage"),
    ("message", .dict [("chat_id", .str "c0"), ("message_id", .str messageId),
      ("text", .str text)])]

/-- An edit can be read. -/
theorem readable_edited (updateId messageId : String) {text : String} (hword : ¬ Wordless text) :
    Readable (edited updateId messageId text) where
  payload := rfl
  message := rfl
  chat := rfl
  sender := rfl
  strings := by
    intro v hv htruthy
    simp only [List.mem_cons, List.not_mem_nil, or_false] at hv
    rcases hv with rfl | rfl | rfl
    · exact ⟨"c0", rfl⟩
    · by_cases hid : messageId = ""
      · subst hid
        cases htruthy
      · exact ⟨messageId, by simp [edited, Payload.messageId, Payload.message, PyVal.field,
          PyVal.or, PyVal.truthy, hid]⟩
    · exact ⟨"UpdatedMessage", rfl⟩
  text := by
    intro htruthy
    by_cases htext : text = ""
    · subst htext
      cases htruthy
    · exact ⟨text, by simp [edited, Payload.text, Payload.message, PyVal.field, PyVal.or,
        PyVal.truthy, htext], hword⟩

/-- What a request reads from outside, all at its first value. -/
def firstRequest : Request where
  body := ByteArray.empty
  signature := none
  now := 0
  checkedAt := 0
  receivedAt := 0
  uuid := "uuid"

/-- The edits of two messages are not merged. -/
theorem edits_of_two_not_merged :
    ∃ job job', buildJob .plain (edited "1" "m0" "a") firstRequest = .ok job ∧
      buildJob .plain (edited "2" "m1" "b") firstRequest = .ok job' ∧
      job.effectiveKey ≠ job'.effectiveKey := by
  have hread : Readable (edited "1" "m0" "a") := readable_edited "1" "m0" (by decide)
  have hread' : Readable (edited "2" "m1" "b") := readable_edited "2" "m1" (by decide)
  obtain ⟨_, -, h⟩ := buildJob_of_readable .plain hread firstRequest
  obtain ⟨_, -, h'⟩ := buildJob_of_readable .plain hread' firstRequest
  have hpieces : Payload.pieces .plain (edited "1" "m0" "a") firstRequest ≠
      Payload.pieces .plain (edited "2" "m1" "b") firstRequest := by
    decide +kernel
  exact ⟨_, _, h, h', ((not_merged_iff h h').mpr hpieces).1⟩

/-- Two edits of one message have one key. -/
theorem edits_merged :
    ¬ ∀ (rt : Runtime) (p p' : PyVal) (r r' : Request) (job job' : Job),
      buildJob rt p r = .ok job → buildJob rt p' r' = .ok job' →
      (p.field "update_id").truthy = true → (p'.field "update_id").truthy = true →
      p.field "update_id" ≠ p'.field "update_id" → job.effectiveKey ≠ job'.effectiveKey := by
  intro hclaim
  have hread : Readable (edited "1" "m0" "a") := readable_edited "1" "m0" (by decide)
  have hread' : Readable (edited "2" "m0" "b") := readable_edited "2" "m0" (by decide)
  obtain ⟨_, -, h⟩ := buildJob_of_readable .plain hread firstRequest
  obtain ⟨_, -, h'⟩ := buildJob_of_readable .plain hread' firstRequest
  have hids : (edited "1" "m0" "a").field "update_id" ≠
      (edited "2" "m0" "b").field "update_id" := by
    simp [edited, PyVal.field]
  refine hclaim .plain _ _ _ _ _ _ h h' rfl rfl hids ?_
  exact (effectiveKey_eq_iff h h').mpr rfl

end RubicaBot
