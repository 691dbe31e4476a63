import RubicaBot.Plugins.Flood

/-!
# RubicaBot.Plugins.Isolation

Whether a member can be banned for what others write.

The histories of `AntiFloodPlugin` are kept under `f"{chat_id}:{sender_id}"`.  What
is written under other keys does not matter to a pair of chat and sender
(`decisionsOf_eq`), but two pairs may have one key: ids that hold a colon can be cut
at another one.  So a pair is isolated exactly if no other pair has its key
(`flood_isolated_iff`).
-/

namespace RubicaBot

open Py Transition

namespace FloodCall

/-- The chat and the sender of the call. -/
def ids (c : FloodCall) : Except PyError (PyVal × PyVal) := do
  let message ← extractMessage c.update
  let chatId ← getChatId message
  let senderId ← getSenderId message
  return (chatId, senderId)

/-- The call is one of the pair. -/
def isOf (chatId senderId : String) (c : FloodCall) : Bool :=
  match c.ids with
  | .ok (chat, sender) => chat.isStr chatId && sender.isStr senderId
  | .error _ => false

/-- The ids of the call, if it counts, are strings. -/
def TextIds (c : FloodCall) : Prop :=
  ∀ message chatId senderId, Carries c.update message chatId senderId →
    ∃ chat sender, chatId = .str chat ∧ senderId = .str sender

end FloodCall

/-- What a run decides about the calls of a pair. -/
def decisionsOf (windowSeconds : ℚ) (chatId senderId : String) (calls : List FloodCall) :
    List FloodDecision :=
  answersTo (FloodCall.handle windowSeconds) (FloodCall.isOf chatId senderId) ∅ calls

/-- The key of a pair. -/
def pairKey (chatId senderId : String) : String := chatId ++ ":" ++ senderId

/-- No other pair has the key of this one. -/
def Unambiguous (chatId senderId : String) : Prop :=
  ∀ chatId' senderId', chatId' ≠ "" → senderId' ≠ "" →
    pairKey chatId' senderId' = pairKey chatId senderId → chatId' = chatId ∧ senderId' = senderId

/-- Two runs that are the same for the pair. -/
structure Parallel (chatId senderId : String) (xs ys : List FloodCall) : Prop where
  sorted : xs.Pairwise fun c c' => c.time ≤ c'.time
  sorted' : ys.Pairwise fun c c' => c.time ≤ c'.time
  same : xs.filter (FloodCall.isOf chatId senderId) = ys.filter (FloodCall.isOf chatId senderId)

/-- What others write does not matter to the pair. -/
def Isolated (windowSeconds : ℚ) (chatId senderId : String) : Prop :=
  ∀ xs ys, Parallel chatId senderId xs ys → (∀ c ∈ xs ++ ys, c.TextIds) →
    decisionsOf windowSeconds chatId senderId xs = decisionsOf windowSeconds chatId senderId ys

/-! ## the calls of the pair -/

section Own

open FloodCall

variable {windowSeconds : ℚ} {events events' : Dict String (List Instant)} {c : FloodCall}
  {chatId senderId : String}

/-- Whose message it is, is what it carries. -/
theorem FloodCall.isOf_iff {message chat sender : PyVal}
    (h : Carries c.update message chat sender) :
    c.isOf chatId senderId ↔ chat = .str chatId ∧ sender = .str senderId := by
  have hids : c.ids = .ok (chat, sender) :=
    Effect.bind_eq_ok_iff.mpr ⟨message, h.extracted, Effect.bind_eq_ok_iff.mpr ⟨chat, h.inChat,
      Effect.bind_eq_ok_iff.mpr ⟨sender, h.sentBy, rfl⟩⟩⟩
  rw [isOf, hids, Bool.and_eq_true, PyVal.isStr_iff, PyVal.isStr_iff]

/-- The pair's calls are counted under its key. -/
theorem FloodCall.key_of_isOf {key : String} (h : c.isOf chatId senderId)
    (hkey : c.key = some key) : key = pairKey chatId senderId := by
  obtain ⟨s, hs, hown⟩ := key_eq_some_iff.mp hkey
  obtain ⟨hcarries, -⟩ := antiFloodSubject_eq_some_iff.mp hs
  obtain ⟨hchat, hsender⟩ := (isOf_iff hcarries).mp h
  rw [← hown, FloodSubject.key, hchat, hsender]
  rfl

/-- The pair's calls are decided by its history, and leave one. -/
theorem handle_own (h : c.isOf chatId senderId)
    (hsame : events.lookup (pairKey chatId senderId) =
      events'.lookup (pairKey chatId senderId)) :
    ∃ decision events₁ events₁', handle windowSeconds events c = some (decision, events₁) ∧
      handle windowSeconds events' c = some (decision, events₁') ∧
      events₁.lookup (pairKey chatId senderId) = events₁'.lookup (pairKey chatId senderId) := by
  cases hkey : c.key with
  | none =>
      obtain ⟨result, -, hhandle⟩ := @handle_of_no_key windowSeconds c hkey
      exact ⟨_, events, events', hhandle events, hhandle events', hsame⟩
  | some key =>
      have hpair := key_of_isOf h hkey
      subst hpair
      obtain ⟨s, hs, hown⟩ := key_eq_some_iff.mp hkey
      obtain ⟨punished, hhandle, -⟩ := @handle_of_subject windowSeconds c s hs
      rw [hown] at hhandle
      have hhistory : history windowSeconds events (pairKey chatId senderId) c =
          history windowSeconds events' (pairKey chatId senderId) c := by
        rw [history, hsame, history]
      refine ⟨_, _, _, hhandle events, hhistory ▸ hhandle events', ?_⟩
      rw [AList.lookup_insert, AList.lookup_insert, hhistory]

/-- Calls under other keys leave the history of the pair. -/
theorem handle_other (h : c.key ≠ some (pairKey chatId senderId)) :
    ∃ decision events', handle windowSeconds events c = some (decision, events') ∧
      events'.lookup (pairKey chatId senderId) = events.lookup (pairKey chatId senderId) := by
  cases hkey : c.key with
  | none =>
      obtain ⟨result, -, hhandle⟩ := @handle_of_no_key windowSeconds c hkey
      exact ⟨_, events, hhandle events, rfl⟩
  | some key =>
      obtain ⟨s, hs, hown⟩ := key_eq_some_iff.mp hkey
      obtain ⟨punished, hhandle, -⟩ := @handle_of_subject windowSeconds c s hs
      refine ⟨_, _, hhandle events, AList.lookup_insert_ne fun heq => h ?_⟩
      rw [hkey, ← hown, ← heq]

end Own

/-- **Isolation.**  If only the pair's own calls are counted under its key, the
decisions about them are those of a run of these calls alone. -/
theorem decisionsOf_eq {windowSeconds : ℚ} {chatId senderId : String} {calls : List FloodCall}
    (hkey : ∀ c ∈ calls, c.key = some (pairKey chatId senderId) → c.isOf chatId senderId) :
    decisionsOf windowSeconds chatId senderId calls =
      outputs (FloodCall.handle windowSeconds) ∅
        (calls.filter (FloodCall.isOf chatId senderId)) := by
  refine answersTo_eq_outputs (Q := fun c => c.key ≠ some (pairKey chatId senderId))
    (R := fun events events' => events.lookup (pairKey chatId senderId) =
      events'.lookup (pairKey chatId senderId)) ?_ ?_ rfl ?_
  · exact fun events events' c hsame h => handle_own h hsame
  · intro events events' c hsame _ hother
    obtain ⟨decision, events₁, hhandle, hlookup⟩ := @handle_other windowSeconds events c _ _ hother
    exact ⟨decision, events₁, hhandle, hlookup.trans hsame⟩
  · intro c hc hother hown
    rw [hkey c hc hown] at hother
    cases hother

/-- Nobody is counted under an empty id. -/
theorem decisionsOf_eq_of_empty {windowSeconds : ℚ} {chatId senderId : String}
    {calls : List FloodCall} (h : chatId = "" ∨ senderId = "") :
    decisionsOf windowSeconds chatId senderId calls =
      outputs (FloodCall.handle windowSeconds) ∅
        (calls.filter (FloodCall.isOf chatId senderId)) := by
  refine answersTo_eq_outputs (Q := fun _ => True) (R := fun _ _ => True) ?_ ?_ trivial
    fun _ _ _ => trivial
  · intro events events' c _ hown
    have hkey : c.key = none := by
      by_contra hsome
      obtain ⟨key, hkey⟩ := Option.ne_none_iff_exists'.mp hsome
      obtain ⟨s, hs, -⟩ := FloodCall.key_eq_some_iff.mp hkey
      obtain ⟨hcarries, -⟩ := antiFloodSubject_eq_some_iff.mp hs
      have hchat := hcarries.chatTruthy
      have hsender := hcarries.senderTruthy
      rw [((FloodCall.isOf_iff hcarries).mp hown).1] at hchat
      rw [((FloodCall.isOf_iff hcarries).mp hown).2] at hsender
      obtain rfl | rfl := h
      · cases hchat
      · cases hsender
    obtain ⟨result, -, hhandle⟩ := @FloodCall.handle_of_no_key windowSeconds c hkey
    exact ⟨_, events, events', hhandle events, hhandle events', trivial⟩
  · exact fun events _ c _ _ _ => ⟨_, _, rfl, trivial⟩

/-- A counted call under the pair's key is the pair's, if no other pair has that key. -/
theorem Unambiguous.isOf_of_key {chatId senderId : String} (h : Unambiguous chatId senderId)
    {c : FloodCall} (htext : c.TextIds) (hkey : c.key = some (pairKey chatId senderId)) :
    c.isOf chatId senderId := by
  obtain ⟨s, hs, hown⟩ := FloodCall.key_eq_some_iff.mp hkey
  obtain ⟨hcarries, -⟩ := antiFloodSubject_eq_some_iff.mp hs
  obtain ⟨chat, sender, hchat, hsender⟩ := htext _ _ _ hcarries
  have hchatTruthy := hcarries.chatTruthy
  have hsenderTruthy := hcarries.senderTruthy
  rw [hchat] at hchatTruthy
  rw [hsender] at hsenderTruthy
  rw [FloodSubject.key, hchat, hsender] at hown
  obtain ⟨rfl, rfl⟩ := h chat sender (by simpa [PyVal.truthy] using hchatTruthy)
    (by simpa [PyVal.truthy] using hsenderTruthy) hown
  exact (FloodCall.isOf_iff hcarries).mpr ⟨hchat, hsender⟩

/-- A key with one colon can only be cut there. -/
theorem unambiguous_of_no_colon {chatId senderId : String} (hchat : ':' ∉ chatId.toList)
    (hsender : ':' ∉ senderId.toList) : Unambiguous chatId senderId := by
  intro chatId' senderId' _ _ hkey
  have hlists : chatId.toList ++ ':' :: senderId.toList =
      chatId'.toList ++ ':' :: senderId'.toList := by
    have h := congrArg String.toList hkey
    simp only [pairKey, String.toList_append] at h
    simpa using h.symm
  obtain ⟨hc, -, hs⟩ := (List.append_cons_inj_of_notMem hchat hsender).mp hlists
  exact ⟨String.toList_injective hc.symm, String.toList_injective hs.symm⟩

/-! ## two pairs with one key -/

section Ambiguous

open FloodCall

variable {chatId senderId chatId' senderId' : String} {floodLimit : Int} {t : Instant}

/-- A message that names its chat and its sender. -/
theorem sentAt_carries (hchat : chatId ≠ "") (hsender : senderId ≠ "") :
    Carries (sentAt chatId senderId floodLimit t).update
      (.dict [("chat", .dict [("id", .str chatId)]), ("sender", .dict [("id", .str senderId)])])
      (.str chatId) (.str senderId) := by
  have hchat' : (PyVal.str chatId).truthy := by simpa [PyVal.truthy] using hchat
  have hsender' : (PyVal.str senderId).truthy := by simpa [PyVal.truthy] using hsender
  refine ⟨rfl, ?_, ?_, hchat', hsender'⟩
  · exact if_pos hchat'
  · exact if_pos hsender'

/-- By strings. -/
theorem sentAt_textIds (hchat : chatId ≠ "") (hsender : senderId ≠ "") :
    (sentAt chatId senderId floodLimit t).TextIds := by
  intro message chat sender h
  obtain ⟨-, rfl, rfl⟩ := (sentAt_carries hchat hsender).unique h
  exact ⟨chatId, senderId, rfl, rfl⟩

/-- So it is counted. -/
theorem sentAt_subject (hchat : chatId ≠ "") (hsender : senderId ≠ "") :
    ∃ message, (sentAt chatId senderId floodLimit t).subject =
      .ok (some { message, chatId := .str chatId, senderId := .str senderId, floodLimit }) := by
  refine ⟨_, antiFloodSubject_eq_some_iff.mpr
    ⟨sentAt_carries hchat hsender, { antiFlood := 1, floodLimit : GroupRow }.settings chatId,
      ?_, rfl, rfl, rfl⟩⟩
  have hrow : (sentAt chatId senderId floodLimit t).world.rules.groups.lookup chatId =
      some { antiFlood := 1, floodLimit } := AList.lookup_insert _
  rw [Rules.getGroup_str, Groups.settings, hrow]

/-- And punished once there are too many. -/
theorem handle_sentAt {windowSeconds : ℚ} (hchat : chatId ≠ "") (hsender : senderId ≠ "") :
    ∃ punished : FloodDecision, punished.apiCalls ≠ [] ∧
      ∀ events, handle windowSeconds events (sentAt chatId senderId floodLimit t) =
        some (if floodLimit < (history windowSeconds events (pairKey chatId senderId)
              (sentAt chatId senderId floodLimit t)).length then punished else .pass,
          events.insert (pairKey chatId senderId) (history windowSeconds events
            (pairKey chatId senderId) (sentAt chatId senderId floodLimit t))) := by
  obtain ⟨message, hs⟩ := @sentAt_subject chatId senderId floodLimit t hchat hsender
  obtain ⟨punished, hhandle, hasks, -⟩ := @handle_of_subject windowSeconds _ _ hs
  exact ⟨punished, hasks, hhandle⟩

/-- Alone, the message is let through, if one is within the limit; after another
pair's message at the same time under the same key, it is not, if two are not. -/
theorem not_isolated_of_pairKey_eq {windowSeconds : ℚ} (hw : 0 ≤ windowSeconds)
    (hchat : chatId ≠ "") (hsender : senderId ≠ "") (hchat' : chatId' ≠ "")
    (hsender' : senderId' ≠ "") (hkey : pairKey chatId' senderId' = pairKey chatId senderId)
    (hne : ¬ (chatId' = chatId ∧ senderId' = senderId)) :
    ¬ Isolated windowSeconds chatId senderId := by
  have hown : (sentAt chatId senderId 1 0).isOf chatId senderId :=
    (isOf_iff (sentAt_carries hchat hsender)).mpr ⟨rfl, rfl⟩
  have hother : (sentAt chatId' senderId' 1 0).isOf chatId senderId = false := by
    refine Bool.eq_false_of_not_eq_true fun h => hne ?_
    obtain ⟨hc, hs⟩ := (isOf_iff (sentAt_carries hchat' hsender')).mp h
    exact ⟨PyVal.str.inj hc, PyVal.str.inj hs⟩
  have hparallel : Parallel chatId senderId [sentAt chatId senderId 1 0]
      [sentAt chatId' senderId' 1 0, sentAt chatId senderId 1 0] :=
    ⟨by simp, by simp [FloodCall.time, sentAt], by simp [hown, hother]⟩
  have htext : ∀ c ∈ [sentAt chatId senderId 1 0] ++
      [sentAt chatId' senderId' 1 0, sentAt chatId senderId 1 0], c.TextIds := by
    simp [sentAt_textIds hchat hsender, sentAt_textIds hchat' hsender']
  obtain ⟨punished, hasks, hhandle⟩ :=
    @handle_sentAt chatId senderId 1 0 windowSeconds hchat hsender
  obtain ⟨_, -, hhandle'⟩ := @handle_sentAt chatId' senderId' 1 0 windowSeconds hchat' hsender'
  have hfirst : history windowSeconds ∅ (pairKey chatId senderId) (sentAt chatId senderId 1 0) =
      [0] := rfl
  have hsecond : history windowSeconds
      ((∅ : Dict String (List Instant)).insert (pairKey chatId senderId) [0])
      (pairKey chatId senderId) (sentAt chatId senderId 1 0) = [0, 0] := by
    have hstays : ¬ windowSeconds < 0 := not_lt.mpr hw
    rw [history, AList.lookup_insert]
    simp [Window.prune, FloodCall.time, sentAt, hstays]
  have halone : decisionsOf windowSeconds chatId senderId [sentAt chatId senderId 1 0] =
      [.pass] := by
    simp [decisionsOf, answersTo, transcript_cons (hhandle _), hown, hfirst]
  have hafter : decisionsOf windowSeconds chatId senderId
      [sentAt chatId' senderId' 1 0, sentAt chatId senderId 1 0] = [punished] := by
    have hfirst' : history windowSeconds ∅ (pairKey chatId senderId)
        (sentAt chatId' senderId' 1 0) = [0] := rfl
    simp [decisionsOf, answersTo, transcript_cons (hhandle _), transcript_cons (hhandle' _), hown,
      hother, hkey, hfirst', hsecond, -AList.insert_empty]
  intro hisolated
  rw [hisolated _ _ hparallel htext, hafter, List.cons.injEq] at halone
  exact hasks (halone.1 ▸ rfl)

end Ambiguous

/-! ## isolation -/

/-- **Who is isolated.**  If in two runs, with whatever ids, the pair's calls are the
same and only these are counted under its key, the decisions about them are the same.
And what others write, under ids that are strings, never matters to a pair if and only
if one of its ids is empty or no other pair has its key. -/
theorem flood_isolated_iff {windowSeconds : ℚ} (hw : 0 ≤ windowSeconds)
    (chatId senderId : String) :
    (∀ xs ys : List FloodCall,
      xs.filter (FloodCall.isOf chatId senderId) = ys.filter (FloodCall.isOf chatId senderId) →
      (∀ c ∈ xs ++ ys, c.key = some (pairKey chatId senderId) → c.isOf chatId senderId) →
      decisionsOf windowSeconds chatId senderId xs =
        decisionsOf windowSeconds chatId senderId ys) ∧
      (Isolated windowSeconds chatId senderId ↔
        chatId = "" ∨ senderId = "" ∨ Unambiguous chatId senderId) := by
  have hsame : ∀ xs ys : List FloodCall,
      xs.filter (FloodCall.isOf chatId senderId) = ys.filter (FloodCall.isOf chatId senderId) →
      (∀ c ∈ xs ++ ys, c.key = some (pairKey chatId senderId) → c.isOf chatId senderId) →
      decisionsOf windowSeconds chatId senderId xs =
        decisionsOf windowSeconds chatId senderId ys := by
    intro xs ys hown hkey
    rw [decisionsOf_eq fun c hc => hkey c (List.mem_append_left _ hc),
      decisionsOf_eq fun c hc => hkey c (List.mem_append_right _ hc), hown]
  refine ⟨hsame, fun hisolated => ?_, fun hclear xs ys hparallel htext => ?_⟩
  · by_contra hambiguous
    rw [not_or, not_or] at hambiguous
    obtain ⟨hchat, hsender, hother⟩ := hambiguous
    refine hother fun chatId' senderId' hchat' hsender' hkey => ?_
    by_contra hne
    exact not_isolated_of_pairKey_eq hw hchat hsender hchat' hsender' hkey hne hisolated
  · rw [← or_assoc] at hclear
    obtain hempty | hclear := hclear
    · rw [decisionsOf_eq_of_empty hempty, decisionsOf_eq_of_empty hempty, hparallel.same]
    · exact hsame xs ys hparallel.same fun c hc hkey => hclear.isOf_of_key (htext c hc) hkey

/-- Without colons in the ids, the member is isolated. -/
theorem isolated_member : Isolated 8 "chat" "member" :=
  (flood_isolated_iff (by decide) "chat" "member").2.mpr
    (.inr (.inr (unambiguous_of_no_colon (by decide) (by decide))))

/-- A member with a colon in the id is not: `"a"` and `"b:c"` have the key of `"a:b"`
and `"c"`. -/
theorem colonMember_not_isolated : ¬ Isolated 8 "a" "b:c" :=
  not_isolated_of_pairKey_eq (by decide) (by decide) (by decide)
    (show "a:b" ≠ "" by decide) (show "c" ≠ "" by decide) rfl (by decide)

end RubicaBot
