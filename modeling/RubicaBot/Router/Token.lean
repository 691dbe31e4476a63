import RubicaBot.Plugins.Commands
import RubicaBot.Router.Reading

/-!
# RubicaBot.Router.Token

The command a text names, read twice: by the router, which strips the slashes
and then splits off a word, and by `CommandsPlugin`, which splits off a word and
then strips its slashes.

The router's reading raises on some texts and finds a word after the slash and a
space; but where the plugin finds a registered command the two agree, because no
command has an empty name (`commandToken_of_requested`).
-/

namespace RubicaBot

open Py

/-! ## the router's reading -/

/-- `text.lstrip("/").split(maxsplit=1)[0].lower()`. -/
def commandToken (u : Unicode) (s : String) : Except PyError String :=
  match splitOnce (lstrip (· == '/') s) with
  | [] => .error .indexError
  | word :: _ => .ok (u.lower word)

/-- `"http" in text or "t.me" in text or "rubika.ir" in text`. -/
def hasLinkText (s : String) : Bool :=
  contains s "http" || contains s "t.me" || contains s "rubika.ir"

/-- The priority of a text, by its command and its links. -/
theorem priorityOf_str (rt : Runtime) {s : String} (hs : s ≠ "") :
    priorityOf rt (.str s) = (commandToken rt.unicode s).map fun command =>
      if command ∈ adminCommands ∨ hasLinkText s = true then .high else .normal := by
  have htruthy : (PyVal.str s).truthy = true := by simpa [PyVal.truthy] using hs
  unfold priorityOf commandToken
  simp only [htruthy, if_true, PyVal.asStr, bind, Except.bind]
  cases hsplit : splitOnce (lstrip (· == '/') s) with
  | nil => rfl
  | cons word words =>
      by_cases hadmin : rt.unicode.lower word ∈ adminCommands
      · simp [hadmin, pure, Except.pure, Except.map]
      · by_cases hlink : hasLinkText s = true
        · have hlink' := hlink
          unfold hasLinkText at hlink'
          simp [hadmin, hlink, hlink', pure, Except.pure, Except.map]
        · have hlink' := hlink
          unfold hasLinkText at hlink'
          simp [hadmin, hlink, hlink', pure, Except.pure, Except.map]

/-- The router's word for the text is one of its admin commands. -/
def AdminToken (u : Unicode) (s : String) : Prop :=
  ∃ command ∈ adminCommands, commandToken u s = .ok command

/-- A text with a word has high priority for one of two reasons. -/
theorem priorityOf_eq_high_iff {rt : Runtime} {s command : String} (hs : s ≠ "")
    (htoken : commandToken rt.unicode s = .ok command) :
    priorityOf rt (.str s) = .ok .high ↔ hasLinkText s = true ∨ AdminToken rt.unicode s := by
  have hadmin : AdminToken rt.unicode s ↔ command ∈ adminCommands := by
    constructor
    · rintro ⟨command', hmem, htoken'⟩
      rw [htoken, Except.ok.injEq] at htoken'
      rwa [htoken']
    · exact fun hmem => ⟨command, hmem, htoken⟩
  rw [hadmin, priorityOf_str rt hs, htoken]
  constructor
  · intro hhigh
    by_contra hneither
    have hnot : ¬ (command ∈ adminCommands ∨ hasLinkText s = true) := fun h => hneither h.symm
    simp [Except.map, hnot] at hhigh
  · intro h
    simp [Except.map, h.symm]

/-- The text and the priority of a job. -/
theorem text_of_buildJob {rt : Runtime} {p : PyVal} {r : Request} {job : Job}
    (h : buildJob rt p r = .ok job) :
    job.text = Payload.text p ∧ priorityOf rt job.text = .ok job.priority := by
  obtain ⟨-, priority, hpriority, rfl⟩ := job_of_buildJob h
  exact ⟨rfl, hpriority⟩

/-- A text is given its priority whatever else the payload has. -/
theorem priority_of_buildJob {rt : Runtime} {p : PyVal} {r : Request} {job : Job} {s : String}
    {priority : JobPriority} (h : buildJob rt p r = .ok job) (htext : job.text = .str s)
    (hpriority : priorityOf rt (.str s) = .ok priority) : job.priority = priority := by
  have hread := (text_of_buildJob h).2
  rw [htext, hpriority, Except.ok.injEq] at hread
  exact hread.symm

/-- What the getters find in a message that is there is what the router reads. -/
theorem payload_text_of_getText {p m t : PyVal} (hextract : extractMessage p = .ok m)
    (hm : m.truthy = true) (hp : p.isDict = true) (htext : getText m = .ok t) :
    Payload.text p = t := by
  rw [extractMessage_of_isDict hp, Except.ok.injEq] at hextract
  have hmessage : Payload.message p = m := by
    unfold Payload.message
    rw [hextract, PyVal.or, if_pos hm]
  have hdict : m.isDict = true := by
    by_contra hnot
    rw [Bool.not_eq_true] at hnot
    simp only [getText, hm, if_true, PyVal.get_of_not_isDict hnot, bind, Except.bind] at htext
    cases htext
  rw [getText_of_isDict hdict, Except.ok.injEq] at htext
  rw [Payload.text, hmessage, htext]

/-! ## the plugin's reading -/

/-- **Inversion.**  A command that is requested: its text begins with a slash, and
the first word, without slashes and in lower case, is a registered name. -/
theorem requestedCommand_text {env : Env} {registry : CommandRegistry} {update : PyVal}
    {inv : Invocation} (h : requestedCommand env registry update = .ok (some inv)) :
    inv.message.truthy = true ∧ ∃ s word words, getText inv.message = .ok (.str s) ∧
      startsWith s "/" = true ∧ split (strip s) = word :: words ∧
      registry.get (env.unicode.lower (lstrip (· == '/') word)) = some inv.command := by
  simp only [requestedCommand, Effect.bind_eq_ok_iff, Effect.ite_none_eq_some_iff] at h
  obtain ⟨message, -, htruthy, t, htext, -, s, hs, hslash, h⟩ := h
  have ht : t = .str s := by
    cases t with
    | str s' =>
        cases hs
        rfl
    | _ => cases hs
  subst ht
  split at h
  · cases h
  · next word words hsplit =>
      split at h
      · cases h
      · next command hcommand =>
          cases h
          exact ⟨htruthy, s, word, words, htext, hslash, hsplit, hcommand⟩

/-! ## the two agree -/

/-- Dropping commutes with taking, where what is dropped would be taken. -/
theorem dropWhile_takeWhile {α : Type} {p q : α → Bool} (h : ∀ a, q a = true → p a = true)
    (l : List α) : (l.takeWhile p).dropWhile q = (l.dropWhile q).takeWhile p := by
  induction l with
  | nil => rfl
  | cons a l ih =>
      cases hq : q a with
      | true => simp [h a hq, hq, ih]
      | false =>
          cases hp : p a with
          | true => simp [hp, hq]
          | false => simp [hp, hq]

/-- **Agreement.**  For a text that begins with a slash, the plugin's first word
without its slashes is the word the router splits off, unless it is empty. -/
theorem commandToken_of_word (u : Unicode) {s word : String} {words : List String}
    (hslash : startsWith s "/" = true) (hsplit : split (strip s) = word :: words)
    (hne : lstrip (· == '/') word ≠ "") :
    commandToken u s = .ok (u.lower (lstrip (· == '/') word)) := by
  obtain ⟨rest, hs⟩ := List.isPrefixOf_iff_prefix.mp hslash
  have hs' : s.toList = '/' :: rest := hs.symm
  obtain ⟨_, hfirst⟩ := split_strip hs' (by decide)
  rw [hsplit, List.cons.injEq] at hfirst
  have hnospace : ∀ c : Char, (c == '/') = true → (!isSpace c) = true := by
    intro c hc
    rw [beq_iff_eq.mp hc]
    rfl
  have hword : lstrip (· == '/') word = String.ofList
      ((s.toList.dropWhile (· == '/')).takeWhile fun c => !isSpace c) := by
    rw [hfirst.1, lstrip, String.toList_ofList, dropWhile_takeWhile hnospace]
  rw [hword] at hne ⊢
  cases hrest : s.toList.dropWhile (· == '/') with
  | nil =>
      rw [hrest] at hne
      exact absurd rfl hne
  | cons c cs =>
      rw [hrest] at hne
      have hc : isSpace c = false := by
        by_contra hspace
        simp [hspace] at hne
      obtain ⟨_, honce⟩ := @splitOnce_ofList c cs hc
      rw [commandToken, lstrip, hrest, honce]

/-- No command of the startup is named by the empty text. -/
theorem startupRegistry_name_ne_empty :
    ∀ command ∈ startupRegistry.commands, command.name ≠ "" := by
  simp [startupRegistry_commands, startupCommands]

/-- The router knows every command that is for admins. -/
theorem startupRegistry_adminOnly :
    ∀ command ∈ startupRegistry.commands, command.adminOnly = true →
      command.name ∈ adminCommands := by
  simp [startupRegistry_commands, startupCommands, adminCommands]

/-- **One reading.**  Where `CommandsPlugin` resolves a command of the startup, the
router computes its name from the same text, and a command for admins gets
the high priority. -/
theorem commandToken_of_requested {env : Env} {rt : Runtime} (hunicode : env.unicode = rt.unicode)
    {update : PyVal} {inv : Invocation}
    (h : requestedCommand env startupRegistry update = .ok (some inv)) :
    ∃ s, getText inv.message = .ok (.str s) ∧
      commandToken rt.unicode s = .ok inv.command.name ∧
      (inv.command.adminOnly = true → priorityOf rt (.str s) = .ok .high) ∧
      ∀ r job, buildJob rt update r = .ok job → job.text = .str s ∧
        (inv.command.adminOnly = true → job.priority = .high) := by
  obtain ⟨hmem, hextract⟩ := requestedCommand_eq_some h
  obtain ⟨htruthy, s, word, words, htext, hslash, hsplit, hget⟩ := requestedCommand_text h
  obtain ⟨-, hname⟩ := CommandRegistryOf.get_eq_some hget
  have hne : lstrip (· == '/') word ≠ "" := by
    intro hempty
    rw [hempty, Unicode.lower_empty] at hname
    exact startupRegistry_name_ne_empty _ hmem hname
  have htoken : commandToken rt.unicode s = .ok inv.command.name := by
    rw [commandToken_of_word _ hslash hsplit hne, ← hunicode, hname]
  have hs : s ≠ "" := by
    intro hempty
    subst hempty
    cases hslash
  have hhigh : inv.command.adminOnly = true → priorityOf rt (.str s) = .ok .high := by
    intro hadmin
    have hin := startupRegistry_adminOnly _ hmem hadmin
    exact (priorityOf_eq_high_iff hs htoken).mpr (.inr ⟨_, hin, htoken⟩)
  refine ⟨s, htext, htoken, hhigh, fun r job hjob => ?_⟩
  have hread : job.text = .str s := by
    rw [(text_of_buildJob hjob).1]
    exact payload_text_of_getText hextract htruthy (readable_of_buildJob hjob).payload htext
  exact ⟨hread, fun hadmin => priority_of_buildJob hjob hread (hhigh hadmin)⟩

/-- A ban with two slashes and in capitals. -/
theorem ban_one_reading :
    ∃ s, commandToken Runtime.plain.unicode s = .ok "ban" ∧
      priorityOf .plain (.str s) = .ok .high := by
  have hrequested : requestedCommand Env.plain startupRegistry
      (.dict [("message", .dict [("text", .str "//BAN  u1")])]) =
      .ok (some ⟨⟨"ban", "بن کاربر", banHandler, true⟩,
        .dict [("text", .str "//BAN  u1")], ["u1"]⟩) := rfl
  obtain ⟨s, -, htoken, hhigh, -⟩ :=
    @commandToken_of_requested .plain .plain rfl _ _ hrequested
  exact ⟨s, htoken, hhigh rfl⟩

end RubicaBot
