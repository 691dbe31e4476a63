import RubicaBot.Link
import RubicaBot.Queue.Placement
import RubicaBot.Router.Token

/-!
# RubicaBot.Router.FastPath

The router's test for links against the moderator's pattern.

Messages with a link are meant to overtake: the router looks for three texts in
them, `http`, `t.me` and `rubika.ir`.  The pattern of `contains_link` knows more
hosts, ignores case and accepts any domain under seventeen suffixes, so a link
takes the fast path only if it happens to contain one of the three texts or to
come in an admin command (`fastPath_iff`).  What the router does do for every
link is not to raise: a link has a character that is neither a slash nor a
space, so there is a word to read the command from.
-/

namespace RubicaBot

open Py Transition

/-- A text that is only slashes and white space has no word. -/
theorem commandToken_isOk_iff (u : Unicode) (s : String) :
    (∃ command, commandToken u s = .ok command) ↔ ¬ Wordless s := by
  rw [← splitOnce_eq_nil_iff]
  unfold commandToken
  split
  · next hsplit => simp [hsplit]
  · next word words hsplit => simp [hsplit]

/-- Slashes and spaces are not solid. -/
theorem Wordless.not_isSolid {s : String} (h : Wordless s) : ∀ c ∈ s.toList, isSolid c = false := by
  intro c hc
  rw [← List.takeWhile_append_dropWhile (p := (· == '/')) (l := s.toList), List.mem_append] at hc
  rcases hc with hc | hc
  · have hslash : c = '/' := by simpa using List.mem_takeWhile_imp hc
    rw [hslash]
    rfl
  · have hspace : isSpace c = true := List.dropWhile_eq_nil_iff.mp h c hc
    simp [isSolid, hspace]

/-- **No link is unreadable.**  The router finds a command token in it. -/
theorem commandToken_of_containsLink {u : Unicode} {s : String}
    (h : containsLink u (.str s) = .ok true) : ∃ command, commandToken u s = .ok command := by
  rw [commandToken_isOk_iff]
  intro hwordless
  obtain ⟨c, hc, hsolid⟩ := exists_isSolid_of_containsLink h
  rw [hwordless.not_isSolid c hc] at hsolid
  cases hsolid

/-- The job of a text is built with high priority, whatever else its update
carries, and under `drop_oldest` it is no victim while a normal job waits. -/
structure FastPath (rt : Runtime) (s : String) : Prop where
  readable : priorityOf rt (.str s) = .ok .high
  high : ∀ p r job, buildJob rt p r = .ok job → job.text = .str s → job.priority = .high
  kept : ∀ n maxSize ttl (ls : List Label) (l : Loop),
    (∀ job now, Label.enqueue job now ∈ ls → ∃ p r, buildJob rt p r = .ok job) →
    run Loop.step (Loop.init n maxSize "drop_oldest" ttl) ls = some l →
    ∀ job, l.queue.victim = some (some job) → job.text = .str s → l.queue.normalQueue.items = []

/-- **The fast path.**  A link takes it exactly when one of the three texts is in
it or it comes in an admin command. -/
theorem fastPath_iff {rt : Runtime} {s : String}
    (hlink : containsLink rt.unicode (.str s) = .ok true) :
    FastPath rt s ↔ hasLinkText s = true ∨ AdminToken rt.unicode s := by
  obtain ⟨command, htoken⟩ := commandToken_of_containsLink hlink
  have hs : s ≠ "" := by
    rintro rfl
    cases hlink
  rw [← priorityOf_eq_high_iff hs htoken]
  constructor
  · exact fun hfast => hfast.readable
  · intro hhigh
    have hjob (p : PyVal) (r : Request) (job : Job) (hbuild : buildJob rt p r = .ok job)
        (htext : job.text = .str s) : job.priority = .high :=
      priority_of_buildJob hbuild htext hhigh
    refine ⟨hhigh, hjob, fun n maxSize ttl ls l hls hrun job hvictim htext => ?_⟩
    have hplaced := Loop.run_placed (Loop.init_placed _ n maxSize "drop_oldest" ttl) hls hrun
    obtain ⟨⟨p, r, hbuild⟩, hkept⟩ := hplaced.queue.victim hvictim
    exact hkept (hjob p r job hbuild htext)

/-- A link to the web takes the fast path. -/
theorem http_fastPath : FastPath .plain "see http://a.b" :=
  (fastPath_iff (by decide +kernel)).mpr (.inl (by decide +kernel))

/-- A bare domain does not, nor does a scheme in capitals. -/
theorem domain_not_fastPath :
    (containsLink Runtime.plain.unicode (.str "example.com") = .ok true ∧
        ¬ FastPath .plain "example.com") ∧
      containsLink Runtime.plain.unicode (.str "HTTPS://A") = .ok true ∧
        ¬ FastPath .plain "HTTPS://A" := by
  have hnormal : priorityOf .plain (.str "example.com") = .ok .normal := by decide +kernel
  have hcapitals : priorityOf .plain (.str "HTTPS://A") = .ok .normal := by decide +kernel
  refine ⟨⟨by decide +kernel, fun h => ?_⟩, by decide +kernel, fun h => ?_⟩
  · have hhigh := h.readable
    rw [hnormal] at hhigh
    cases hhigh
  · have hhigh := h.readable
    rw [hcapitals] at hhigh
    cases hhigh

end RubicaBot
