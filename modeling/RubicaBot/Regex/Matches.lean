import RubicaBot.Regex

/-!
# RubicaBot.Regex.Matches

What a match reads, as a relation: an expression matches a word between the
character before it and the character after it, and nothing else of the text
matters.

* `mem_ends_iff` — `ends` finds the matches of the relation, all of them;
* `search_iff` — a search succeeds iff a part of the text is a match;
* `Matches.in_context` — a match stays one between other characters, if they are
  word characters where the old ones were, or if no boundary is tested.

This module depends only on the Lean 4 core library.
-/

namespace Regex

/-- The expression matches a word that stands between two characters, or at an
end of the text. -/
inductive Matches (isWord : Char → Bool) :
    Regex → Option Char → List Char → Option Char → Prop
  | empty {b a : Option Char} : Matches isWord .empty b [] a
  | char {p : Char → Bool} {b a : Option Char} {c : Char} (hc : p c = true) :
      Matches isWord (.char p) b [c] a
  | boundary {b a : Option Char} (hedge : b.any isWord ≠ a.any isWord) :
      Matches isWord .boundary b [] a
  | seq {r s : Regex} {b a : Option Char} {v w : List Char}
      (hr : Matches isWord r b v (w.head?.or a))
      (hs : Matches isWord s (v.getLast?.or b) w a) : Matches isWord (.seq r s) b (v ++ w) a
  | left {r s : Regex} {b a : Option Char} {w : List Char} (hr : Matches isWord r b w a) :
      Matches isWord (.alt r s) b w a
  | right {r s : Regex} {b a : Option Char} {w : List Char} (hs : Matches isWord s b w a) :
      Matches isWord (.alt r s) b w a
  | done {r : Regex} {b a : Option Char} : Matches isWord (.star r) b [] a
  | round {r : Regex} {b a : Option Char} {v w : List Char} (hv : v ≠ [])
      (hr : Matches isWord r b v (w.head?.or a))
      (hs : Matches isWord (.star r) (v.getLast?.or b) w a) :
      Matches isWord (.star r) b (v ++ w) a

variable {isWord : Char → Bool} {r s : Regex} {b a : Option Char} {w : List Char}

/-! ## the search finds the matches -/

/-- A position some characters further on. -/
def Reaches (x : Cursor) (w : List Char) (y : Cursor) : Prop :=
  x.after = w ++ y.after ∧ y.before = w.getLast?.or x.before

/-- Nothing is read. -/
theorem Reaches.refl (x : Cursor) : Reaches x [] x := ⟨rfl, by cases x.before <;> rfl⟩

/-- The next character is in what is read, or comes after it. -/
theorem Reaches.head? {x y : Cursor} (h : Reaches x w y) :
    x.after.head? = w.head?.or y.after.head? := by
  rw [h.1, List.head?_append]

/-- One part after the other. -/
theorem Reaches.trans {x m y : Cursor} {v : List Char} (hv : Reaches x v m) (hw : Reaches m w y) :
    Reaches x (v ++ w) y := by
  constructor
  · rw [hv.1, hw.1, List.append_assoc]
  · rw [hw.2, hv.2, List.getLast?_append, Option.or_assoc]

/-- From a position, the text before and after it. -/
theorem mem_positions_iff {before : Option Char} {cs : List Char} {x : Cursor} :
    x ∈ Cursor.positions before cs ↔ ∃ p, Reaches ⟨before, cs⟩ p x := by
  induction cs generalizing before with
  | nil =>
      constructor
      · intro h
        obtain rfl := List.mem_singleton.mp h
        exact ⟨[], .refl _⟩
      · rintro ⟨p, hafter, hbefore⟩
        obtain ⟨rfl, hx⟩ := List.nil_eq_append_iff.mp hafter
        obtain ⟨xb, xa⟩ := x
        simp_all [Cursor.positions]
  | cons c cs ih =>
      constructor
      · intro h
        rcases List.mem_cons.mp h with rfl | h
        · exact ⟨[], .refl _⟩
        · obtain ⟨p, hp⟩ := ih.mp h
          exact ⟨[c] ++ p, Reaches.trans (m := ⟨some c, cs⟩) ⟨rfl, rfl⟩ hp⟩
      · rintro ⟨p, hafter, hbefore⟩
        cases p with
        | nil =>
            obtain ⟨xb, xa⟩ := x
            simp_all [Cursor.positions]
        | cons d p =>
            obtain ⟨rfl, hcs⟩ := List.cons.inj hafter
            refine List.mem_cons_of_mem _ (ih.mpr ⟨p, hcs, ?_⟩)
            rw [hbefore]
            cases hp : p.getLast? <;> simp_all [List.getLast?_cons]

/-- Rounds are the rounds of a repetition, if each of them is a match. -/
theorem exists_matches_of_mem_rounds {f : Cursor → List Cursor}
    (hf : ∀ x, ∀ y ∈ f x, ∃ w, Reaches x w y ∧ Matches isWord r x.before w y.after.head?)
    {fuel : Nat} {x y : Cursor} (h : y ∈ rounds f fuel x) :
    ∃ w, Reaches x w y ∧ Matches isWord (.star r) x.before w y.after.head? := by
  induction fuel generalizing x with
  | zero =>
      obtain rfl := List.mem_singleton.mp h
      exact ⟨[], .refl _, .done⟩
  | succ fuel ih =>
      rcases List.mem_cons.mp h with rfl | h
      · exact ⟨[], .refl _, .done⟩
      · obtain ⟨m, hm, hy⟩ := List.mem_flatMap.mp h
        obtain ⟨hmem, hmoves⟩ := List.mem_filter.mp hm
        obtain ⟨v, hv, hmatch⟩ := hf x m hmem
        obtain ⟨w, hw, hrest⟩ := ih hy
        have hne : v ≠ [] := by
          rintro rfl
          simp [hv.1] at hmoves
        rw [hw.head?] at hmatch
        rw [hv.2] at hrest
        exact ⟨v ++ w, hv.trans hw, .round hne hmatch hrest⟩

/-- Every end that is found is the end of a match. -/
theorem exists_matches_of_mem_ends {x y : Cursor} (h : y ∈ ends isWord r x) :
    ∃ w, Reaches x w y ∧ Matches isWord r x.before w y.after.head? := by
  induction r generalizing x y with
  | empty =>
      obtain rfl := List.mem_singleton.mp h
      exact ⟨[], .refl _, .empty⟩
  | char p =>
      simp only [ends] at h
      split at h
      · cases h
      · next c cs hafter =>
          split at h
          · next hc =>
              obtain rfl := List.mem_singleton.mp h
              exact ⟨[c], ⟨hafter, rfl⟩, .char hc⟩
          · cases h
  | boundary =>
      simp only [ends] at h
      split at h
      · next hedge =>
          obtain rfl := List.mem_singleton.mp h
          exact ⟨[], .refl _, .boundary (bne_iff_ne.mp hedge)⟩
      · cases h
  | seq r s ihr ihs =>
      obtain ⟨m, hm, hy⟩ := List.mem_flatMap.mp h
      obtain ⟨v, hv, hr⟩ := ihr hm
      obtain ⟨w, hw, hs⟩ := ihs hy
      rw [hw.head?] at hr
      rw [hv.2] at hs
      exact ⟨v ++ w, hv.trans hw, .seq hr hs⟩
  | alt r s ihr ihs =>
      rcases List.mem_append.mp h with h | h
      · obtain ⟨w, hw, hr⟩ := ihr h
        exact ⟨w, hw, .left hr⟩
      · obtain ⟨w, hw, hs⟩ := ihs h
        exact ⟨w, hw, .right hs⟩
  | star r ih => exact exists_matches_of_mem_rounds (fun _ _ hy => ih hy) h

/-- More fuel loses nothing. -/
theorem rounds_mono {f : Cursor → List Cursor} {fuel more : Nat} (hle : fuel ≤ more) {x y : Cursor}
    (h : y ∈ rounds f fuel x) : y ∈ rounds f more x := by
  induction fuel generalizing more x with
  | zero =>
      obtain rfl := List.mem_singleton.mp h
      cases more <;> exact List.mem_cons_self
  | succ fuel ih =>
      obtain ⟨more, rfl⟩ : ∃ k, more = k + 1 := ⟨more - 1, by omega⟩
      rcases List.mem_cons.mp h with rfl | h
      · exact List.mem_cons_self
      · obtain ⟨m, hm, hy⟩ := List.mem_flatMap.mp h
        exact List.mem_cons_of_mem _ (List.mem_flatMap.mpr ⟨m, hm, ih (by omega) hy⟩)

/-- Every match is found, wherever it stands in a text. -/
theorem Matches.mem_ends (h : Matches isWord r b w a) {q : List Char} (ha : q.head? = a) :
    ⟨w.getLast?.or b, q⟩ ∈ ends isWord r ⟨b, w ++ q⟩ := by
  induction h generalizing q with
  | @empty b => cases b <;> exact List.mem_singleton_self _
  | char hc => simp [ends, hc]
  | @boundary b a hedge =>
      subst ha
      have hbnd : Cursor.atBoundary isWord ⟨b, q⟩ = true := bne_iff_ne.mpr hedge
      cases b <;> simp [ends, hbnd]
  | @seq r s b a v w hr hs ihr ihs =>
      have hv := ihr (q := w ++ q) (by rw [List.head?_append, ha])
      have hw := ihs ha
      rw [← Option.or_assoc, ← List.getLast?_append] at hw
      rw [List.append_assoc]
      exact List.mem_flatMap.mpr ⟨_, hv, hw⟩
  | left hr ih => exact List.mem_append_left _ (ih ha)
  | right hs ih => exact List.mem_append_right _ (ih ha)
  | @done r b a =>
      have hself : (⟨b, q⟩ : Cursor) ∈ rounds (ends isWord r) q.length ⟨b, q⟩ := by
        cases q <;> exact List.mem_cons_self
      cases b <;> exact hself
  | @round r b a v w hne hr hs ihr ihs =>
      have hv := ihr (q := w ++ q) (by rw [List.head?_append, ha])
      have hw : (⟨w.getLast?.or (v.getLast?.or b), q⟩ : Cursor) ∈
          rounds (ends isWord r) (w ++ q).length ⟨v.getLast?.or b, w ++ q⟩ := ihs ha
      rw [← Option.or_assoc, ← List.getLast?_append] at hw
      obtain ⟨c, v, rfl⟩ := List.exists_cons_of_ne_nil hne
      rw [List.append_assoc]
      have hmoves : (w ++ q).length < (c :: v ++ (w ++ q)).length := by
        simp only [List.length_append, List.length_cons]
        omega
      -- the round itself costs one unit of fuel, and it reads at least one character
      refine List.mem_cons_of_mem _ (List.mem_flatMap.mpr ⟨_, List.mem_filter.mpr ⟨hv, ?_⟩, ?_⟩)
      · exact decide_eq_true hmoves
      · exact rounds_mono (by simp) hw

/-- `ends` finds the ends of all matches and no other position. -/
theorem mem_ends_iff {x y : Cursor} : y ∈ ends isWord r x ↔
    ∃ w, Reaches x w y ∧ Matches isWord r x.before w y.after.head? := by
  constructor
  · exact exists_matches_of_mem_ends
  · rintro ⟨w, ⟨hafter, hbefore⟩, h⟩
    obtain ⟨xb, xa⟩ := x
    obtain ⟨yb, ya⟩ := y
    obtain rfl : xa = w ++ ya := hafter
    obtain rfl : yb = w.getLast?.or xb := hbefore
    exact h.mem_ends rfl

/-- A search succeeds iff a part of the text is a match. -/
theorem search_iff {text : String} : search isWord r text = true ↔
    ∃ p w q, text.toList = p ++ w ++ q ∧ Matches isWord r p.getLast? w q.head? := by
  constructor
  · intro h
    obtain ⟨x, hx, hends⟩ := List.any_eq_true.mp h
    obtain ⟨p, hp⟩ := mem_positions_iff.mp hx
    cases hy : ends isWord r x with
    | nil => simp [hy] at hends
    | cons y ys =>
        obtain ⟨w, hw, hmatch⟩ := mem_ends_iff.mp (hy ▸ List.mem_cons_self : y ∈ ends isWord r x)
        refine ⟨p, w, y.after, (hp.trans hw).1, ?_⟩
        rwa [hp.2, Option.or_none] at hmatch
  · rintro ⟨p, w, q, htext, hmatch⟩
    refine List.any_eq_true.mpr ⟨⟨p.getLast?, w ++ q⟩, mem_positions_iff.mpr ⟨p, ?_⟩, ?_⟩
    · exact ⟨by rw [htext, List.append_assoc], (Option.or_none).symm⟩
    · have hmem := hmatch.mem_ends (q := q) rfl
      simp [List.ne_nil_of_mem hmem]

/-! ## what surrounds a match -/

/-- No boundary is tested. -/
def Plain : Regex → Prop
  | .empty => True
  | .char _ => True
  | .boundary => False
  | .seq r s => r.Plain ∧ s.Plain
  | .alt r s => r.Plain ∧ s.Plain
  | .star r => r.Plain

/-- A sequence of plain expressions. -/
theorem plain_seqs {rs : List Regex} (h : ∀ r ∈ rs, r.Plain) : (seqs rs).Plain := by
  induction rs with
  | nil => trivial
  | cons r rs ih => exact ⟨h r List.mem_cons_self, ih fun r hr => h r (List.mem_cons_of_mem _ hr)⟩

/-- Alternatives of plain expressions. -/
theorem plain_alts {rs : List Regex} (h : ∀ r ∈ rs, r.Plain) : (alts rs).Plain := by
  induction rs with
  | nil => trivial
  | cons r rs ih => exact ⟨h r List.mem_cons_self, ih fun r hr => h r (List.mem_cons_of_mem _ hr)⟩

/-- Between other characters a match stays one, if no boundary is tested. -/
theorem Matches.of_plain (h : Matches isWord r b w a) (hr : r.Plain) (b' a' : Option Char) :
    Matches isWord r b' w a' := by
  induction h generalizing b' a' with
  | empty => exact .empty
  | char hc => exact .char hc
  | boundary => cases hr
  | seq _ _ ihr ihs => exact .seq (ihr hr.1 _ _) (ihs hr.2 _ _)
  | left _ ih => exact .left (ih hr.1 _ _)
  | right _ ih => exact .right (ih hr.2 _ _)
  | done => exact .done
  | round hv _ _ ihr ihs => exact .round hv (ihr hr _ _) (ihs hr _ _)

/-- So it does, if they are word characters exactly where the old ones were. -/
theorem Matches.in_context (h : Matches isWord r b w a) {b' a' : Option Char}
    (hb : b'.any isWord = b.any isWord) (ha : a'.any isWord = a.any isWord) :
    Matches isWord r b' w a' := by
  induction h generalizing b' a' with
  | empty => exact .empty
  | char hc => exact .char hc
  | boundary hedge => exact .boundary (by rwa [hb, ha])
  | @seq _ _ _ _ v w _ _ ihr ihs =>
      refine .seq (ihr hb ?_) (ihs ?_ ha)
      · cases w <;> simp [ha]
      · cases v.getLast? <;> simp [hb]
  | left _ ih => exact .left (ih hb ha)
  | right _ ih => exact .right (ih hb ha)
  | done => exact .done
  | @round _ _ _ v w hv _ _ ihr ihs =>
      refine .round hv (ihr hb ?_) (ihs ?_ ha)
      · cases w <;> simp [ha]
      · cases v.getLast? <;> simp [hb]

/-! ## what a match reads -/

/-- Only characters that `p` accepts are read. -/
def Reads (p : Char → Bool) : Regex → Prop
  | .empty => True
  | .char q => ∀ c, q c = true → p c = true
  | .boundary => True
  | .seq r s => r.Reads p ∧ s.Reads p
  | .alt r s => r.Reads p ∧ s.Reads p
  | .star r => r.Reads p

/-- A sequence reads what its parts read. -/
theorem reads_seqs {p : Char → Bool} {rs : List Regex} (h : ∀ r ∈ rs, r.Reads p) :
    (seqs rs).Reads p := by
  induction rs with
  | nil => trivial
  | cons r rs ih => exact ⟨h r List.mem_cons_self, ih fun r hr => h r (List.mem_cons_of_mem _ hr)⟩

/-- So do alternatives. -/
theorem reads_alts {p : Char → Bool} {rs : List Regex} (h : ∀ r ∈ rs, r.Reads p) :
    (alts rs).Reads p := by
  induction rs with
  | nil =>
      intro c hc
      cases hc
  | cons r rs ih => exact ⟨h r List.mem_cons_self, ih fun r hr => h r (List.mem_cons_of_mem _ hr)⟩

/-- A match has only characters that the expression reads. -/
theorem Matches.reads {p : Char → Bool} (h : Matches isWord r b w a) (hr : r.Reads p) :
    ∀ c ∈ w, p c = true := by
  induction h with
  | empty => simp
  | char hc => simpa using hr _ hc
  | boundary => simp
  | seq _ _ ihr ihs =>
      intro c hc
      exact (List.mem_append.mp hc).elim (ihr hr.1 c) (ihs hr.2 c)
  | left _ ih => exact ih hr.1
  | right _ ih => exact ih hr.2
  | done => simp
  | round _ _ _ ihr ihs =>
      intro c hc
      exact (List.mem_append.mp hc).elim (ihr hr c) (ihs hr c)

/-- A match of an expression that needs a character reads one. -/
theorem Matches.ne_nil {p : Char → Bool} (h : Matches isWord r b w a) (hr : r.Needs p) :
    w ≠ [] := by
  induction h with
  | empty => cases hr
  | char => simp
  | boundary => cases hr
  | seq _ _ ihr ihs =>
      rcases hr with hr | hs
      · simp [ihr hr]
      · simp [ihs hs]
  | left _ ih => exact ih hr.1
  | right _ ih => exact ih hr.2
  | done => cases hr
  | round => cases hr

/-! ## the forms of a match -/

/-- One character of the class. -/
theorem matches_char_iff {p : Char → Bool} :
    Matches isWord (.char p) b w a ↔ ∃ c, p c = true ∧ w = [c] := by
  constructor
  · rintro ⟨⟩
    exact ⟨_, ‹_›, rfl⟩
  · rintro ⟨c, hc, rfl⟩
    exact .char hc

/-- Nothing, where exactly one of the sides is a word character. -/
theorem matches_boundary_iff :
    Matches isWord .boundary b w a ↔ w = [] ∧ b.any isWord ≠ a.any isWord := by
  constructor
  · rintro ⟨⟩
    exact ⟨rfl, ‹_›⟩
  · rintro ⟨rfl, hedge⟩
    exact .boundary hedge

/-- One part after the other. -/
theorem matches_seq_iff : Matches isWord (.seq r s) b w a ↔
    ∃ v z, w = v ++ z ∧ Matches isWord r b v (z.head?.or a) ∧
      Matches isWord s (v.getLast?.or b) z a := by
  constructor
  · rintro ⟨⟩
    exact ⟨_, _, rfl, ‹_›, ‹_›⟩
  · rintro ⟨v, z, rfl, hr, hs⟩
    exact .seq hr hs

/-- One or the other. -/
theorem matches_alt_iff : Matches isWord (.alt r s) b w a ↔
    Matches isWord r b w a ∨ Matches isWord s b w a := by
  constructor
  · rintro ⟨⟩
    · exact .inl ‹_›
    · exact .inr ‹_›
  · rintro (h | h)
    · exact .left h
    · exact .right h

/-- A choice matches what one of its branches does. -/
theorem matches_alts_iff {rs : List Regex} :
    Matches isWord (alts rs) b w a ↔ ∃ r ∈ rs, Matches isWord r b w a := by
  induction rs with
  | nil => simp [alts, matches_char_iff]
  | cons r rs ih => simp [alts, matches_alt_iff, ih]

end Regex
