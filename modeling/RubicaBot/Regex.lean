/-!
# RubicaBot.Regex

Regular expressions with word boundaries, and the search for a match.

A position in a text is a `Cursor`: the character before it and the characters
after it, which is what a word boundary looks at.  `ends` lists the positions at
which a match that starts at a given one can end, over all ways of matching, so
whether there is a match does not depend on the order a backtracking engine
tries them in.
This module depends only on the Lean 4 core library.
-/

/-- A position in a text. -/
structure Cursor where
  before : Option Char
  after : List Char
  deriving DecidableEq

namespace Cursor

/-- Every position from `before` on, from left to right. -/
def positions (before : Option Char) : List Char → List Cursor
  | [] => [⟨before, []⟩]
  | c :: cs => ⟨before, c :: cs⟩ :: positions (some c) cs

/-- Exactly one of the characters around the position is a word character; the
ends of the text count as others. -/
def atBoundary (isWord : Char → Bool) (x : Cursor) : Bool :=
  x.before.any isWord != x.after.head?.any isWord

/-- The positions of a text see its suffixes. -/
theorem suffix_of_mem_positions {before : Option Char} {cs : List Char} {x : Cursor}
    (h : x ∈ positions before cs) : x.after <:+ cs := by
  induction cs generalizing before with
  | nil =>
      obtain rfl := List.mem_singleton.mp h
      exact List.suffix_rfl
  | cons c cs ih =>
      rcases List.mem_cons.mp h with rfl | h
      · exact List.suffix_rfl
      · exact (ih h).trans (List.suffix_cons c cs)

end Cursor

/-- An expression over the characters of a text and the places between them. -/
inductive Regex where
  | empty
  /-- One character of a class. -/
  | char (p : Char → Bool)
  /-- `\b`. -/
  | boundary
  | seq (r s : Regex)
  | alt (r s : Regex)
  | star (r : Regex)

namespace Regex

/-- `r+`. -/
def plus (r : Regex) : Regex := .seq r (.star r)

/-- `r?`. -/
def opt (r : Regex) : Regex := .alt r .empty

/-- The concatenation of `rs`. -/
def seqs : List Regex → Regex
  | [] => .empty
  | r :: rs => .seq r (seqs rs)

/-- One of `rs`; no match if there is none. -/
def alts : List Regex → Regex
  | [] => .char fun _ => false
  | r :: rs => .alt r (alts rs)

/-- Up to `fuel` rounds of `f`, each of which has to move on. -/
def rounds (f : Cursor → List Cursor) : Nat → Cursor → List Cursor
  | 0, x => [x]
  | fuel + 1, x =>
      x :: ((f x).filter fun y => y.after.length < x.after.length).flatMap (rounds f fuel)

/-- Where a match of the expression that starts at a position can end. -/
def ends (isWord : Char → Bool) : Regex → Cursor → List Cursor
  | .empty, x => [x]
  | .char p, x =>
      match x.after with
      | [] => []
      | c :: cs => if p c then [⟨some c, cs⟩] else []
  | .boundary, x => if x.atBoundary isWord then [x] else []
  | .seq r s, x => (ends isWord r x).flatMap (ends isWord s)
  | .alt r s, x => ends isWord r x ++ ends isWord s x
  | .star r, x => rounds (ends isWord r) x.after.length x

/-- Whether the expression matches somewhere in the text. -/
def search (isWord : Char → Bool) (r : Regex) (text : String) : Bool :=
  (Cursor.positions none text.toList).any fun x => !(ends isWord r x).isEmpty

/-! ## what a match reads -/

variable {isWord : Char → Bool}

/-- Rounds of a function that only moves on, only move on. -/
theorem rounds_suffix {f : Cursor → List Cursor} (hf : ∀ x, ∀ y ∈ f x, y.after <:+ x.after)
    {fuel : Nat} {x y : Cursor} (h : y ∈ rounds f fuel x) : y.after <:+ x.after := by
  induction fuel generalizing x with
  | zero =>
      obtain rfl := List.mem_singleton.mp h
      exact List.suffix_rfl
  | succ fuel ih =>
      rcases List.mem_cons.mp h with rfl | h
      · exact List.suffix_rfl
      · obtain ⟨m, hm, hy⟩ := List.mem_flatMap.mp h
        exact (ih hy).trans (hf x m (List.mem_filter.mp hm).1)

/-- A match leaves a suffix of what it starts at. -/
theorem ends_suffix {r : Regex} {x y : Cursor} (h : y ∈ ends isWord r x) :
    y.after <:+ x.after := by
  induction r generalizing x y with
  | empty =>
      obtain rfl := List.mem_singleton.mp h
      exact List.suffix_rfl
  | char p =>
      simp only [ends] at h
      split at h
      · cases h
      · next c cs hafter =>
          split at h
          · rw [List.mem_singleton.mp h, hafter]
            exact List.suffix_cons c cs
          · cases h
  | boundary =>
      simp only [ends] at h
      split at h
      · obtain rfl := List.mem_singleton.mp h
        exact List.suffix_rfl
      · cases h
  | seq r s ihr ihs =>
      obtain ⟨m, hm, hy⟩ := List.mem_flatMap.mp h
      exact (ihs hy).trans (ihr hm)
  | alt r s ihr ihs =>
      rcases List.mem_append.mp h with h | h
      · exact ihr h
      · exact ihs h
  | star r ih => exact rounds_suffix (fun _ _ hy => ih hy) h

/-- Every match reads a character that `p` accepts. -/
def Needs (p : Char → Bool) : Regex → Prop
  | .empty => False
  | .char q => ∀ c, q c = true → p c = true
  | .boundary => False
  | .seq r s => r.Needs p ∨ s.Needs p
  | .alt r s => r.Needs p ∧ s.Needs p
  | .star _ => False

/-- A choice needs what each of its branches needs. -/
theorem needs_alts {p : Char → Bool} {rs : List Regex} (h : ∀ r ∈ rs, r.Needs p) :
    (alts rs).Needs p := by
  induction rs with
  | nil =>
      intro c hc
      cases hc
  | cons r rs ih =>
      exact ⟨h r List.mem_cons_self, ih fun r hr => h r (List.mem_cons_of_mem _ hr)⟩

/-- There is such a character where the match starts or later. -/
theorem Needs.exists_of_ends {p : Char → Bool} {r : Regex} (hr : r.Needs p) {x y : Cursor}
    (h : y ∈ ends isWord r x) : ∃ c ∈ x.after, p c = true := by
  induction r generalizing x y with
  | empty => cases hr
  | char q =>
      simp only [ends] at h
      split at h
      · cases h
      · next c cs hafter =>
          split at h
          · next hq => exact ⟨c, by simp [hafter], hr c hq⟩
          · cases h
  | boundary => cases hr
  | seq r s ihr ihs =>
      obtain ⟨m, hm, hy⟩ := List.mem_flatMap.mp h
      rcases hr with hr | hs
      · exact ihr hr hm
      · obtain ⟨c, hc, hp⟩ := ihs hs hy
        exact ⟨c, (ends_suffix hm).mem hc, hp⟩
  | alt r s ihr ihs =>
      rcases List.mem_append.mp h with h | h
      · exact ihr hr.1 h
      · exact ihs hr.2 h
  | star r ih => cases hr

/-- A text with a match has such a character. -/
theorem Needs.exists_of_search {p : Char → Bool} {r : Regex} (hr : r.Needs p) {text : String}
    (h : search isWord r text = true) : ∃ c ∈ text.toList, p c = true := by
  obtain ⟨x, hx, hends⟩ := List.any_eq_true.mp h
  cases hy : ends isWord r x with
  | nil => simp [hy] at hends
  | cons y ys =>
      obtain ⟨c, hc, hp⟩ := hr.exists_of_ends (hy ▸ List.mem_cons_self)
      exact ⟨c, (Cursor.suffix_of_mem_positions hx).mem hc, hp⟩

end Regex
