import Mathlib.Data.List.Perm.Subperm

/-!
# RubicaBot.TwoClass

The abstract two-class queue: one list for each of two classes, oldest element
first.  `pop` serves the high class before the normal one, `shed` gives up an
element of the normal class before one of the high class.

`contents` lists what waits, high class first; every operation is described by
what it does to `contents`, up to a permutation, and to its length.
-/

/-- The elements that wait, by class. -/
structure TwoClass (α : Type) where
  high : List α := []
  normal : List α := []

namespace TwoClass

variable {α : Type}

/-- All that waits, the high class first. -/
def contents (b : TwoClass α) : List α := b.high ++ b.normal

/-- How many wait. -/
def backlog (b : TwoClass α) : Nat := b.high.length + b.normal.length

/-- A new element goes to the end of its class. -/
def push (b : TwoClass α) (urgent : Bool) (x : α) : TwoClass α :=
  if urgent then { b with high := b.high ++ [x] } else { b with normal := b.normal ++ [x] }

/-- The oldest element of the high class if there is one, else of the normal class. -/
def pop (b : TwoClass α) : Option (α × TwoClass α) :=
  match b.high, b.normal with
  | x :: high, _ => some (x, { b with high := high })
  | [], x :: normal => some (x, { b with normal := normal })
  | [], [] => none

/-- The oldest element of the normal class if there is one, else of the high class. -/
def shed (b : TwoClass α) : Option (α × TwoClass α) :=
  match b.normal, b.high with
  | x :: normal, _ => some (x, { b with normal := normal })
  | [], x :: high => some (x, { b with high := high })
  | [], [] => none

/-- The backlog is what waits. -/
theorem length_contents (b : TwoClass α) : b.contents.length = b.backlog :=
  List.length_append

@[simp] theorem backlog_push (b : TwoClass α) (urgent : Bool) (x : α) :
    (b.push urgent x).backlog = b.backlog + 1 := by
  unfold push backlog
  cases urgent <;> simp <;> omega

/-- What is pushed waits. -/
theorem contents_push (b : TwoClass α) (urgent : Bool) (x : α) :
    (b.push urgent x).contents.Perm (x :: b.contents) := by
  unfold push contents
  cases urgent with
  | true =>
      simp only [if_true, List.append_assoc]
      exact List.perm_middle
  | false =>
      simp only [Bool.false_eq_true, if_false, ← List.append_assoc]
      exact List.perm_append_singleton _ _

/-- What is popped is the first to wait. -/
theorem contents_pop {b b' : TwoClass α} {x : α} (h : b.pop = some (x, b')) :
    b.contents = x :: b'.contents := by
  obtain ⟨high, normal⟩ := b
  cases high with
  | cons y high =>
      simp only [pop, Option.some.injEq, Prod.mk.injEq] at h
      obtain ⟨rfl, rfl⟩ := h
      rfl
  | nil =>
      cases normal with
      | cons y normal =>
          simp only [pop, Option.some.injEq, Prod.mk.injEq] at h
          obtain ⟨rfl, rfl⟩ := h
          rfl
      | nil => simp [pop] at h

/-- What is shed has waited. -/
theorem contents_shed {b b' : TwoClass α} {x : α} (h : b.shed = some (x, b')) :
    b.contents.Perm (x :: b'.contents) := by
  obtain ⟨high, normal⟩ := b
  cases normal with
  | cons y normal =>
      simp only [shed, Option.some.injEq, Prod.mk.injEq] at h
      obtain ⟨rfl, rfl⟩ := h
      exact List.perm_middle
  | nil =>
      cases high with
      | cons y high =>
          simp only [shed, Option.some.injEq, Prod.mk.injEq] at h
          obtain ⟨rfl, rfl⟩ := h
          simp [contents]
      | nil => simp [shed] at h

/-- One fewer waits. -/
theorem backlog_pop {b b' : TwoClass α} {x : α} (h : b.pop = some (x, b')) :
    b.backlog = b'.backlog + 1 := by
  rw [← length_contents, ← length_contents, contents_pop h, List.length_cons]

/-- One fewer waits. -/
theorem backlog_shed {b b' : TwoClass α} {x : α} (h : b.shed = some (x, b')) :
    b.backlog = b'.backlog + 1 := by
  rw [← length_contents, ← length_contents, (contents_shed h).length_eq, List.length_cons]

/-- Only an empty queue has nothing to give up. -/
theorem shed_eq_none_iff (b : TwoClass α) : b.shed = none ↔ b.backlog = 0 := by
  obtain ⟨high, normal⟩ := b
  cases normal <;> cases high <;> simp [shed, backlog]

end TwoClass
