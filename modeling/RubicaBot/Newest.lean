import Mathlib.Data.List.Count
import Mathlib.Data.List.Sort
import Mathlib.Data.List.Nodup

/-!
# RubicaBot.Newest

Keeping the newest rows of each group.

Rows belong to groups and carry a stamp from a linear order; no two have the same.
`newer` counts the rows of its group that are newer than a row, so the `n` newest of
each group are a filter (`newest`), and so are those of one group: they are what is at
the front when the group is sorted (`take_descending`).  Whatever is kept keeps its place:
as none of the rows newer than it goes, its count stays what it was (`newer_newest`).
-/

namespace Newest

variable {ρ κ ι : Type} [DecidableEq κ] [LinearOrder ι] (group : ρ → κ) (stamp : ρ → ι)

/-- The row `r'` is of the same group, and newer. -/
def isNewer (r r' : ρ) : Bool := decide (group r' = group r ∧ stamp r < stamp r')

/-- How many rows of its group are newer. -/
def newer (rows : List ρ) (r : ρ) : Nat := rows.countP (isNewer group stamp r)

/-- The `n` newest rows of each group. -/
def newest (n : Nat) (rows : List ρ) : List ρ :=
  rows.filter fun r => decide (newer group stamp rows r < n)

/-- `ORDER BY stamp DESC`. -/
def descending (rows : List ρ) : List ρ := rows.mergeSort fun r r' => decide (stamp r' ≤ stamp r)

/-- The newest rows of the groups `ks`, and all rows of the others. -/
def newestOf (n : Nat) (ks : List κ) (rows : List ρ) : List ρ :=
  rows.filter fun r => decide (group r ∈ ks → newer group stamp rows r < n)

/-- No two rows have the same stamp. -/
def Distinct (rows : List ρ) : Prop := (rows.map stamp).Nodup

/-- The newest is the first. -/
def Descends (rows : List ρ) : Prop := rows.Pairwise fun r r' => stamp r' < stamp r

variable {group stamp} {rows rows' : List ρ} {n m : Nat}

/-! ## sorting -/

omit [DecidableEq κ] in
/-- The same rows, in another order. -/
theorem descending_perm (rows : List ρ) : (descending stamp rows).Perm rows :=
  List.mergeSort_perm _ _

/-- Rows with distinct stamps are in strict order. -/
theorem Distinct.descends (h : Distinct stamp rows) : Descends stamp (descending stamp rows) := by
  have hsorted : (descending stamp rows).Pairwise fun r r' => stamp r' ≤ stamp r := by
    have hmerge : (descending stamp rows).Pairwise fun r r' => decide (stamp r' ≤ stamp r) :=
      List.pairwise_mergeSort
      (fun a b c hab hbc => by simp only [decide_eq_true_eq] at *; exact hbc.trans hab)
      (fun a b => by simpa using le_total (stamp b) (stamp a)) rows
    exact hmerge.imp fun h => of_decide_eq_true h
  have hne : (descending stamp rows).Pairwise fun r r' => stamp r ≠ stamp r' :=
    List.pairwise_map.mp (((descending_perm rows).map stamp).nodup_iff.mpr h)
  exact hsorted.imp₂ (fun _ _ hle hne => lt_of_le_of_ne hle (Ne.symm hne)) hne

/-- There is one order in which the newest comes first. -/
theorem Descends.eq_of_perm (h : Descends stamp rows) (h' : Descends stamp rows')
    (hperm : rows.Perm rows') : rows = rows' :=
  hperm.eq_of_pairwise (fun _ _ _ _ hab hba => absurd (hab.trans hba) (lt_irrefl _)) h h'

omit [DecidableEq κ] [LinearOrder ι] in
/-- Some of the rows have distinct stamps as well. -/
theorem Distinct.filter (h : Distinct stamp rows) (p : ρ → Bool) :
    Distinct stamp (rows.filter p) :=
  h.sublist (List.filter_sublist.map stamp)

omit [DecidableEq κ] in
/-- The order of some of the rows is that of all. -/
theorem descending_filter (h : Distinct stamp rows) (p : ρ → Bool) :
    descending stamp (rows.filter p) = (descending stamp rows).filter p :=
  (h.filter p).descends.eq_of_perm (h.descends.sublist List.filter_sublist)
    ((descending_perm _).trans ((descending_perm rows).filter p).symm)

/-! ## the front of a sorted list -/

/-- What is at the front is what has few rows before it. -/
theorem take_eq_filter (h : Descends stamp rows) (n : Nat) :
    rows.take n =
      rows.filter fun r => decide (rows.countP (fun r' => decide (stamp r < stamp r')) < n) := by
  induction rows generalizing n with
  | nil => simp
  | cons x xs ih =>
      obtain ⟨hx, hxs⟩ := List.pairwise_cons.mp h
      have hfirst : (x :: xs).countP (fun r' => decide (stamp x < stamp r')) = 0 := by
        rw [List.countP_eq_zero]
        intro r' hr'
        obtain rfl | hr' := List.mem_cons.mp hr'
        · simp
        · simpa using (hx r' hr').le
      have hrest : ∀ r ∈ xs, (x :: xs).countP (fun r' => decide (stamp r < stamp r')) =
          xs.countP (fun r' => decide (stamp r < stamp r')) + 1 := fun r hr =>
        List.countP_cons_of_pos (by simpa using hx r hr)
      cases n with
      | zero => simp
      | succ n =>
          rw [List.take_succ_cons, List.filter_cons_of_pos (by simp [hfirst]), ih hxs]
          refine congrArg _ (List.filter_congr fun r hr => ?_)
          rw [hrest r hr]
          simp

/-- The rows of a group. -/
theorem take_descending (h : Distinct stamp rows) (k : κ) (n : Nat) :
    (descending stamp (rows.filter fun r => group r = k)).take n =
      (descending stamp (rows.filter fun r => group r = k)).filter
        fun r => decide (newer group stamp rows r < n) := by
  have hgroup := h.filter fun r => decide (group r = k)
  rw [take_eq_filter hgroup.descends]
  refine List.filter_congr fun r hr => ?_
  have hr : group r = k := by
    simpa using (List.mem_filter.mp ((descending_perm _).mem_iff.mp hr)).2
  have hsame : (fun r' => decide (stamp r < stamp r') && decide (group r' = k)) =
      isNewer group stamp r := by
    funext r'
    rw [isNewer, hr, Bool.decide_and, Bool.and_comm]
  rw [(descending_perm _).countP_eq, List.countP_filter, hsame, newer]

/-- Removing what is not newer does not change how many newer rows there are. -/
theorem newer_filter {p : ρ → Bool} {r : ρ}
    (h : ∀ r' ∈ rows, isNewer group stamp r r' → p r' = true) :
    newer group stamp (rows.filter p) r = newer group stamp rows r := by
  rw [newer, List.countP_filter, newer]
  refine List.countP_congr fun r' hr' => ?_
  rw [Bool.and_eq_true]
  exact ⟨And.left, fun hnewer => ⟨hnewer, h r' hr' hnewer⟩⟩

/-- No row is newer than itself. -/
theorem isNewer_self (r : ρ) : isNewer group stamp r r = false := by simp [isNewer]

/-- Keeping as many as there are keeps all. -/
theorem newest_eq_self (h : rows.length ≤ n) : newest group stamp n rows = rows := by
  refine List.filter_eq_self.mpr fun r hr => decide_eq_true ?_
  exact (List.countP_lt_length_iff.mpr ⟨r, hr, isNewer_self r⟩).trans_le h

/-! ## one group after another -/

/-- Groups can be gone through one after another: what is done to one does not change
how many newer rows a row of another has. -/
theorem newestOf_cons {k : κ} {ks : List κ} (hk : k ∉ ks) (n : Nat) (rows : List ρ) :
    newestOf group stamp n ks
        (newestOf group stamp n [k] rows) =
      newestOf group stamp n (k :: ks) rows := by
  rw [newestOf, newestOf, List.filter_filter, newestOf]
  refine List.filter_congr fun r _ => ?_
  by_cases hr : group r = k
  · have hnot : group r ∉ ks := hr ▸ hk
    simp [hr, hk]
  · have hsame := @newer_filter _ _ _ _ _ group stamp rows
      (fun r => decide (group r ∈ [k] → newer group stamp rows r < n)) r
      fun r' _ hnewer => by
        have hne : group r' ≠ k := fun heq => hr ((of_decide_eq_true hnewer).1.symm.trans heq)
        simp [hne]
    rw [hsame]
    simp [hr]

/-- If every row belongs to one of the groups, none is forgotten. -/
theorem newestOf_eq_newest {ks : List κ} (h : ∀ r ∈ rows, group r ∈ ks) :
    newestOf group stamp n ks rows = newest group stamp n rows :=
  List.filter_congr fun r hr => by simp [h r hr]

end Newest
