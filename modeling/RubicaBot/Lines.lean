import RubicaBot.PyStr

/-!
# RubicaBot.Lines

Text files line by line: `str.splitlines`, and the newline translation of files
that are opened in text mode.

A reader that keeps something of some lines and nothing of an empty one reads a text
piece by piece: what it reads of `xs`, a newline and `ys` is what it reads of `xs` and
then what it reads of `ys` (`filterMap_linesFrom_append`), whatever `xs` ends with.
-/

namespace Py

/-- The characters at which `str.splitlines` cuts. -/
def isLineBoundary (c : Char) : Bool :=
  let n := c.toNat
  (10 ≤ n && n ≤ 13) || (28 ≤ n && n ≤ 30) || n == 0x85 || n == 0x2028 || n == 0x2029

/-- The lines of a text; `line` holds the characters read of the current one, and
`afterReturn` says that a `\r` has just ended one, so that a `\n` belongs to it. -/
def linesFrom (afterReturn : Bool) (line : List Char) : List Char → List (List Char)
  | [] => if line = [] then [] else [line]
  | c :: cs =>
      if afterReturn ∧ c = '\n' then linesFrom false line cs
      else if isLineBoundary c then line :: linesFrom (c = '\r') [] cs
      else linesFrom false (line ++ [c]) cs

/-- `s.splitlines()`. -/
def splitLines (s : String) : List String := (linesFrom false [] s.toList).map String.ofList

/-- `\r\n` and `\r` become `\n`; `afterReturn` as above. -/
def universalFrom (afterReturn : Bool) : List Char → List Char
  | [] => []
  | c :: cs =>
      if c = '\r' then '\n' :: universalFrom true cs
      else if afterReturn ∧ c = '\n' then universalFrom false cs
      else c :: universalFrom false cs

/-- What `read_text` gives of the text in a file. -/
def readText (s : String) : String := String.ofList (universalFrom false s.toList)

/-- Translating the newlines does not change where the lines end. -/
theorem linesFrom_universalFrom (afterReturn : Bool) (line cs : List Char) :
    linesFrom false line (universalFrom afterReturn cs) = linesFrom afterReturn line cs := by
  induction cs generalizing afterReturn line with
  | nil => rfl
  | cons c cs ih =>
      unfold universalFrom
      by_cases hreturn : c = '\r'
      · subst hreturn
        simp [linesFrom, isLineBoundary, ih]
      · rw [if_neg hreturn]
        by_cases hskip : afterReturn ∧ c = '\n'
        · rw [if_pos hskip, ih, linesFrom, if_pos hskip]
        · rw [if_neg hskip, linesFrom, linesFrom, if_neg (by simp), if_neg hskip]
          simp [hreturn, ih]

/-- Universal newlines change no line. -/
theorem splitLines_readText (s : String) : splitLines (readText s) = splitLines s := by
  rw [splitLines, readText, String.toList_ofList, linesFrom_universalFrom, splitLines]

/-! ## stripping -/

/-- Stripping twice is stripping once. -/
theorem strip_strip (s : String) : strip (strip s) = strip s := by
  unfold strip
  rw [String.toList_ofList]
  have hhead : (((s.toList.dropWhile isSpace).rdropWhile isSpace).dropWhile isSpace) =
      (s.toList.dropWhile isSpace).rdropWhile isSpace := by
    rw [List.dropWhile_eq_self_iff]
    intro hl
    have hprefix := List.rdropWhile_prefix isSpace (s.toList.dropWhile isSpace)
    have hd : 0 < (s.toList.dropWhile isSpace).length := hl.trans_le hprefix.length_le
    have hsame := hprefix.getElem hl
    rw [hsame]
    exact List.dropWhile_get_zero_not isSpace s.toList hd
  rw [hhead, List.rdropWhile_idempotent]

/-- Stripping adds nothing. -/
theorem mem_of_mem_strip {s : String} {c : Char} (h : c ∈ (strip s).toList) : c ∈ s.toList := by
  rw [strip, String.toList_ofList] at h
  exact (List.dropWhile_suffix isSpace).subset ((List.rdropWhile_prefix isSpace _).subset h)

/-! ## reading line by line -/

/-- The rest of the line that a text begins in. -/
def firstLine (cs : List Char) : List Char := cs.takeWhile fun c => !isLineBoundary c

/-- The lines after that one. -/
def furtherLines (cs : List Char) : List (List Char) :=
  match cs.dropWhile fun c => !isLineBoundary c with
  | [] => []
  | c :: rest => linesFrom (c = '\r') [] rest

/-- Without a boundary the line goes on. -/
theorem linesFrom_append {xs : List Char} (h : ∀ c ∈ xs, isLineBoundary c = false)
    (line ys : List Char) : linesFrom false line (xs ++ ys) = linesFrom false (line ++ xs) ys := by
  induction xs generalizing line with
  | nil => simp
  | cons c cs ih =>
      rw [List.cons_append, linesFrom, if_neg (by simp), h c List.mem_cons_self,
        if_neg (by simp), ih fun c hc => h c (List.mem_cons_of_mem _ hc), List.append_assoc,
        List.singleton_append]

/-- A line that has begun goes on up to the next boundary. -/
theorem linesFrom_of_ne_nil {line : List Char} (hline : line ≠ []) (cs : List Char) :
    linesFrom false line cs = (line ++ firstLine cs) :: furtherLines cs := by
  induction cs generalizing line with
  | nil => simp [linesFrom, firstLine, furtherLines, hline]
  | cons c cs ih =>
      rw [linesFrom, if_neg (by simp)]
      cases hc : isLineBoundary c with
      | true => simp [firstLine, furtherLines, hc]
      | false => simp [firstLine, furtherLines, hc, ih]

/-- There is only one line. -/
theorem furtherLines_of_forall {cs : List Char} (h : ∀ c ∈ cs, isLineBoundary c = false) :
    furtherLines cs = [] := by
  have hdrop : (cs.dropWhile fun c => !isLineBoundary c) = [] := by
    rw [List.dropWhile_eq_nil_iff]
    exact fun c hc => by simp [h c hc]
  rw [furtherLines, hdrop]

/-- And it is all of the text. -/
theorem firstLine_of_forall {cs : List Char} (h : ∀ c ∈ cs, isLineBoundary c = false) :
    firstLine cs = cs := by
  rw [firstLine, List.takeWhile_eq_self_iff]
  exact fun c hc => by simp [h c hc]

/-- **Reading piece by piece.** -/
theorem filterMap_linesFrom_append {α : Type} {f : List Char → Option α} (hf : f [] = none)
    {afterReturn : Bool} {line : List Char} (hline : afterReturn → line = []) (xs ys : List Char) :
    (linesFrom afterReturn line (xs ++ '\n' :: ys)).filterMap f =
      (linesFrom afterReturn line xs).filterMap f ++ (linesFrom false [] ys).filterMap f := by
  induction xs generalizing afterReturn line with
  | nil =>
      cases afterReturn with
      | true =>
          obtain rfl := hline rfl
          simp [linesFrom]
      | false =>
          by_cases hempty : line = []
          · subst hempty
            simp [linesFrom, isLineBoundary, hf]
          · simp [linesFrom, isLineBoundary, hempty, List.filterMap_cons]
            cases f line <;> rfl
  | cons c cs ih =>
      rw [List.cons_append, linesFrom, linesFrom]
      by_cases hskip : afterReturn ∧ c = '\n'
      · rw [if_pos hskip, if_pos hskip]
        exact ih fun h => absurd h (by simp)
      · rw [if_neg hskip, if_neg hskip]
        cases hc : isLineBoundary c with
        | true =>
            rw [if_pos rfl, if_pos rfl, List.filterMap_cons, List.filterMap_cons, ih fun _ => rfl]
            cases f line <;> rfl
        | false =>
            rw [if_neg (by simp), if_neg (by simp)]
            exact ih fun h => absurd h (by simp)

/-- The lines of a text hold no boundary. -/
theorem forall_of_mem_linesFrom {afterReturn : Bool} {line : List Char}
    (hline : ∀ c ∈ line, isLineBoundary c = false) {cs l : List Char}
    (h : l ∈ linesFrom afterReturn line cs) : ∀ c ∈ l, isLineBoundary c = false := by
  induction cs generalizing afterReturn line with
  | nil =>
      unfold linesFrom at h
      split at h
      · exact absurd h List.not_mem_nil
      · exact List.mem_singleton.mp h ▸ hline
  | cons c cs ih =>
      unfold linesFrom at h
      split at h
      · exact ih hline h
      · split at h
        · obtain rfl | h := List.mem_cons.mp h
          · exact hline
          · exact ih (fun c hc => absurd hc List.not_mem_nil) h
        · next hc =>
            refine ih (fun c' hc' => ?_) h
            obtain hc' | hc' := List.mem_append.mp hc'
            · exact hline c' hc'
            · rw [List.mem_singleton.mp hc']
              exact Bool.not_eq_true _ ▸ hc

end Py
