import Mathlib.Algebra.Group.Nat.Defs
import Mathlib.Data.List.DropRight
import Mathlib.Data.List.Infix

/-!
# RubicaBot.PyStr

Python's `str` methods on Lean strings: `strip`, `lstrip(chars)`, `split()`,
`startswith`, `in`, `lower` and `repr`, and `int(s)`.

What Python reads from its Unicode database — letter case, which characters
count as alphanumeric, as digits, as printable — is a parameter, `Unicode`, that
carries what every version of the database agrees on: the ASCII range.
White space is not a parameter; the 29 characters `str.isspace` accepts are
listed.
-/

namespace Py

/-- The interpreter's Unicode database. -/
structure Unicode where
  /-- `str.lower` (full case mapping, so on whole strings). -/
  lower : String → String
  /-- `str.isalnum` on one character. -/
  isAlnum : Char → Bool
  /-- `str.isprintable` on one character. -/
  isPrintable : Char → Bool
  /-- `unicodedata.decimal`: the digit a character stands for. -/
  decimal : Char → Option Nat
  lower_ascii : ∀ s : String, (∀ c ∈ s.toList, c.toNat < 128) →
    lower s = String.ofList (s.toList.map Char.toLower)
  isAlnum_ascii : ∀ c : Char, c.toNat < 128 → isAlnum c = c.isAlphanum
  decimal_ascii : ∀ c : Char, c.toNat < 128 →
    decimal c = if c.isDigit then some (c.toNat - 48) else none

/-- The database restricted to ASCII: outside it nothing has case, nothing is
alphanumeric, a digit or printable. -/
def Unicode.ascii : Unicode where
  lower s := String.ofList (s.toList.map Char.toLower)
  isAlnum c := c.isAlphanum
  isPrintable _ := false
  decimal c := if c.isDigit then some (c.toNat - 48) else none
  lower_ascii _ _ := rfl
  isAlnum_ascii _ _ := rfl
  decimal_ascii _ _ := rfl

/-- Nothing is nothing in lower case. -/
theorem Unicode.lower_empty (u : Unicode) : u.lower "" = "" := u.lower_ascii "" (by simp)

/-- `str.isspace` on one character. -/
def isSpace (c : Char) : Bool :=
  let n := c.toNat
  (9 ≤ n && n ≤ 13) || (28 ≤ n && n ≤ 32) || n == 0x85 || n == 0xa0 || n == 0x1680 ||
    (0x2000 ≤ n && n ≤ 0x200a) || n == 0x2028 || n == 0x2029 || n == 0x202f || n == 0x205f ||
    n == 0x3000

/-! ## strip, split -/

/-- `s.lstrip(chars)` for the characters `p` accepts. -/
def lstrip (p : Char → Bool) (s : String) : String := String.ofList (s.toList.dropWhile p)

/-- `s.strip()`. -/
def strip (s : String) : String :=
  String.ofList ((s.toList.dropWhile isSpace).rdropWhile isSpace)

/-- The words of a text; `word` holds the characters read of the current one. -/
def splitFrom (word : List Char) : List Char → List (List Char)
  | [] => if word = [] then [] else [word]
  | c :: cs =>
      if isSpace c then
        if word = [] then splitFrom [] cs else word :: splitFrom [] cs
      else splitFrom (word ++ [c]) cs

/-- `s.split()`. -/
def split (s : String) : List String := (splitFrom [] s.toList).map String.ofList

/-- `s.split(maxsplit=1)`: the first word, then what follows it from the next
non-space character on. -/
def splitOnce (s : String) : List String :=
  match s.toList.dropWhile isSpace with
  | [] => []
  | c :: cs =>
      let word := (c :: cs).takeWhile fun c => !isSpace c
      match ((c :: cs).dropWhile fun c => !isSpace c).dropWhile isSpace with
      | [] => [String.ofList word]
      | rest => [String.ofList word, String.ofList rest]

/-- `s.startswith(pre)`. -/
def startsWith (s pre : String) : Bool := pre.toList.isPrefixOf s.toList

/-- `sub in s`. -/
def contains (s sub : String) : Bool := decide (sub.toList <:+: s.toList)

/-! ## the first word -/

/-- A word that has begun goes on up to the next space. -/
theorem splitFrom_of_ne_nil {word : List Char} (h : word ≠ []) (cs : List Char) :
    splitFrom word cs =
      (word ++ cs.takeWhile fun c => !isSpace c) ::
        splitFrom [] (cs.dropWhile fun c => !isSpace c) := by
  induction cs generalizing word with
  | nil => simp [splitFrom, h]
  | cons c cs ih =>
      cases hspace : isSpace c with
      | true => simp [splitFrom, hspace, h]
      | false => simp [splitFrom, hspace, ih]

/-- Stripping the end does not change what comes before the first space. -/
theorem takeWhile_rdropWhile_isSpace (cs : List Char) :
    ((cs.rdropWhile isSpace).takeWhile fun c => !isSpace c) =
      cs.takeWhile fun c => !isSpace c := by
  induction cs using List.reverseRecOn with
  | nil => simp
  | append_singleton cs c ih =>
      rw [List.rdropWhile_concat]
      cases hspace : isSpace c with
      | true =>
          rw [if_pos rfl, ih, List.takeWhile_append]
          split
          · next hlength =>
              have hall := (List.takeWhile_prefix fun c => !isSpace c).eq_of_length hlength
              simp [hspace, hall]
          · rfl
      | false => simp

/-- The first word of a text that does not begin with a space. -/
theorem split_strip {s : String} {c : Char} {cs : List Char} (hs : s.toList = c :: cs)
    (hc : isSpace c = false) :
    ∃ words, split (strip s) =
      String.ofList (s.toList.takeWhile fun c => !isSpace c) :: words := by
  have hdrop : s.toList.dropWhile isSpace = s.toList := by simp [hs, hc]
  have htake := takeWhile_rdropWhile_isSpace s.toList
  unfold split strip
  rw [String.toList_ofList, hdrop]
  cases hstripped : s.toList.rdropWhile isSpace with
  | nil =>
      rw [hstripped, hs] at htake
      simp [hc] at htake
  | cons d ds =>
      rw [hstripped] at htake
      have hd : d = c := by
        rw [hs] at htake
        simp only [List.takeWhile_cons, hc, Bool.not_false, if_true] at htake
        split at htake
        · exact (List.cons.inj htake).1
        · cases htake
      subst hd
      have hword : splitFrom [] (d :: ds) = splitFrom [d] ds := by simp [splitFrom, hc]
      have htake' : (d :: ds).takeWhile (fun c => !isSpace c) =
          d :: ds.takeWhile fun c => !isSpace c := by simp [hc]
      rw [hword, splitFrom_of_ne_nil (List.cons_ne_nil _ _), List.map_cons, ← htake, htake']
      exact ⟨_, rfl⟩

/-- The first word of `splitOnce`, when the text does not begin with a space. -/
theorem splitOnce_ofList {c : Char} {cs : List Char} (hc : isSpace c = false) :
    ∃ words, splitOnce (String.ofList (c :: cs)) =
      String.ofList ((c :: cs).takeWhile fun c => !isSpace c) :: words := by
  have hdrop : (c :: cs).dropWhile isSpace = c :: cs := by simp [hc]
  unfold splitOnce
  rw [String.toList_ofList, hdrop]
  simp only
  split
  · exact ⟨_, rfl⟩
  · exact ⟨_, rfl⟩

/-! ## int -/

/-- The rest of a numeral whose first digits are worth `acc`; one underscore may
stand between two digits. -/
def digitsFrom (u : Unicode) (acc : Nat) : List Char → Option Nat
  | [] => some acc
  | '_' :: c :: cs => (u.decimal c).bind fun d => digitsFrom u (10 * acc + d) cs
  | c :: cs => (u.decimal c).bind fun d => digitsFrom u (10 * acc + d) cs

/-- An unsigned numeral; `int` refuses one of more than 4300 digits. -/
def natOf (u : Unicode) : List Char → Option Nat
  | [] => none
  | c :: cs =>
      if 4300 < (c :: cs).countP (· != '_') then none
      else (u.decimal c).bind fun d => digitsFrom u d cs

/-- `int(s)`, or `none` where it raises `ValueError`. -/
def intOf (u : Unicode) (s : String) : Option Int :=
  match (strip s).toList with
  | '-' :: cs => (natOf u cs).map fun n => -(n : Int)
  | '+' :: cs => (natOf u cs).map Int.ofNat
  | cs => (natOf u cs).map Int.ofNat

/-- The digits of the database are decimal. -/
def Unicode.IsDecimal (u : Unicode) : Prop := ∀ c d, u.decimal c = some d → d < 10

/-- The digits of ASCII are decimal digits. -/
theorem Unicode.ascii_isDecimal : Unicode.ascii.IsDecimal := by
  intro c d hd
  simp only [ascii] at hd
  split_ifs at hd with hc
  have hle : c.val ≤ 57 := by
    rw [Char.isDigit, Bool.and_eq_true, decide_eq_true_eq, decide_eq_true_eq] at hc
    exact hc.2
  have hnat : c.toNat ≤ 57 := hle
  rw [Option.some.injEq] at hd
  omega

/-- A digit of ASCII counts as itself. -/
theorem Unicode.decimal_of_isDigit (u : Unicode) {c : Char} (hc : c.isDigit = true) :
    u.decimal c = some (c.toNat - 48) := by
  have hlt : c.toNat < 128 := by
    rw [Char.isDigit, Bool.and_eq_true, decide_eq_true_eq, decide_eq_true_eq] at hc
    have hle : c.toNat ≤ 57 := hc.2
    omega
  rw [u.decimal_ascii c hlt, if_pos hc]

/-- An underscore is no digit. -/
theorem Unicode.decimal_underscore (u : Unicode) : u.decimal '_' = none := by
  rw [u.decimal_ascii '_' (by decide), if_neg (by decide)]

/-- ASCII digits are read as they are written. -/
theorem digitsFrom_of_isDigit (u : Unicode) {cs : List Char}
    (h : ∀ c ∈ cs, c.isDigit = true) (acc : Nat) :
    digitsFrom u acc cs = some (Nat.ofDigitChars 10 cs acc) := by
  induction cs generalizing acc with
  | nil => simp [digitsFrom]
  | cons c cs ih =>
      have hc := h c List.mem_cons_self
      have hne : c ≠ '_' := by
        rintro rfl
        simp at hc
      rw [digitsFrom.eq_3 u acc c cs (fun _ _ h _ => hne h), u.decimal_of_isDigit hc,
        Option.bind_some, ih (fun d hd => h d (List.mem_cons_of_mem _ hd)), Nat.ofDigitChars_cons]
      rfl

/-- `sys.int_info.default_max_str_digits`. -/
def maxStrDigits : Nat := 4300

/-- What one more digit does to the bound of `digitsFrom_lt`. -/
theorem lt_of_decimal {u : Unicode} (hu : u.IsDecimal) {acc d n : Nat} {c : Char}
    {cs : List Char} (hd : u.decimal c = some d)
    (h : n < (10 * acc + d + 1) * 10 ^ cs.countP (· != '_')) :
    n < (acc + 1) * 10 ^ (c :: cs).countP (· != '_') := by
  have hne : (c != '_') = true := by
    rw [bne_iff_ne]
    rintro rfl
    simp [u.decimal_underscore] at hd
  have hten := hu c d hd
  rw [List.countP_cons, if_pos hne]
  calc n < (10 * acc + d + 1) * 10 ^ cs.countP (· != '_') := h
    _ ≤ (acc + 1) * 10 * 10 ^ cs.countP (· != '_') := Nat.mul_le_mul_right _ (by omega)
    _ = (acc + 1) * 10 ^ (cs.countP (· != '_') + 1) := by rw [pow_succ, mul_assoc, mul_comm 10]

/-- A numeral is below the power of ten of its number of digits. -/
theorem digitsFrom_lt {u : Unicode} (hu : u.IsDecimal) {acc n : Nat} {cs : List Char}
    (h : digitsFrom u acc cs = some n) : n < (acc + 1) * 10 ^ cs.countP (· != '_') := by
  fun_induction digitsFrom u acc cs with
  | case1 acc => simp_all
  | case2 acc c cs ih =>
      obtain ⟨d, hd, hrest⟩ := Option.bind_eq_some_iff.mp h
      have hlt := lt_of_decimal hu hd (ih d hrest)
      rwa [List.countP_cons, if_neg (by decide)]
  | case3 acc c cs hc ih =>
      obtain ⟨d, hd, hrest⟩ := Option.bind_eq_some_iff.mp h
      exact lt_of_decimal hu hd (ih d hrest)

/-- A number that is read has not too many digits. -/
theorem natOf_lt {u : Unicode} (hu : u.IsDecimal) {n : Nat} {cs : List Char}
    (h : natOf u cs = some n) : n < 10 ^ maxStrDigits := by
  unfold natOf at h
  split at h
  · exact absurd h (by simp)
  · next c cs =>
      split at h
      · exact absurd h (by simp)
      · next hmany =>
          obtain ⟨d, hd, hrest⟩ := Option.bind_eq_some_iff.mp h
          have hlt : n < (10 * 0 + d + 1) * 10 ^ cs.countP (· != '_') := by
            rw [Nat.mul_zero, zero_add]
            exact digitsFrom_lt hu hrest
          calc n < (0 + 1) * 10 ^ (c :: cs).countP (· != '_') := lt_of_decimal hu hd hlt
            _ = 10 ^ (c :: cs).countP (· != '_') := by rw [zero_add, one_mul]
            _ ≤ 10 ^ maxStrDigits := Nat.pow_le_pow_right (by decide) (Nat.le_of_not_lt hmany)

/-- What `int` accepts, `str` can write. -/
theorem intOf_natAbs_lt {u : Unicode} (hu : u.IsDecimal) {s : String} {n : Int}
    (h : intOf u s = some n) : n.natAbs < 10 ^ maxStrDigits := by
  have hmap {f : Nat → Int} (hf : ∀ m, (f m).natAbs = m) {cs : List Char}
      (h : (natOf u cs).map f = some n) : n.natAbs < 10 ^ maxStrDigits := by
    obtain ⟨m, hm, rfl⟩ := Option.map_eq_some_iff.mp h
    rw [hf]
    exact natOf_lt hu hm
  unfold intOf at h
  split at h
  · next cs _ =>
      have hneg : (natOf u cs).map (fun m : Nat => -(m : Int)) = some n := by
        rw [← h]
        cases natOf u cs <;> rfl
      exact hmap (fun m => by rw [Int.natAbs_neg, Int.natAbs_natCast]) hneg
  · exact hmap Int.natAbs_natCast h
  · exact hmap Int.natAbs_natCast h

/-- A number that is written is read back. -/
theorem natOf_toDigits (u : Unicode) {n : Nat} (h : n < 10 ^ maxStrDigits) :
    natOf u (Nat.toDigits 10 n) = some n := by
  have hdigits : ∀ c ∈ Nat.toDigits 10 n, c.isDigit = true := fun c hc =>
    Nat.isDigit_of_mem_toDigits (by decide) (by decide) hc
  have hlength : (Nat.toDigits 10 n).length ≤ maxStrDigits :=
    (Nat.length_toDigits_le_iff (by decide) (by decide)).mpr h
  have hvalue := @Nat.ofDigitChars_ten_toDigits n
  cases hcs : Nat.toDigits 10 n with
  | nil => exact absurd hcs Nat.toDigits_ne_nil
  | cons c cs =>
      rw [hcs] at hdigits hlength hvalue
      have hfew : ¬ 4300 < (c :: cs).countP (· != '_') :=
        Nat.not_lt.mpr (List.countP_le_length.trans hlength)
      rw [natOf, if_neg hfew, u.decimal_of_isDigit (hdigits c List.mem_cons_self),
        Option.bind_some,
        digitsFrom_of_isDigit u (fun d hd => hdigits d (List.mem_cons_of_mem _ hd)),
        ← hvalue, Nat.ofDigitChars_cons, Nat.mul_zero, zero_add]
      rfl

/-- There is nothing to strip. -/
theorem strip_of_forall {s : String} (h : ∀ c ∈ s.toList, isSpace c = false) : strip s = s := by
  have hhead : s.toList.dropWhile isSpace = s.toList :=
    List.dropWhile_eq_self_iff.mpr fun hl => by simp [h _ (List.getElem_mem hl)]
  have hlast : s.toList.rdropWhile isSpace = s.toList :=
    List.rdropWhile_eq_self_iff.mpr fun hl => by simp [h _ (List.getLast_mem hl)]
  rw [strip, hhead, hlast, String.ofList_toList]

/-- A digit is no white space. -/
theorem isSpace_of_isDigit {c : Char} (h : c.isDigit = true) : isSpace c = false := by
  rw [Char.isDigit, Bool.and_eq_true, decide_eq_true_eq, decide_eq_true_eq] at h
  have hlow : 48 ≤ c.toNat := h.1
  have hhigh : c.toNat ≤ 57 := h.2
  simp [isSpace]
  omega

/-- The sign, and then the digits. -/
theorem toList_toString (n : Int) :
    (toString n).toList = (if 0 ≤ n then [] else ['-']) ++ Nat.toDigits 10 n.natAbs := by
  rw [Int.toString_eq_repr, Int.repr_eq_if]
  split
  · next hn => rw [Nat.toList_repr, List.nil_append, show n.toNat = n.natAbs by omega]
  · next hn => rw [String.toList_append, Nat.toList_repr, show (-n).toNat = n.natAbs by omega]; rfl

/-- `int(str(n))`. -/
theorem intOf_toString (u : Unicode) {n : Int} (h : n.natAbs < 10 ^ maxStrDigits) :
    intOf u (toString n) = some n := by
  have hdigits : ∀ c ∈ Nat.toDigits 10 n.natAbs, c.isDigit = true := fun c hc =>
    Nat.isDigit_of_mem_toDigits (by decide) (by decide) hc
  have hnat := natOf_toDigits u h
  have htext := toList_toString n
  have hstrip : strip (toString n) = toString n := by
    apply strip_of_forall
    intro c hc
    rw [htext, List.mem_append] at hc
    obtain hsign | hc := hc
    · split_ifs at hsign <;> simp_all [isSpace]
    · exact isSpace_of_isDigit (hdigits c hc)
  rw [intOf, hstrip, htext]
  split_ifs with hn
  · rw [List.nil_append]
    -- a digit is no sign
    have hhead {c : Char} {cs : List Char} (hcs : Nat.toDigits 10 n.natAbs = c :: cs) :
        c.isDigit = true := hdigits c (by rw [hcs]; exact List.mem_cons_self)
    split
    · next hcs => exact absurd (hhead hcs) (by decide)
    · next hcs => exact absurd (hhead hcs) (by decide)
    · rw [hnat, Option.map_some]
      exact congrArg some (Int.natAbs_of_nonneg hn)
  · rw [List.singleton_append]
    simp only [hnat]
    exact congrArg some (show -(n.natAbs : Int) = n by omega)

/-! ## repr -/

/-- The last `width` hexadecimal digits of `n`. -/
def hex (width n : Nat) : String :=
  String.ofList (((List.range width).map fun i => Nat.digitChar (n / 16 ^ i % 16)).reverse)

/-- One character of `repr(s)` between quotes `quote`. -/
def reprChar (u : Unicode) (quote c : Char) : String :=
  if c = quote ∨ c = '\\' then String.ofList ['\\', c]
  else if c = '\t' then "\\t"
  else if c = '\n' then "\\n"
  else if c = '\r' then "\\r"
  else if c.toNat < 32 ∨ c.toNat = 127 then "\\x" ++ hex 2 c.toNat
  else if c.toNat < 127 ∨ u.isPrintable c then String.singleton c
  else if c.toNat ≤ 0xff then "\\x" ++ hex 2 c.toNat
  else if c.toNat ≤ 0xffff then "\\u" ++ hex 4 c.toNat
  else "\\U" ++ hex 8 c.toNat

/-- `repr(s)`: single quotes, unless the text has one and no double quote. -/
def reprString (u : Unicode) (s : String) : String :=
  let quote := if '\'' ∈ s.toList ∧ '"' ∉ s.toList then '"' else '\''
  String.singleton quote ++ String.join (s.toList.map (reprChar u quote)) ++
    String.singleton quote

end Py
