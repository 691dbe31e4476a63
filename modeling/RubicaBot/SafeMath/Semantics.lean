import RubicaBot.Effect
import RubicaBot.SafeMath

/-!
# RubicaBot.SafeMath.Semantics

What the expressions mean, as rules: `Expr.Computes` derives the value of a tree from the
values of its operands, where the operator is defined on them, and `Expr.Rejected` says
when the first thing to go wrong is a format of a text.  The rules know neither exceptions
nor the order of evaluation.

The evaluator agrees with the rules (`eval_eq_ok_iff`, `eval_eq_valueError_iff`); every
other tree makes it raise something else than `ValueError`.
-/

namespace RubicaBot

open Py Effect

namespace SafeMath

/-! ## the rules -/

variable (rt : Runtime)

/-- The operators of integers, where they are defined. -/
inductive IntComputes (m n : Int) : BinaryOp → Value → Prop where
  | add : IntComputes m n .add (.int (m + n))
  | sub : IntComputes m n .sub (.int (m - n))
  | mult : IntComputes m n .mult (.int (m * n))
  | div (hn : n ≠ 0) (hfits : (quotient m n).isFinite = true) :
      IntComputes m n .div (.float (quotient m n))
  | floorDiv (hn : n ≠ 0) : IntComputes m n .floorDiv (.int (m.fdiv n))
  | mod (hn : n ≠ 0) : IntComputes m n .mod (.int (m.fmod n))
  | pow (hn : 0 ≤ n) : IntComputes m n .pow (.int (m ^ n.toNat))
  | powNeg {value : Value} (hn : n < 0) (hm : (Float.ofInt m).isFinite = true)
      (hfits : (Float.ofInt n).isFinite = true)
      (hpow : floatPow rt (Float.ofInt m) (Float.ofInt n) = .ok value) :
      IntComputes m n .pow value

/-- The operators of floats, where they are defined. -/
inductive FloatComputes (x y : Float) : BinaryOp → Value → Prop where
  | add : FloatComputes x y .add (.float (x + y))
  | sub : FloatComputes x y .sub (.float (x - y))
  | mult : FloatComputes x y .mult (.float (x * y))
  | div (hy : (y == 0) = false) : FloatComputes x y .div (.float (x / y))
  | floorDiv (hy : (y == 0) = false) :
      FloatComputes x y .floorDiv (.float (floatFloorDiv rt x y))
  | mod (hy : (y == 0) = false) : FloatComputes x y .mod (.float (floatMod rt x y))
  | pow {value : Value} (hpow : floatPow rt x y = .ok value) : FloatComputes x y .pow value

/-- The operators of complex numbers, where they are defined. -/
inductive ComplexComputes (a b : Float × Float) : BinaryOp → Value → Prop where
  | add : ComplexComputes a b .add (.complex (a.1 + b.1, a.2 + b.2))
  | sub : ComplexComputes a b .sub (.complex (a.1 - b.1, a.2 - b.2))
  | mult : ComplexComputes a b .mult
      (.complex (a.1 * b.1 - a.2 * b.2, a.1 * b.2 + a.2 * b.1))
  | div {z : Float × Float} (hdiv : complexDiv a b = .ok z) : ComplexComputes a b .div (.complex z)
  | pow {z : Float × Float} (hpow : complexPow rt a b = .ok z) :
      ComplexComputes a b .pow (.complex z)

/-- A number as a complex one; an integer may be too large. -/
inductive Num.Widens : Num → Float × Float → Prop where
  | int {n : Int} (hfits : (Float.ofInt n).isFinite = true) : Widens (.int n) (Float.ofInt n, 0)
  | float (x : Float) : Widens (.float x) (x, 0)
  | complex (z : Float × Float) : Widens (.complex z) z

/-- The number is complex. -/
def Num.IsComplex : Num → Prop
  | complex _ => True
  | _ => False

/-- The operators of numbers: the narrower one is converted, if it fits. -/
inductive NumComputes (op : BinaryOp) : Num → Num → Value → Prop where
  | ints {m n : Int} {value : Value} (h : IntComputes rt m n op value) :
      NumComputes op (.int m) (.int n) value
  | intFloat {m : Int} {y : Float} {value : Value} (hfits : (Float.ofInt m).isFinite = true)
      (h : FloatComputes rt (Float.ofInt m) y op value) : NumComputes op (.int m) (.float y) value
  | floatInt {x : Float} {n : Int} {value : Value} (hfits : (Float.ofInt n).isFinite = true)
      (h : FloatComputes rt x (Float.ofInt n) op value) : NumComputes op (.float x) (.int n) value
  | floats {x y : Float} {value : Value} (h : FloatComputes rt x y op value) :
      NumComputes op (.float x) (.float y) value
  | complexes {a b : Num} {z w : Float × Float} {value : Value}
      (hcomplex : a.IsComplex ∨ b.IsComplex) (ha : a.Widens z) (hb : b.Widens w)
      (h : ComplexComputes rt z w op value) : NumComputes op a b value

/-- A number of copies that there can be of a text of the given length. -/
def Repeatable (length : Nat) (n : Int) : Prop :=
  -2 ^ 63 ≤ n ∧ n < 2 ^ 63 ∧ length * n < 2 ^ 63

/-- The copies of a text. -/
inductive Repeats (n : Int) : Value → Value → Prop where
  | str {s : String} (h : Repeatable s.length n) :
      Repeats n (.str s) (.str (String.join (List.replicate n.toNat s)))
  | bytes {bs : List UInt8} (h : Repeatable bs.length n) :
      Repeats n (.bytes bs) (.bytes (List.replicate n.toNat bs).flatten)

/-- The operators of texts. -/
inductive TextComputes : BinaryOp → Value → Value → Value → Prop where
  | addStr (s t : String) : TextComputes .add (.str s) (.str t) (.str (s ++ t))
  | addBytes (bs cs : List UInt8) :
      TextComputes .add (.bytes bs) (.bytes cs) (.bytes (bs ++ cs))
  | multRight {a b value : Value} {n : Int} (hn : b.index? = some n) (h : Repeats n a value) :
      TextComputes .mult a b value
  | multLeft {a b value : Value} {n : Int} (hn : a.index? = some n) (h : Repeats n b value) :
      TextComputes .mult a b value
  | modStr {s t : String} {b : Value} (h : rt.formatStr s b = .ok t) :
      TextComputes .mod (.str s) b (.str t)
  | modBytes {bs cs : List UInt8} {b : Value} (h : rt.formatBytes bs b = .ok cs) :
      TextComputes .mod (.bytes bs) b (.bytes cs)

/-- The binary operators. -/
inductive BinaryComputes (op : BinaryOp) (a b value : Value) : Prop where
  | nums {x y : Num} (ha : a.num? = some x) (hb : b.num? = some y)
      (h : NumComputes rt op x y value)
  | texts (h : TextComputes rt op a b value)

/-- The signs of a number. -/
inductive UnaryComputes (a : Value) : UnaryOp → Value → Prop where
  | plusInt {n : Int} (ha : a.num? = some (.int n)) : UnaryComputes a .uadd (.int n)
  | plusFloat {x : Float} (ha : a.num? = some (.float x)) : UnaryComputes a .uadd (.float x)
  | plusComplex {z : Float × Float} (ha : a.num? = some (.complex z)) :
      UnaryComputes a .uadd (.complex z)
  | minusInt {n : Int} (ha : a.num? = some (.int n)) : UnaryComputes a .usub (.int (-n))
  | minusFloat {x : Float} (ha : a.num? = some (.float x)) : UnaryComputes a .usub (.float (-x))
  | minusComplex {z : Float × Float} (ha : a.num? = some (.complex z)) :
      UnaryComputes a .usub (.complex (-z.1, -z.2))

/-- The value of a tree. -/
inductive Expr.Computes : Expr → Value → Prop where
  | constant (value : Value) : Computes (.constant value) value
  | unaryOp {op : UnaryOp} {operand : Expr} {a value : Value} (ha : operand.Computes a)
      (h : UnaryComputes a op value) (hmemory : rt.allocates value = true) :
      Computes (.unaryOp op operand) value
  | binOp {left right : Expr} {op : BinaryOp} {a b value : Value} (ha : left.Computes a)
      (hb : right.Computes b) (h : BinaryComputes rt op a b value)
      (hmemory : rt.allocates value = true) : Computes (.binOp left op right) value

/-- The first thing to go wrong is the format of a text, with this complaint. -/
inductive Expr.Rejected : Expr → String → Prop where
  | operand {op : UnaryOp} {operand : Expr} {text : String} (h : operand.Rejected text) :
      Rejected (.unaryOp op operand) text
  | left {left right : Expr} {op : BinaryOp} {text : String} (h : left.Rejected text) :
      Rejected (.binOp left op right) text
  | right {left right : Expr} {op : BinaryOp} {a : Value} {text : String}
      (ha : left.Computes rt a) (h : right.Rejected text) : Rejected (.binOp left op right) text
  | str {left right : Expr} {s : String} {b : Value} {text : String}
      (ha : left.Computes rt (.str s)) (hb : right.Computes rt b)
      (h : rt.formatStr s b = .error (.valueError, text)) :
      Rejected (.binOp left .mod right) text
  | bytes {left right : Expr} {bs : List UInt8} {b : Value} {text : String}
      (ha : left.Computes rt (.bytes bs)) (hb : right.Computes rt b)
      (h : rt.formatBytes bs b = .error (.valueError, text)) :
      Rejected (.binOp left .mod right) text

/-! ## the operators agree with the rules -/

section Except

variable {α : Type} {x : Except (PyError × String) α} {a : α} {e : PyError} {c : Prop} [Decidable c]

/-- A condition that raises. -/
theorem unless_eq_ok_iff : (if c then raised e else x) = .ok a ↔ ¬ c ∧ x = .ok a := by
  by_cases hc : c <;> simp [hc, raised]

/-- A condition without which it raises. -/
theorem given_eq_ok_iff : (if c then x else raised e) = .ok a ↔ c ∧ x = .ok a := by
  by_cases hc : c <;> simp [hc, raised]

end Except

section Operators

variable {rt} {op : BinaryOp} {value : Value}

/-- The conversion of an integer, which may overflow. -/
theorem floatOf_eq_ok_iff {n : Int} {x : Float} :
    floatOf n = .ok x ↔ (Float.ofInt n).isFinite = true ∧ x = Float.ofInt n := by
  rw [floatOf, given_eq_ok_iff, Except.ok.injEq, eq_comm (a := x)]

/-- The operators of integers compute what they mean. -/
theorem intOp_eq_ok_iff {m n : Int} :
    intOp rt op m n = .ok value ↔ IntComputes rt m n op value := by
  constructor
  · intro h
    cases op with
    | add => cases h; exact .add
    | sub => cases h; exact .sub
    | mult => cases h; exact .mult
    | div =>
        obtain ⟨hn, hrest⟩ := unless_eq_ok_iff.mp h
        obtain ⟨hfits, heq⟩ := given_eq_ok_iff.mp hrest
        cases heq
        exact .div hn hfits
    | floorDiv =>
        obtain ⟨hn, heq⟩ := unless_eq_ok_iff.mp h
        cases heq
        exact .floorDiv hn
    | mod =>
        obtain ⟨hn, heq⟩ := unless_eq_ok_iff.mp h
        cases heq
        exact .mod hn
    | pow =>
        by_cases hn : 0 ≤ n
        · rw [intOp, if_pos hn] at h
          cases h
          exact .pow hn
        · rw [intOp, if_neg hn] at h
          obtain ⟨x, hx, hrest⟩ := bind_eq_ok_iff.mp h
          obtain ⟨y, hy, hpow⟩ := bind_eq_ok_iff.mp hrest
          obtain ⟨hm, rfl⟩ := floatOf_eq_ok_iff.mp hx
          obtain ⟨hfits, rfl⟩ := floatOf_eq_ok_iff.mp hy
          exact .powNeg (Int.not_le.mp hn) hm hfits hpow
    | other => cases h
  · intro h
    cases h with
    | add => rfl
    | sub => rfl
    | mult => rfl
    | div hn hfits => exact unless_eq_ok_iff.mpr ⟨hn, given_eq_ok_iff.mpr ⟨hfits, rfl⟩⟩
    | floorDiv hn => exact unless_eq_ok_iff.mpr ⟨hn, rfl⟩
    | mod hn => exact unless_eq_ok_iff.mpr ⟨hn, rfl⟩
    | pow hn => exact if_pos hn
    | powNeg hn hm hfits hpow =>
        rw [intOp, if_neg (Int.not_le.mpr hn)]
        exact bind_eq_ok_iff.mpr ⟨_, floatOf_eq_ok_iff.mpr ⟨hm, rfl⟩,
          bind_eq_ok_iff.mpr ⟨_, floatOf_eq_ok_iff.mpr ⟨hfits, rfl⟩, hpow⟩⟩

/-- And those of floats. -/
theorem floatOp_eq_ok_iff {x y : Float} :
    floatOp rt op x y = .ok value ↔ FloatComputes rt x y op value := by
  have hnonzero : ¬ (y == 0) = true ↔ (y == 0) = false := Bool.not_eq_true _ ▸ Iff.rfl
  constructor
  · intro h
    cases op with
    | add => cases h; exact .add
    | sub => cases h; exact .sub
    | mult => cases h; exact .mult
    | div =>
        obtain ⟨hy, heq⟩ := unless_eq_ok_iff.mp h
        cases heq
        exact .div (hnonzero.mp hy)
    | floorDiv =>
        obtain ⟨hy, heq⟩ := unless_eq_ok_iff.mp h
        cases heq
        exact .floorDiv (hnonzero.mp hy)
    | mod =>
        obtain ⟨hy, heq⟩ := unless_eq_ok_iff.mp h
        cases heq
        exact .mod (hnonzero.mp hy)
    | pow => exact .pow h
    | other => cases h
  · intro h
    cases h with
    | add => rfl
    | sub => rfl
    | mult => rfl
    | div hy => exact unless_eq_ok_iff.mpr ⟨hnonzero.mpr hy, rfl⟩
    | floorDiv hy => exact unless_eq_ok_iff.mpr ⟨hnonzero.mpr hy, rfl⟩
    | mod hy => exact unless_eq_ok_iff.mpr ⟨hnonzero.mpr hy, rfl⟩
    | pow hpow => exact hpow

/-- And those of complex numbers. -/
theorem complexOp_eq_ok_iff {a b : Float × Float} :
    complexOp rt op a b = .ok value ↔ ComplexComputes rt a b op value := by
  constructor
  · intro h
    cases op with
    | add => cases h; exact .add
    | sub => cases h; exact .sub
    | mult => cases h; exact .mult
    | div =>
        obtain ⟨z, hdiv, rfl⟩ := map_eq_ok_iff.mp h
        exact .div hdiv
    | pow =>
        obtain ⟨z, hpow, rfl⟩ := map_eq_ok_iff.mp h
        exact .pow hpow
    | floorDiv => cases h
    | mod => cases h
    | other => cases h
  · intro h
    cases h with
    | add => rfl
    | sub => rfl
    | mult => rfl
    | div hdiv => exact map_eq_ok_iff.mpr ⟨_, hdiv, rfl⟩
    | pow hpow => exact map_eq_ok_iff.mpr ⟨_, hpow, rfl⟩

/-- The conversion to a complex number. -/
theorem toComplex_eq_ok_iff {a : Num} {z : Float × Float} :
    a.toComplex = .ok z ↔ a.Widens z := by
  constructor
  · intro h
    cases a with
    | int n =>
        obtain ⟨x, hx, rfl⟩ := map_eq_ok_iff.mp h
        obtain ⟨hfits, rfl⟩ := floatOf_eq_ok_iff.mp hx
        exact .int hfits
    | float x => cases h; exact .float x
    | complex w => cases h; exact .complex _
  · intro h
    cases h with
    | int hfits => exact map_eq_ok_iff.mpr ⟨_, floatOf_eq_ok_iff.mpr ⟨hfits, rfl⟩, rfl⟩
    | float => rfl
    | complex => rfl

/-- Complex numbers on one side. -/
theorem numOp_of_isComplex {a b : Num} (h : a.IsComplex ∨ b.IsComplex) :
    numOp rt op a b = if op = .floorDiv ∨ op = .mod then raised .typeError
      else a.toComplex.bind fun a => b.toComplex.bind fun b => complexOp rt op a b := by
  cases a <;> cases b <;> simp [Num.IsComplex] at h <;> rfl

/-- Of two numbers the narrower one is converted first. -/
theorem numOp_eq_ok_iff {a b : Num} :
    numOp rt op a b = .ok value ↔ NumComputes rt op a b value := by
  constructor
  · intro h
    by_cases hcomplex : a.IsComplex ∨ b.IsComplex
    · rw [numOp_of_isComplex hcomplex] at h
      obtain ⟨-, hrest⟩ := unless_eq_ok_iff.mp h
      obtain ⟨z, hz, hrest⟩ := bind_eq_ok_iff.mp hrest
      obtain ⟨w, hw, hop⟩ := bind_eq_ok_iff.mp hrest
      exact .complexes hcomplex (toComplex_eq_ok_iff.mp hz) (toComplex_eq_ok_iff.mp hw)
        (complexOp_eq_ok_iff.mp hop)
    · obtain ⟨ha, hb⟩ := not_or.mp hcomplex
      cases a with
      | complex => exact absurd trivial ha
      | int m =>
          cases b with
          | complex => exact absurd trivial hb
          | int n => exact .ints (intOp_eq_ok_iff.mp h)
          | float y =>
              obtain ⟨x, hx, hop⟩ := bind_eq_ok_iff.mp h
              obtain ⟨hfits, rfl⟩ := floatOf_eq_ok_iff.mp hx
              exact .intFloat hfits (floatOp_eq_ok_iff.mp hop)
      | float x =>
          cases b with
          | complex => exact absurd trivial hb
          | int n =>
              obtain ⟨y, hy, hop⟩ := bind_eq_ok_iff.mp h
              obtain ⟨hfits, rfl⟩ := floatOf_eq_ok_iff.mp hy
              exact .floatInt hfits (floatOp_eq_ok_iff.mp hop)
          | float y => exact .floats (floatOp_eq_ok_iff.mp h)
  · intro h
    cases h with
    | ints h => exact intOp_eq_ok_iff.mpr h
    | intFloat hfits h =>
        exact bind_eq_ok_iff.mpr
          ⟨_, floatOf_eq_ok_iff.mpr ⟨hfits, rfl⟩, floatOp_eq_ok_iff.mpr h⟩
    | floatInt hfits h =>
        exact bind_eq_ok_iff.mpr
          ⟨_, floatOf_eq_ok_iff.mpr ⟨hfits, rfl⟩, floatOp_eq_ok_iff.mpr h⟩
    | floats h => exact floatOp_eq_ok_iff.mpr h
    | complexes hcomplex ha hb h =>
        have hop : ¬ (op = .floorDiv ∨ op = .mod) := by
          rintro (rfl | rfl) <;> cases h
        rw [numOp_of_isComplex hcomplex]
        exact unless_eq_ok_iff.mpr ⟨hop, bind_eq_ok_iff.mpr ⟨_, toComplex_eq_ok_iff.mpr ha,
          bind_eq_ok_iff.mpr ⟨_, toComplex_eq_ok_iff.mpr hb, complexOp_eq_ok_iff.mpr h⟩⟩⟩

/-- There can be so many copies. -/
theorem repeated_eq_ok_iff {length : Nat} {n : Int} {copies : Nat → Value} :
    repeated length n copies = .ok value ↔ Repeatable length n ∧ copies n.toNat = value := by
  have hrange : ¬ (n < -2 ^ 63 ∨ 2 ^ 63 ≤ n ∨ 2 ^ 63 ≤ length * n) ↔ Repeatable length n := by
    unfold Repeatable
    omega
  rw [repeated, unless_eq_ok_iff, hrange, Except.ok.injEq]

/-- A text is repeated. -/
theorem repeatOp_eq_ok_iff {n : Int} {a : Value} :
    repeatOp a n = .ok value ↔ Repeats n a value := by
  constructor
  · intro h
    cases a with
    | str s =>
        rw [repeatOp] at h
        obtain ⟨hrange, rfl⟩ := repeated_eq_ok_iff.mp h
        exact .str hrange
    | bytes bs =>
        rw [repeatOp] at h
        obtain ⟨hrange, rfl⟩ := repeated_eq_ok_iff.mp h
        exact .bytes hrange
    | none => cases h
    | ellipsis => cases h
    | bool => cases h
    | int => cases h
    | float => cases h
    | complex => cases h
  · intro h
    cases h with
    | str h =>
        rw [repeatOp]
        exact repeated_eq_ok_iff.mpr ⟨h, rfl⟩
    | bytes h =>
        rw [repeatOp]
        exact repeated_eq_ok_iff.mpr ⟨h, rfl⟩

/-- A text is no number of copies. -/
theorem Repeats.index? {n : Int} {a : Value} (h : Repeats n a value) : a.index? = none := by
  cases h <;> rfl

/-- The operators of texts. -/
theorem textOp_eq_ok_iff {a b : Value} :
    textOp rt op a b = .ok value ↔ TextComputes rt op a b value := by
  constructor
  · intro h
    unfold textOp at h
    split at h
    · cases h; exact .addStr _ _
    · cases h; exact .addBytes _ _
    · split at h
      · next hn => exact .multRight hn (repeatOp_eq_ok_iff.mp h)
      · next hn _ => exact .multLeft hn (repeatOp_eq_ok_iff.mp h)
      · cases h
    · obtain ⟨t, ht, rfl⟩ := map_eq_ok_iff.mp h
      exact .modStr ht
    · obtain ⟨cs, hcs, rfl⟩ := map_eq_ok_iff.mp h
      exact .modBytes hcs
    · cases h
  · intro h
    cases h with
    | addStr => rfl
    | addBytes => rfl
    | multRight hn h =>
        simp only [textOp, hn]
        exact repeatOp_eq_ok_iff.mpr h
    | multLeft hn h =>
        simp only [textOp, hn, h.index?]
        exact repeatOp_eq_ok_iff.mpr h
    | modStr h => exact map_eq_ok_iff.mpr ⟨_, h, rfl⟩
    | modBytes h => exact map_eq_ok_iff.mpr ⟨_, h, rfl⟩

/-- Where an operator of texts is defined, a side is no number. -/
theorem TextComputes.num? {a b : Value} (h : TextComputes rt op a b value) :
    a.num? = none ∨ b.num? = none := by
  cases h with
  | addStr => exact .inl rfl
  | addBytes => exact .inl rfl
  | multRight hn h => exact .inl (by cases h <;> rfl)
  | multLeft hn h => exact .inr (by cases h <;> rfl)
  | modStr => exact .inl rfl
  | modBytes => exact .inl rfl

/-- The binary operators. -/
theorem binaryOp_eq_ok_iff {a b : Value} :
    binaryOp rt op a b = .ok value ↔ BinaryComputes rt op a b value := by
  constructor
  · intro h
    unfold binaryOp at h
    split at h
    · next ha hb => exact .nums ha hb (numOp_eq_ok_iff.mp h)
    · exact .texts (textOp_eq_ok_iff.mp h)
  · intro h
    cases h with
    | nums ha hb h =>
        simp only [binaryOp, ha, hb]
        exact numOp_eq_ok_iff.mpr h
    | texts h =>
        have htext := textOp_eq_ok_iff.mpr h
        unfold binaryOp
        split
        · next ha hb =>
            obtain hnone | hnone := h.num?
            · rw [hnone] at ha
              cases ha
            · rw [hnone] at hb
              cases hb
        · exact htext

/-- The signs. -/
theorem unaryOp_eq_ok_iff {op : UnaryOp} {a : Value} :
    unaryOp op a = .ok value ↔ UnaryComputes a op value := by
  constructor
  · intro h
    unfold unaryOp at h
    split at h
    · next ha => cases h; exact .plusInt ha
    · next ha => cases h; exact .plusFloat ha
    · next ha => cases h; exact .plusComplex ha
    · next ha => cases h; exact .minusInt ha
    · next ha => cases h; exact .minusFloat ha
    · next ha => cases h; exact .minusComplex ha
    · cases h
  · intro h
    cases h with
    | plusInt ha => simp only [unaryOp, ha]
    | plusFloat ha => simp only [unaryOp, ha]
    | plusComplex ha => simp only [unaryOp, ha]
    | minusInt ha => simp only [unaryOp, ha]
    | minusFloat ha => simp only [unaryOp, ha]
    | minusComplex ha => simp only [unaryOp, ha]

/-- There is memory for the value. -/
theorem allocated_eq_ok_iff {a : Value} :
    allocated rt a = .ok value ↔ rt.allocates a = true ∧ a = value := by
  rw [allocated, given_eq_ok_iff, Except.ok.injEq]

end Operators

/-- The evaluator returns what the rules compute. -/
theorem eval_eq_ok_iff {rt : Runtime} {tree : Expr} {value : Value} :
    eval rt tree = .ok value ↔ tree.Computes rt value := by
  induction tree generalizing value with
  | constant c =>
      constructor
      · intro h
        cases h
        exact .constant _
      · intro h
        cases h
        rfl
  | unaryOp op operand ih =>
      constructor
      · intro h
        obtain ⟨a, ha, hrest⟩ := bind_eq_ok_iff.mp h
        obtain ⟨value', hop, hkept⟩ := bind_eq_ok_iff.mp hrest
        obtain ⟨hmemory, rfl⟩ := allocated_eq_ok_iff.mp hkept
        exact .unaryOp (ih.mp ha) (unaryOp_eq_ok_iff.mp hop) hmemory
      · intro h
        cases h with
        | unaryOp ha h hmemory =>
            exact bind_eq_ok_iff.mpr ⟨_, ih.mpr ha, bind_eq_ok_iff.mpr
              ⟨_, unaryOp_eq_ok_iff.mpr h, allocated_eq_ok_iff.mpr ⟨hmemory, rfl⟩⟩⟩
  | binOp left op right ihl ihr =>
      constructor
      · intro h
        obtain ⟨a, ha, hrest⟩ := bind_eq_ok_iff.mp h
        obtain ⟨b, hb, hrest⟩ := bind_eq_ok_iff.mp hrest
        obtain ⟨value', hop, hkept⟩ := bind_eq_ok_iff.mp hrest
        obtain ⟨hmemory, rfl⟩ := allocated_eq_ok_iff.mp hkept
        exact .binOp (ihl.mp ha) (ihr.mp hb) (binaryOp_eq_ok_iff.mp hop) hmemory
      · intro h
        cases h with
        | binOp ha hb h hmemory =>
            exact bind_eq_ok_iff.mpr ⟨_, ihl.mpr ha, bind_eq_ok_iff.mpr ⟨_, ihr.mpr hb,
              bind_eq_ok_iff.mpr ⟨_, binaryOp_eq_ok_iff.mpr h,
                allocated_eq_ok_iff.mpr ⟨hmemory, rfl⟩⟩⟩⟩
  | other =>
      constructor
      · intro h
        cases h
      · intro h
        cases h

/-! ## ValueError -/

/-- No `ValueError` is raised. -/
def Quiet {α : Type} (x : Except (PyError × String) α) : Prop :=
  ∀ text, x ≠ .error (.valueError, text)

section Quiet

variable {α β : Type} {x y : Except (PyError × String) α} {rt : Runtime}

/-- A value is no exception. -/
theorem quiet_ok (a : α) : Quiet (.ok a) := fun _ h => by cases h

/-- Nor is another exception a `ValueError`. -/
theorem quiet_raised {e : PyError} (he : e ≠ .valueError) :
    Quiet (raised e : Except (PyError × String) α) := by
  intro text h
  cases h
  exact he rfl

theorem quiet_typeError : Quiet (raised .typeError : Except (PyError × String) α) :=
  quiet_raised (by decide)

theorem quiet_zeroDivisionError : Quiet (raised .zeroDivisionError : Except (PyError × String) α) :=
  quiet_raised (by decide)

theorem quiet_overflowError : Quiet (raised .overflowError : Except (PyError × String) α) :=
  quiet_raised (by decide)

/-- One after the other. -/
theorem Quiet.bind {f : α → Except (PyError × String) β} (hx : Quiet x)
    (hf : ∀ a, Quiet (f a)) : Quiet (x.bind f) := by
  intro text h
  obtain h | ⟨a, -, h⟩ := bind_eq_error_iff.mp h
  · exact hx text h
  · exact hf a text h

/-- A function raises nothing. -/
theorem Quiet.map {f : α → β} (hx : Quiet x) : Quiet (x.map f) := fun text h =>
  hx text (map_eq_error_iff.mp h)

/-- On both branches. -/
theorem Quiet.ite {c : Prop} [Decidable c] (hx : Quiet x) (hy : Quiet y) :
    Quiet (if c then x else y) := by
  split
  · exact hx
  · exact hy

theorem quiet_floatOf (n : Int) : Quiet (floatOf n) := (quiet_ok _).ite quiet_overflowError

theorem quiet_complexPow (a b : Float × Float) : Quiet (complexPow rt a b) := by
  unfold complexPow
  refine quiet_zeroDivisionError.ite ?_
  split
  · exact quiet_zeroDivisionError
  · exact quiet_overflowError.ite (quiet_ok _)

theorem quiet_complexDiv (a b : Float × Float) : Quiet (complexDiv a b) := by
  unfold complexDiv
  exact (quiet_zeroDivisionError.ite (quiet_ok _)).ite ((quiet_ok _).ite (quiet_ok _))

theorem quiet_floatPow (x y : Float) : Quiet (floatPow rt x y) := by
  unfold floatPow
  exact (quiet_ok _).ite <| (quiet_ok _).ite <| (quiet_ok _).ite <|
    ((quiet_ok _).ite (quiet_ok _)).ite <| ((quiet_ok _).ite (quiet_ok _)).ite <|
    (quiet_zeroDivisionError.ite (quiet_ok _)).ite <| (quiet_complexPow _ _).map.ite <|
    (quiet_ok _).ite (quiet_overflowError.ite (quiet_ok _))

theorem quiet_intOp (op : BinaryOp) (m n : Int) : Quiet (intOp rt op m n) := by
  cases op with
  | add => exact quiet_ok _
  | sub => exact quiet_ok _
  | mult => exact quiet_ok _
  | div => exact quiet_zeroDivisionError.ite ((quiet_ok _).ite quiet_overflowError)
  | floorDiv => exact quiet_zeroDivisionError.ite (quiet_ok _)
  | mod => exact quiet_zeroDivisionError.ite (quiet_ok _)
  | pow =>
      exact (quiet_ok _).ite ((quiet_floatOf m).bind fun x =>
        (quiet_floatOf n).bind fun y => quiet_floatPow x y)
  | other => exact quiet_typeError

theorem quiet_floatOp (op : BinaryOp) (x y : Float) : Quiet (floatOp rt op x y) := by
  cases op with
  | add => exact quiet_ok _
  | sub => exact quiet_ok _
  | mult => exact quiet_ok _
  | div => exact quiet_zeroDivisionError.ite (quiet_ok _)
  | floorDiv => exact quiet_zeroDivisionError.ite (quiet_ok _)
  | mod => exact quiet_zeroDivisionError.ite (quiet_ok _)
  | pow => exact quiet_floatPow x y
  | other => exact quiet_typeError

theorem quiet_complexOp (op : BinaryOp) (a b : Float × Float) : Quiet (complexOp rt op a b) := by
  cases op with
  | add => exact quiet_ok _
  | sub => exact quiet_ok _
  | mult => exact quiet_ok _
  | div => exact (quiet_complexDiv a b).map
  | pow => exact (quiet_complexPow a b).map
  | floorDiv => exact quiet_typeError
  | mod => exact quiet_typeError
  | other => exact quiet_typeError

theorem quiet_toComplex (a : Num) : Quiet a.toComplex := by
  cases a with
  | int n => exact (quiet_floatOf n).map
  | float x => exact quiet_ok _
  | complex z => exact quiet_ok _

theorem quiet_numOp (op : BinaryOp) (a b : Num) : Quiet (numOp rt op a b) := by
  by_cases hcomplex : a.IsComplex ∨ b.IsComplex
  · rw [numOp_of_isComplex hcomplex]
    exact quiet_typeError.ite ((quiet_toComplex a).bind fun z =>
      (quiet_toComplex b).bind fun w => quiet_complexOp op z w)
  · obtain ⟨ha, hb⟩ := not_or.mp hcomplex
    cases a with
    | complex => exact absurd trivial ha
    | int m =>
        cases b with
        | complex => exact absurd trivial hb
        | int n => exact quiet_intOp op m n
        | float y => exact (quiet_floatOf m).bind fun x => quiet_floatOp op x y
    | float x =>
        cases b with
        | complex => exact absurd trivial hb
        | int n => exact (quiet_floatOf n).bind fun y => quiet_floatOp op x y
        | float y => exact quiet_floatOp op x y

theorem quiet_repeatOp (a : Value) (n : Int) : Quiet (repeatOp a n) := by
  cases a with
  | str s => exact quiet_overflowError.ite (quiet_ok _)
  | bytes bs => exact quiet_overflowError.ite (quiet_ok _)
  | none => exact quiet_typeError
  | ellipsis => exact quiet_typeError
  | bool => exact quiet_typeError
  | int => exact quiet_typeError
  | float => exact quiet_typeError
  | complex => exact quiet_typeError

theorem quiet_unaryOp (op : UnaryOp) (a : Value) : Quiet (unaryOp op a) := by
  unfold unaryOp
  split
  all_goals first | exact quiet_ok _ | exact quiet_typeError

theorem quiet_allocated (a : Value) : Quiet (allocated rt a) :=
  (quiet_ok _).ite (quiet_raised (by decide))

/-- Only the format of a text raises a `ValueError`. -/
theorem textOp_eq_valueError_iff {op : BinaryOp} {a b : Value} {text : String} :
    textOp rt op a b = .error (.valueError, text) ↔ op = .mod ∧
      ((∃ s, a = .str s ∧ rt.formatStr s b = .error (.valueError, text)) ∨
        ∃ bs, a = .bytes bs ∧ rt.formatBytes bs b = .error (.valueError, text)) := by
  constructor
  · intro h
    unfold textOp at h
    split at h
    · exact absurd h (quiet_ok _ _)
    · exact absurd h (quiet_ok _ _)
    · split at h
      · exact absurd h (quiet_repeatOp _ _ _)
      · exact absurd h (quiet_repeatOp _ _ _)
      · exact absurd h (quiet_typeError _)
    · exact ⟨rfl, .inl ⟨_, rfl, map_eq_error_iff.mp h⟩⟩
    · exact ⟨rfl, .inr ⟨_, rfl, map_eq_error_iff.mp h⟩⟩
    · exact absurd h (quiet_typeError _)
  · rintro ⟨rfl, ⟨s, rfl, h⟩ | ⟨bs, rfl, h⟩⟩
    · exact map_eq_error_iff.mpr h
    · exact map_eq_error_iff.mpr h

/-- Of the binary operators only the formatting of a text raises a `ValueError`. -/
theorem binaryOp_eq_valueError_iff {op : BinaryOp} {a b : Value} {text : String} :
    binaryOp rt op a b = .error (.valueError, text) ↔ op = .mod ∧
      ((∃ s, a = .str s ∧ rt.formatStr s b = .error (.valueError, text)) ∨
        ∃ bs, a = .bytes bs ∧ rt.formatBytes bs b = .error (.valueError, text)) := by
  rw [← textOp_eq_valueError_iff]
  unfold binaryOp
  split
  · next x y ha hb =>
      constructor
      · intro h
        exact absurd h (quiet_numOp op x y text)
      · intro h
        obtain ⟨-, ⟨s, rfl, -⟩ | ⟨bs, rfl, -⟩⟩ := textOp_eq_valueError_iff.mp h
        · cases ha
        · cases ha
  · exact Iff.rfl

end Quiet

/-- The evaluator raises a `ValueError` where the rules reject the tree. -/
theorem eval_eq_valueError_iff {rt : Runtime} {tree : Expr} {text : String} :
    eval rt tree = .error (.valueError, text) ↔ tree.Rejected rt text := by
  induction tree with
  | constant c =>
      constructor
      · intro h
        cases h
      · intro h
        cases h
  | unaryOp op operand ih =>
      constructor
      · intro h
        obtain h | ⟨a, -, h⟩ := bind_eq_error_iff.mp h
        · exact .operand (ih.mp h)
        · exact absurd h ((quiet_unaryOp op a).bind quiet_allocated text)
      · intro h
        cases h with
        | operand h => exact bind_eq_error_iff.mpr (.inl (ih.mpr h))
  | binOp left op right ihl ihr =>
      constructor
      · intro h
        obtain h | ⟨a, ha, h⟩ := bind_eq_error_iff.mp h
        · exact .left (ihl.mp h)
        · obtain h | ⟨b, hb, h⟩ := bind_eq_error_iff.mp h
          · exact .right (eval_eq_ok_iff.mp ha) (ihr.mp h)
          · obtain h | ⟨value, -, h⟩ := bind_eq_error_iff.mp h
            · obtain ⟨rfl, ⟨s, rfl, hformat⟩ | ⟨bs, rfl, hformat⟩⟩ :=
                binaryOp_eq_valueError_iff.mp h
              · exact .str (eval_eq_ok_iff.mp ha) (eval_eq_ok_iff.mp hb) hformat
              · exact .bytes (eval_eq_ok_iff.mp ha) (eval_eq_ok_iff.mp hb) hformat
            · exact absurd h (quiet_allocated value text)
      · intro h
        have hop {a b : Value} (ha : left.Computes rt a) (hb : right.Computes rt b)
            (h : binaryOp rt op a b = .error (.valueError, text)) :
            eval rt (.binOp left op right) = .error (.valueError, text) :=
          bind_eq_error_iff.mpr (.inr ⟨a, eval_eq_ok_iff.mpr ha, bind_eq_error_iff.mpr
            (.inr ⟨b, eval_eq_ok_iff.mpr hb, bind_eq_error_iff.mpr (.inl h)⟩)⟩)
        cases h with
        | left h => exact bind_eq_error_iff.mpr (.inl (ihl.mpr h))
        | right ha h =>
            exact bind_eq_error_iff.mpr (.inr ⟨_, eval_eq_ok_iff.mpr ha,
              bind_eq_error_iff.mpr (.inl (ihr.mpr h))⟩)
        | str ha hb h =>
            exact hop ha hb (binaryOp_eq_valueError_iff.mpr ⟨rfl, .inl ⟨_, rfl, h⟩⟩)
        | bytes ha hb h =>
            exact hop ha hb (binaryOp_eq_valueError_iff.mpr ⟨rfl, .inr ⟨_, rfl, h⟩⟩)
  | other =>
      constructor
      · intro h
        exact absurd h (quiet_typeError text)
      · intro h
        cases h

end SafeMath

end RubicaBot
