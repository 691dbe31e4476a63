import RubicaBot.PyVal
import Mathlib.Algebra.Ring.Int.Defs

/-!
# RubicaBot.SafeMath

`safe_eval` of `app/utils/safe_math.py`: an expression of at most 80 characters is parsed,
refused if it has a node outside `ALLOWED_NODES`, and evaluated by the interpreter.

What the interpreter does with the operators is here as well, operator by operator with
the exceptions that each raises.  Integers are unbounded, floats are Lean's, and so are
`pow` and `floor` of the C library.  The parser, the memory, `fmod`, the complex power and
the `%` of strings are parameters, `Runtime`.
-/

namespace RubicaBot

open Py

namespace SafeMath

/-- The constants of an expression and the values of its nodes. -/
inductive Value where
  | none
  | ellipsis
  | bool (b : Bool)
  | int (n : Int)
  | float (x : Float)
  | complex (z : Float × Float)
  | str (s : String)
  | bytes (bs : List UInt8)

/-- The classes of unary operators; `other` are `ast.Not` and `ast.Invert`. -/
inductive UnaryOp where
  | uadd | usub | other
  deriving DecidableEq, Repr

/-- The classes of binary operators; `other` are `ast.MatMult`, the shifts and the bitwise
ones. -/
inductive BinaryOp where
  | add | sub | mult | div | floorDiv | mod | pow | other
  deriving DecidableEq, Repr

/-- The tree of an expression. -/
inductive Expr where
  | constant (value : Value)
  | unaryOp (op : UnaryOp) (operand : Expr)
  | binOp (left : Expr) (op : BinaryOp) (right : Expr)
  /-- A node of any other class, with all that is below it. -/
  | other

/-- The classes of the nodes that `ast.walk` visits. -/
inductive Node where
  | expression | binOp | unaryOp | constant | other
  | unary (op : UnaryOp)
  | binary (op : BinaryOp)
  deriving DecidableEq, Repr

/-- `ALLOWED_NODES`. -/
def allowedNodes : List Node :=
  [.expression, .binOp, .unaryOp, .binary .add, .binary .sub, .binary .mult, .binary .div,
    .binary .floorDiv, .binary .mod, .binary .pow, .unary .uadd, .unary .usub, .constant]

/-- The nodes of the tree. -/
def Expr.nodes : Expr → List Node
  | constant _ => [.constant]
  | unaryOp op operand => .unaryOp :: .unary op :: operand.nodes
  | binOp left op right => .binOp :: .binary op :: (left.nodes ++ right.nodes)
  | other => [.other]

/-- `ast.walk` over the parsed expression meets allowed nodes only. -/
def Expr.Allowed (tree : Expr) : Prop := ∀ node ∈ .expression :: tree.nodes, node ∈ allowedNodes

instance (tree : Expr) : Decidable tree.Allowed := List.decidableBAll _ _

/-- What `safe_eval` takes from the interpreter. -/
structure Runtime where
  /-- `ast.parse(expression, mode="eval")`. -/
  parse : String → Except (PyError × String) Expr
  /-- Whether there is memory for the value. -/
  allocates : Value → Bool
  /-- `fmod` of the C library. -/
  fmod : Float → Float → Float
  /-- The power of two complex numbers, unless a divisor vanishes on the way. -/
  complexPow : Float × Float → Float × Float → Option (Float × Float)
  /-- `s % value`. -/
  formatStr : String → Value → Except (PyError × String) String
  /-- `bs % value`. -/
  formatBytes : List UInt8 → Value → Except (PyError × String) (List UInt8)
  /-- `f"{x:g}"`. -/
  general : Float → String

/-- An exception whose text is not read. -/
def raised {α : Type} (e : PyError) : Except (PyError × String) α := .error (e, "")

/-! ## floats -/

/-- The sign bit is set. -/
def signBit (x : Float) : Bool := x.toBits >>> 63 == 1

/-- `fabs(x)`. -/
def fabs (x : Float) : Float := if signBit x then -x else x

/-- `copysign(0.0, x)`. -/
def zeroLike (x : Float) : Float := if signBit x then -0 else 0

/-- `float(n)`. -/
def floatOf (n : Int) : Except (PyError × String) Float :=
  if (Float.ofInt n).isFinite then .ok (Float.ofInt n) else raised .overflowError

open Float.Model in
/-- The quotient of two integers, rounded once. -/
def quotient (m n : Int) : Float :=
  let exact (n : Int) : UnpackedFloat :=
    if h : n = 0 then .zero .positive
    else .finite (if n < 0 then .negative else .positive) n.natAbs 0 (Int.natAbs_pos.mpr h)
  .ofModel (pack (.div .binary64 (exact m) (exact n)))

variable (rt : Runtime)

/-- `DOUBLE_IS_ODD_INTEGER(x)`. -/
def isOdd (x : Float) : Bool := rt.fmod (fabs x) 2 == 1

/-- The remainder, which has the sign of the divisor. -/
def floatMod (x y : Float) : Float :=
  let mod := rt.fmod x y
  if mod == 0 then zeroLike y
  else if decide (y < 0) != decide (mod < 0) then mod + y
  else mod

/-- The quotient without the remainder, snapped to an integer. -/
def floatFloorDiv (x y : Float) : Float :=
  let mod := rt.fmod x y
  let div := (x - mod) / y
  let div := if !(mod == 0) && decide (y < 0) != decide (mod < 0) then div - 1 else div
  if div == 0 then zeroLike (x / y)
  else if 0.5 < div - div.floor then div.floor + 1
  else div.floor

/-- `complex.__pow__`. -/
def complexPow (a b : Float × Float) : Except (PyError × String) (Float × Float) :=
  if a.1 == 0 && a.2 == 0 && (decide (b.1 < 0) || !(b.2 == 0)) then raised .zeroDivisionError
  else
    match rt.complexPow a b with
    | none => raised .zeroDivisionError
    | some z => if z.1.isInf || z.2.isInf then raised .overflowError else .ok z

/-- `complex.__truediv__`. -/
def complexDiv (a b : Float × Float) : Except (PyError × String) (Float × Float) :=
  if fabs b.2 ≤ fabs b.1 then
    if b.1 == 0 then raised .zeroDivisionError
    else
      let ratio := b.2 / b.1
      let denom := b.1 + b.2 * ratio
      .ok ((a.1 + a.2 * ratio) / denom, (a.2 - a.1 * ratio) / denom)
  else if fabs b.1 ≤ fabs b.2 then
    let ratio := b.1 / b.2
    let denom := b.1 * ratio + b.2
    .ok ((a.1 * ratio + a.2) / denom, (a.2 * ratio - a.1) / denom)
  else .ok (0 / 0, 0 / 0)

/-- `float.__pow__`. -/
def floatPow (x y : Float) : Except (PyError × String) Value :=
  if y == 0 then .ok (.float 1)
  else if x.isNaN then .ok (.float x)
  else if y.isNaN then .ok (.float (if x == 1 then 1 else y))
  else if y.isInf then
    if fabs x == 1 then .ok (.float 1)
    else .ok (.float (if decide (0 < y) == decide (1 < fabs x) then fabs y else 0))
  else if x.isInf then
    if 0 < y then .ok (.float (if isOdd rt y then x else fabs x))
    else .ok (.float (if isOdd rt y then zeroLike x else 0))
  else if x == 0 then
    if y < 0 then raised .zeroDivisionError
    else .ok (.float (if isOdd rt y then x else 0))
  else if x < 0 ∧ !(y == y.floor) then (complexPow rt (x, 0) (y, 0)).map .complex
  else
    let negate := decide (x < 0) && isOdd rt y
    if fabs x == 1 then .ok (.float (if negate then -1 else 1))
    else
      let power := (fabs x).pow y
      if power.isInf then raised .overflowError
      else .ok (.float (if negate then -power else power))

/-! ## operators -/

/-- The numbers among the values; a truth value is an integer. -/
inductive Num where
  | int (n : Int)
  | float (x : Float)
  | complex (z : Float × Float)

/-- The number, if the value is one. -/
def Value.num? : Value → Option Num
  | bool b => some (.int (if b then 1 else 0))
  | int n => some (.int n)
  | float x => some (.float x)
  | complex z => some (.complex z)
  | _ => Option.none

/-- The integer, which may count repetitions. -/
def Value.index? : Value → Option Int
  | bool b => some (if b then 1 else 0)
  | int n => some n
  | _ => Option.none

/-- The number as a complex one; an integer may be too large for it. -/
def Num.toComplex : Num → Except (PyError × String) (Float × Float)
  | int n => (floatOf n).map fun x => (x, 0)
  | float x => .ok (x, 0)
  | complex z => .ok z

/-- The operators of integers. -/
def intOp (op : BinaryOp) (m n : Int) : Except (PyError × String) Value :=
  match op with
  | .add => .ok (.int (m + n))
  | .sub => .ok (.int (m - n))
  | .mult => .ok (.int (m * n))
  | .div =>
      if n = 0 then raised .zeroDivisionError
      else if (quotient m n).isFinite then .ok (.float (quotient m n))
      else raised .overflowError
  | .floorDiv => if n = 0 then raised .zeroDivisionError else .ok (.int (m.fdiv n))
  | .mod => if n = 0 then raised .zeroDivisionError else .ok (.int (m.fmod n))
  | .pow =>
      if 0 ≤ n then .ok (.int (m ^ n.toNat))
      else (floatOf m).bind fun x => (floatOf n).bind fun y => floatPow rt x y
  | .other => raised .typeError

/-- The operators of floats. -/
def floatOp (op : BinaryOp) (x y : Float) : Except (PyError × String) Value :=
  match op with
  | .add => .ok (.float (x + y))
  | .sub => .ok (.float (x - y))
  | .mult => .ok (.float (x * y))
  | .div => if y == 0 then raised .zeroDivisionError else .ok (.float (x / y))
  | .floorDiv =>
      if y == 0 then raised .zeroDivisionError else .ok (.float (floatFloorDiv rt x y))
  | .mod => if y == 0 then raised .zeroDivisionError else .ok (.float (floatMod rt x y))
  | .pow => floatPow rt x y
  | .other => raised .typeError

/-- The operators of complex numbers. -/
def complexOp (op : BinaryOp) (a b : Float × Float) : Except (PyError × String) Value :=
  match op with
  | .add => .ok (.complex (a.1 + b.1, a.2 + b.2))
  | .sub => .ok (.complex (a.1 - b.1, a.2 - b.2))
  | .mult => .ok (.complex (a.1 * b.1 - a.2 * b.2, a.1 * b.2 + a.2 * b.1))
  | .div => (complexDiv a b).map .complex
  | .pow => (complexPow rt a b).map .complex
  | .floorDiv | .mod | .other => raised .typeError

/-- The operators of numbers; the narrower one is converted. -/
def numOp (op : BinaryOp) : Num → Num → Except (PyError × String) Value
  | .int m, .int n => intOp rt op m n
  | .int m, .float y => (floatOf m).bind fun x => floatOp rt op x y
  | .float x, .int n => (floatOf n).bind fun y => floatOp rt op x y
  | .float x, .float y => floatOp rt op x y
  | a, b =>
      if op = .floorDiv ∨ op = .mod then raised .typeError
      else a.toComplex.bind fun a => b.toComplex.bind fun b => complexOp rt op a b

/-- `n` copies of a sequence of the given length. -/
def repeated (length : Nat) (n : Int) (copies : Nat → Value) : Except (PyError × String) Value :=
  if n < -2 ^ 63 ∨ 2 ^ 63 ≤ n ∨ 2 ^ 63 ≤ length * n then raised .overflowError
  else .ok (copies n.toNat)

/-- `n` copies of the value, if it is a text. -/
def repeatOp (value : Value) (n : Int) : Except (PyError × String) Value :=
  match value with
  | .str s => repeated s.length n fun k => .str (String.join (List.replicate k s))
  | .bytes bs => repeated bs.length n fun k => .bytes (List.replicate k bs).flatten
  | _ => raised .typeError

/-- The operators where one side is not a number. -/
def textOp (op : BinaryOp) (a b : Value) : Except (PyError × String) Value :=
  match op, a, b with
  | .add, .str s, .str t => .ok (.str (s ++ t))
  | .add, .bytes bs, .bytes cs => .ok (.bytes (bs ++ cs))
  | .mult, a, b =>
      match a.index?, b.index? with
      | _, some n => repeatOp a n
      | some n, _ => repeatOp b n
      | _, _ => raised .typeError
  | .mod, .str s, b => (rt.formatStr s b).map .str
  | .mod, .bytes bs, b => (rt.formatBytes bs b).map .bytes
  | _, _, _ => raised .typeError

/-- A binary operator: of two numbers, or else of texts. -/
def binaryOp (op : BinaryOp) (a b : Value) : Except (PyError × String) Value :=
  match a.num?, b.num? with
  | some x, some y => numOp rt op x y
  | _, _ => textOp rt op a b

/-- A sign, which only a number can have. -/
def unaryOp (op : UnaryOp) (a : Value) : Except (PyError × String) Value :=
  match op, a.num? with
  | .uadd, some (.int n) => .ok (.int n)
  | .uadd, some (.float x) => .ok (.float x)
  | .uadd, some (.complex z) => .ok (.complex z)
  | .usub, some (.int n) => .ok (.int (-n))
  | .usub, some (.float x) => .ok (.float (-x))
  | .usub, some (.complex z) => .ok (.complex (-z.1, -z.2))
  | _, _ => raised .typeError

/-! ## evaluation -/

/-- The value, if there is memory for it. -/
def allocated (value : Value) : Except (PyError × String) Value :=
  if rt.allocates value then .ok value else raised .memoryError

/-- `eval(compile(tree, …))`, operands from left to right. -/
def eval : Expr → Except (PyError × String) Value
  | .constant value => .ok value
  | .unaryOp op operand =>
      (eval operand).bind fun a => (unaryOp op a).bind (allocated rt)
  | .binOp left op right =>
      (eval left).bind fun a => (eval right).bind fun b =>
        (binaryOp rt op a b).bind (allocated rt)
  -- no such tree is evaluated
  | .other => raised .typeError

/-- `float(result)` of a number that is not complex. -/
def toFloat : Value → Except (PyError × String) Float
  | .bool b => floatOf (if b then 1 else 0)
  | .int n => floatOf n
  | .float x => .ok x
  | _ => .error (.valueError, "نتیجه نامعتبر است.")

/-- `safe_eval`. -/
def safeEval (expression : String) : Except (PyError × String) Float :=
  if 80 < expression.length then .error (.valueError, "عبارت خیلی طولانی است.")
  else
    (rt.parse expression).bind fun tree =>
      if tree.Allowed then (eval rt tree).bind toFloat
      else .error (.valueError, "عبارت غیرمجاز است.")

end SafeMath

end RubicaBot
