import RubicaBot.PyStr

/-!
# RubicaBot.PyVal

What `json.loads` returns, under Python's rules: truth value, `or`, `.get`,
`str` and `repr`, and the exceptions these raise.

Webhook bodies are untrusted, so a program that reads `payload.get("message")`
gets a value of any JSON type back.  The partial operations return
`Except PyError`, with the exception Python raises.
-/

namespace Py

/-- The exceptions the modelled code can raise. -/
inductive PyError where
  | attributeError
  | typeError
  | indexError
  | unicodeDecodeError
  | overflowError
  | recursionError
  | memoryError
  | syntaxError
  | zeroDivisionError
  | valueError
  /-- `json.JSONDecodeError`. -/
  | jsonDecodeError
  /-- `re.error`, from a pattern that does not compile. -/
  | reError
  /-- `sqlite3` cannot bind the value to a parameter. -/
  | sqliteBinding
  /-- `sqlite3.IntegrityError`. -/
  | sqliteIntegrity
  /-- `sqlite3.OperationalError`, from a column that does not exist. -/
  | sqliteOperational
  /-- What the HTTP client lets through. -/
  | clientError
  deriving DecidableEq, Repr

/-- The least natural number that is converted to no float: it would be rounded to
2 ** 1024.  A sum of floats that is not below it is infinite. -/
@[irreducible] def floatLimit : Nat := 2 ^ 1024 - 2 ^ 970

/-- An operation of an integer and a float converts the integer. -/
def FitsFloat (i : Int) : Prop := i.natAbs < floatLimit

instance (i : Int) : Decidable (FitsFloat i) := inferInstanceAs (Decidable (_ < _))

/-- `except ValueError` catches it. -/
def PyError.isValueError : PyError → Bool
  | .valueError => true
  | .unicodeDecodeError => true
  | .jsonDecodeError => true
  | _ => false

/-- A float, by the two texts the program can turn it into, `repr` and what
SQLite stores for it in a TEXT column (NULL for NaN), and by the integer it is
equal to, if there is one. -/
structure PyFloat where
  repr : String
  sqlText : Option String
  integer : Option Int
  deriving DecidableEq, Repr

/-- A value made by `json.loads`. -/
inductive PyVal where
  | none
  | bool (b : Bool)
  | int (i : Int)
  | float (x : PyFloat)
  | str (s : String)
  | list (xs : List PyVal)
  | dict (entries : List (String × PyVal))
  deriving Inhabited

namespace PyVal

/-- `bool(v)`. -/
def truthy : PyVal → Bool
  | .none => false
  | .bool b => b
  | .int i => i != 0
  | .float x => x.repr != "0.0" && x.repr != "-0.0"
  | .str s => s != ""
  | .list xs => !xs.isEmpty
  | .dict entries => !entries.isEmpty

/-- `a or b`. -/
def or (a b : PyVal) : PyVal := if a.truthy then a else b

/-- `a or b` when evaluating `b` may raise: it is evaluated only if needed. -/
def orElse (a : PyVal) (b : Except PyError PyVal) : Except PyError PyVal :=
  if a.truthy then .ok a else b

/-- `v is None`. -/
def isNone : PyVal → Bool
  | .none => true
  | _ => false

/-- `v == s` for a string `s`. -/
def isStr (v : PyVal) (s : String) : Bool :=
  match v with
  | .str t => t == s
  | _ => false

/-- `v.get(key)`: dictionaries only. -/
def get (v : PyVal) (key : String) : Except PyError PyVal :=
  match v with
  | .dict entries => .ok (((entries.find? fun e => e.1 = key).map Prod.snd).getD .none)
  | _ => .error .attributeError

/-- `isinstance(v, dict)`. -/
def isDict : PyVal → Bool
  | .dict _ => true
  | _ => false

/-- The value under a key, `None` where there is none. -/
def field (v : PyVal) (key : String) : PyVal :=
  match v with
  | .dict entries => ((entries.find? fun e => e.1 = key).map Prod.snd).getD .none
  | _ => .none

/-- The text of a value, if it is a `str`. -/
def str? : PyVal → Option String
  | .str s => some s
  | _ => Option.none

/-- The text of a value that must be a `str` to have the method called on it. -/
def asStr (v : PyVal) : Except PyError String :=
  match v with
  | .str s => .ok s
  | _ => .error .attributeError

/-- `{}`. -/
def emptyDict : PyVal := .dict []

/-! ## keys -/

/-- What two values have in common that are one key of a dictionary: they are
equal and hash alike.  `True`, `1` and `1.0` are one key.  The floats that are no
integer are told apart by their `repr`; the parser makes a single NaN. -/
inductive DictKey where
  | none
  | number (i : Int)
  | float (repr : String)
  | str (s : String)
  deriving DecidableEq

/-- `hash(v)` is defined, and what it identifies: lists and dictionaries are
unhashable. -/
def dictKey : PyVal → Except PyError DictKey
  | .none => .ok .none
  | .bool b => .ok (.number (if b then 1 else 0))
  | .int i => .ok (.number i)
  | .float x =>
      match x.integer with
      | some i => .ok (.number i)
      | Option.none => .ok (.float x.repr)
  | .str s => .ok (.str s)
  | .list _ => .error .typeError
  | .dict _ => .error .typeError

/-- Only a string is the key that a string is. -/
theorem dictKey_eq_str_iff {v : PyVal} {s : String} : v.dictKey = .ok (.str s) ↔ v = .str s := by
  cases v with
  | float x => cases hx : x.integer <;> simp [dictKey, hx]
  | _ => simp [dictKey]

/-! ## repr, str -/

mutual
/-- `repr(v)`. -/
def repr (u : Unicode) : PyVal → String
  | .none => "None"
  | .bool true => "True"
  | .bool false => "False"
  | .int i => toString i
  | .float x => x.repr
  | .str s => reprString u s
  | .list xs => "[" ++ ", ".intercalate (reprList u xs) ++ "]"
  | .dict entries => "\x7b" ++ ", ".intercalate (reprEntries u entries) ++ "\x7d"

/-- The `repr` of each element. -/
def reprList (u : Unicode) : List PyVal → List String
  | [] => []
  | v :: vs => repr u v :: reprList u vs

/-- `key: value` for each entry. -/
def reprEntries (u : Unicode) : List (String × PyVal) → List String
  | [] => []
  | (k, v) :: entries => (reprString u k ++ ": " ++ repr u v) :: reprEntries u entries
end

/-- `str(v)`. -/
def toStr (u : Unicode) : PyVal → String
  | .str s => s
  | v => v.repr u

/-! ## total readings -/

/-- The test is for that string alone. -/
theorem isStr_iff {v : PyVal} {s : String} : v.isStr s ↔ v = .str s := by
  cases v with
  | str t => simp [isStr]
  | _ => simp [isStr]

/-- A dictionary has `get`. -/
theorem get_of_isDict {v : PyVal} (h : v.isDict = true) (key : String) :
    v.get key = .ok (v.field key) := by
  cases v with
  | dict entries => rfl
  | _ => cases h

/-- Nothing else has. -/
theorem get_of_not_isDict {v : PyVal} (h : v.isDict = false) (key : String) :
    v.get key = .error .attributeError := by
  cases v with
  | dict entries => cases h
  | _ => rfl

@[simp] theorem orElse_ok (a b : PyVal) : a.orElse (.ok b) = .ok (a.or b) := by
  unfold orElse or
  split <;> rfl

@[simp] theorem field_emptyDict (key : String) : emptyDict.field key = .none := rfl

/-- A dictionary that is false is empty. -/
theorem eq_emptyDict {v : PyVal} (h : v.isDict = true) (hfalse : v.truthy = false) :
    v = emptyDict := by
  cases v with
  | dict entries =>
      have hnil : entries = [] := by simpa [truthy] using hfalse
      rw [hnil]
      rfl
  | _ => cases h

@[simp] theorem or_none_none : PyVal.none.or .none = .none := rfl

/-- A default that is false was not taken, if the value is true. -/
theorem or_emptyDict_of_truthy {v : PyVal} (h : (v.or emptyDict).truthy = true) :
    v.or emptyDict = v := by
  unfold PyVal.or at h ⊢
  split
  · rfl
  · next hfalse =>
      rw [if_neg hfalse] at h
      cases h

/-- A value one key can be looked up in is a dictionary. -/
theorem exists_dict_of_get {v value : PyVal} {key : String} (h : v.get key = .ok value) :
    ∃ entries, v = .dict entries := by
  cases v with
  | dict entries => exact ⟨entries, rfl⟩
  | _ => cases h

end PyVal

end Py
