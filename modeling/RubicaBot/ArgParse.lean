import Mathlib.Data.List.Nodup
import Mathlib.Logic.Function.Basic
import RubicaBot.PyStr

/-!
# RubicaBot.ArgParse

`argparse`, for parsers whose options take one value or none and that have no
positional arguments.

`parse_args` first decides for every argument string whether it is an option
(`classify`), and then consumes them from the left (`consume`).  An option that takes a
value takes it from after its `=`, or else the next argument string, if that was not
taken for an option.

A namespace is passed on by `forward`, an option and a text for each attribute.  The
parser reads it back (`Parser.WellFormed.forward_iff`) if and only if it takes none of
the texts for an option.
-/

namespace ArgParse

open Py

/-- A value of the namespace. -/
inductive Value where
  | none
  | bool (b : Bool)
  | int (n : Int)
  | str (s : String)
  deriving DecidableEq, Repr

/-- `str(value)`. -/
def Value.toStr : Value → String
  | none => "None"
  | bool b => if b then "True" else "False"
  | int n => toString n
  | str s => s

/-- `bool(value)`. -/
def Value.truthy : Value → Bool
  | none => false
  | bool b => b
  | int n => n ≠ 0
  | str s => s ≠ ""

/-- `argparse.Namespace`: the value of each attribute. -/
abbrev Namespace (δ : Type) := δ → Value

/-- The `type` and the `choices` of an option. -/
inductive Conversion where
  | str
  | int
  | choices (names : List String)
  deriving DecidableEq, Repr

/-- The value that a text is converted to, or `none` where it is refused. -/
def Conversion.apply (u : Unicode) : Conversion → String → Option Value
  | str, s => some (.str s)
  | int, s => (intOf u s).map .int
  | choices names, s => if s ∈ names then some (.str s) else none

/-- What an option does. -/
inductive Action (δ : Type) where
  | store (dest : δ) (conversion : Conversion)
  | storeTrue (dest : δ)
  | help
  deriving DecidableEq, Repr

/-- `ArgumentParser`: the action of each option string, in the order they were added, and
the default of each attribute. -/
structure Parser (δ : Type) where
  actions : List (String × Action δ)
  defaults : Namespace δ

/-- An argument string, with what it was taken for. -/
inductive Token (δ : Type) where
  /-- The first `--`. -/
  | separator
  | argument (s : String)
  /-- An option, with the argument after its `=`. -/
  | option (s : String) (action : Action δ) (explicit : Option String)
  /-- What looks like an option that there is not. -/
  | unknown (s : String)

variable {δ : Type}

/-- The argument string. -/
def Token.text : Token δ → String
  | separator => "--"
  | argument s => s
  | option s _ _ => s
  | unknown s => s

/-- `_negative_number_matcher`: `^-\d+$|^-\d*\.\d+$`; `$` also holds before a last line
feed. -/
def isNegativeNumber (u : Unicode) (s : String) : Bool :=
  let isDigits (cs : List Char) := !cs.isEmpty && cs.all fun c => (u.decimal c).isSome
  let body := if s.toList.getLast? = some '\n' then s.toList.dropLast else s.toList
  let fraction := body.tail.dropWhile fun c => (u.decimal c).isSome
  body.head? = some '-' &&
    (isDigits body.tail || fraction.head? = some '.' && isDigits fraction.tail)

/-- `arg_string.partition('=')`: what stands before the `=`, if there is one. -/
def beforeEquals (s : String) : String := String.ofList (s.toList.takeWhile (· ≠ '='))

/-- `arg_string.partition('=')`: what stands after the `=`, if there is one. -/
def afterEquals (s : String) : Option String :=
  if '=' ∈ s.toList then some (String.ofList (s.toList.dropWhile (· ≠ '=')).tail) else none

namespace Parser

variable (u : Unicode) (p : Parser δ)

/-- `_option_string_actions[flag]`. -/
def actionOf (flag : String) : Option (Action δ) :=
  (p.actions.find? fun entry => entry.1 = flag).map (·.2)

/-- `_get_option_tuples`: the options that the string, which is none itself, may stand
for.  After two dashes it may be the beginning of an option; after one, also a
one-letter option with more behind the letter. -/
def optionTuples (s : String) : List (Action δ × Option String) :=
  if startsWith s "--" then
    p.actions.filterMap fun entry =>
      if startsWith entry.1 (beforeEquals s) then some (entry.2, afterEquals s) else none
  else
    p.actions.filterMap fun entry =>
      if entry.1 = String.ofList (s.toList.take 2) then
        some (entry.2, some (String.ofList (s.toList.drop 2)))
      else if startsWith entry.1 s then some (entry.2, none)
      else none

/-- `_parse_optional`; `none` where the string is ambiguous, and the parser exits. -/
def parseOptional (s : String) : Option (Token δ) :=
  if ¬ startsWith s "-" then some (.argument s)
  else
    match p.actionOf s with
    | some action => some (.option s action none)
    | none =>
        if s.length = 1 then some (.argument s)
        else
          match (afterEquals s).bind fun e => (p.actionOf (beforeEquals s)).map fun a => (a, e) with
          | some (action, explicit) => some (.option s action (some explicit))
          | none =>
              match p.optionTuples s with
              | _ :: _ :: _ => none
              | [(action, explicit)] => some (.option s action explicit)
              | [] =>
                  if isNegativeNumber u s ∧
                      ¬ p.actions.any (fun entry => isNegativeNumber u entry.1)
                  then some (.argument s)
                  else if contains s " " then some (.argument s)
                  else some (.unknown s)

/-- All after the first `--` are arguments. -/
def classify : List String → Option (List (Token δ))
  | [] => some []
  | s :: rest =>
      if s = "--" then some (.separator :: rest.map .argument)
      else (p.parseOptional u s).bind fun token => (classify rest).map (token :: ·)

end Parser

/-- The attributes after the tokens, with the argument strings that were not recognized;
`none` where the parser exits. -/
def consume [DecidableEq δ] (u : Unicode) :
    List (Token δ) → Namespace δ → Option (Namespace δ × List String)
  | [], ns => some (ns, [])
  | .option _ (.storeTrue dest) none :: rest, ns =>
      consume u rest (Function.update ns dest (.bool true))
  | .option _ (.store dest conversion) none :: .argument s :: rest, ns =>
      (conversion.apply u s).bind fun value => consume u rest (Function.update ns dest value)
  | .option _ (.store dest conversion) (some s) :: rest, ns =>
      (conversion.apply u s).bind fun value => consume u rest (Function.update ns dest value)
  -- a value that is missing or not taken, or the help
  | .option _ _ _ :: _, _ => none
  | token :: rest, ns => (consume u rest ns).map fun (ns, extras) => (ns, token.text :: extras)

/-- `parse_args`; `none` where it exits. -/
def Parser.parseArgs [DecidableEq δ] (u : Unicode) (p : Parser δ) (argv : List String) :
    Option (Namespace δ) :=
  (p.classify u argv).bind fun tokens =>
    (consume u tokens p.defaults).bind fun (ns, extras) => if extras = [] then some ns else none

/-! ## what is taken for an argument -/

/-- The string is taken for an argument: it does not begin with a dash, or it is a lone
dash, or it stands for no option and looks like a negative number or has a space in it. -/
def Parser.IsArgument (u : Unicode) (p : Parser δ) (s : String) : Prop :=
  startsWith s "-" = false ∨
    p.actionOf s = none ∧
      (s.length = 1 ∨
        p.actionOf (beforeEquals s) = none ∧ p.optionTuples s = [] ∧
          (isNegativeNumber u s ∧ ¬ p.actions.any (fun entry => isNegativeNumber u entry.1) ∨
            contains s " "))

instance [DecidableEq δ] (u : Unicode) (p : Parser δ) (s : String) :
    Decidable (p.IsArgument u s) :=
  inferInstanceAs (Decidable (_ ∨ _ ∧ (_ ∨ _ ∧ _ ∧ (_ ∧ _ ∨ _))))

section Argument

variable {u : Unicode} {p : Parser δ} {s : String}

/-- A flag that is known has an action. -/
theorem Parser.mem_of_actionOf {flag : String} {action : Action δ}
    (h : p.actionOf flag = some action) : (flag, action) ∈ p.actions := by
  obtain ⟨⟨flag', action'⟩, hfind, rfl⟩ := Option.map_eq_some_iff.mp h
  have hflag : flag' = flag := by simpa using List.find?_some hfind
  rw [← hflag]
  exact List.mem_of_find?_eq_some hfind

/-- Without an equals sign, all comes before it. -/
theorem beforeEquals_of_afterEquals (h : afterEquals s = none) : beforeEquals s = s := by
  have hnone : '=' ∉ s.toList := by
    intro hmem
    rw [afterEquals, if_pos hmem] at h
    cases h
  have hall : s.toList.takeWhile (· ≠ '=') = s.toList :=
    List.takeWhile_eq_self_iff.mpr fun c hc => by simpa using ne_of_mem_of_not_mem hc hnone
  rw [beforeEquals, hall, String.ofList_toList]

/-- An argument is taken as it is. -/
theorem Parser.parseOptional_eq_argument_iff {s' : String} :
    p.parseOptional u s = some (.argument s') ↔ s' = s ∧ p.IsArgument u s := by
  have hsame : some (Token.argument s : Token δ) = some (.argument s') ↔ s' = s := by
    rw [Option.some.injEq, Token.argument.injEq, eq_comm]
  unfold parseOptional IsArgument
  by_cases hdash : startsWith s "-" = true
  · rw [if_neg (not_not_intro hdash)]
    cases hself : p.actionOf s with
    | some action => simp [hdash]
    | none =>
        by_cases hlone : s.length = 1
        · simp [hlone, hsame]
        · cases hbefore : p.actionOf (beforeEquals s) with
          | some action =>
              obtain ⟨e, he⟩ := Option.ne_none_iff_exists'.mp fun hafter => by
                rw [beforeEquals_of_afterEquals hafter, hself] at hbefore
                cases hbefore
              simp [hlone, hdash, he]
          | none =>
              have hexplicit : ((afterEquals s).bind fun e =>
                  (none : Option (Action δ)).map fun a => (a, e)) = none := by
                cases afterEquals s <;> rfl
              simp only [hlone, hdash, hexplicit]
              cases htuples : p.optionTuples s with
              | nil =>
                  simp only [Bool.true_eq_false, false_or, true_and, ↓reduceIte]
                  split_ifs with hnumber hspace
                  · rw [hsame]
                    exact ⟨fun h => ⟨h, .inl hnumber⟩, And.left⟩
                  · rw [hsame]
                    exact ⟨fun h => ⟨h, .inr hspace⟩, And.left⟩
                  · exact ⟨fun h => (by cases h), fun h => (h.2.elim hnumber hspace).elim⟩
              | cons tuple tuples => cases tuples <;> simp
  · simp [hdash, hsame]

/-- A negative integer looks like one. -/
theorem isNegativeNumber_toString (u : Unicode) {n : Int} (hn : n < 0) :
    isNegativeNumber u (toString n) = true := by
  have htext : (toString n).toList = '-' :: Nat.toDigits 10 n.natAbs := by
    rw [toList_toString, if_neg (by omega), List.singleton_append]
  have hdigits : ∀ c ∈ Nat.toDigits 10 n.natAbs, c.isDigit = true := fun c hc =>
    Nat.isDigit_of_mem_toDigits (by decide) (by decide) hc
  have hlast : ('-' :: Nat.toDigits 10 n.natAbs).getLast? ≠ some '\n' := by
    intro h
    obtain h | h := List.mem_cons.mp (List.mem_of_getLast? h)
    · exact absurd h (by decide)
    · exact absurd (hdigits _ h) (by decide)
  have hall : (Nat.toDigits 10 n.natAbs).all (fun c => (u.decimal c).isSome) = true :=
    List.all_eq_true.mpr fun c hc => by rw [u.decimal_of_isDigit (hdigits c hc)]; rfl
  have hsome : (Nat.toDigits 10 n.natAbs).isEmpty = false := by simp
  simp only [isNegativeNumber, htext, if_neg hlast, List.head?_cons, List.tail_cons, hall, hsome]
  rfl

/-- A dash and then what is neither a digit nor a point is no negative number. -/
theorem isNegativeNumber_eq_false {u : Unicode} {s : String} {c : Char}
    (hs : s.toList[1]? = some c) (hdecimal : u.decimal c = none) (hpoint : c ≠ '.') :
    isNegativeNumber u s = false := by
  have hother : ∀ body : List Char, body <+: s.toList →
      (!body.tail.isEmpty && body.tail.all fun c => (u.decimal c).isSome) = false ∧
        (body.tail.dropWhile fun c => (u.decimal c).isSome).head? ≠ some '.' := by
    rintro body ⟨after, hafter⟩
    rw [← hafter] at hs
    obtain _ | ⟨b, _ | ⟨d, ds⟩⟩ := body
    · simp
    · simp
    · have hd : d = c := by simpa using hs
      simp [hd, hdecimal, hpoint]
  have hbody : (if s.toList.getLast? = some '\n' then s.toList.dropLast else s.toList) <+:
      s.toList := by
    split
    · exact List.dropLast_prefix _
    · exact List.prefix_rfl
  obtain ⟨hdigits, hfraction⟩ := hother _ hbody
  simp only [isNegativeNumber, hdigits, Bool.false_or, Bool.and_eq_false_iff]
  exact .inr (.inl (by simpa using hfraction))

/-- Two dashes do not. -/
theorem isNegativeNumber_dashes (u : Unicode) : isNegativeNumber u "--" = false := by
  have hdash : u.decimal '-' = none := by rw [u.decimal_ascii '-' (by decide), if_neg (by decide)]
  simp [isNegativeNumber, hdash]

/-- And are no argument. -/
theorem Parser.not_isArgument_dashes : ¬ p.IsArgument u "--" := by
  rintro (h | ⟨-, h | ⟨-, -, h | h⟩⟩)
  · exact absurd h (by decide)
  · exact absurd h (by decide)
  · rw [isNegativeNumber_dashes] at h
    exact absurd h.1 Bool.false_ne_true
  · exact absurd h (by decide)

/-- An argument is classified as one. -/
theorem Parser.classify_argument {rest : List String} (h : p.IsArgument u s) :
    p.classify u (s :: rest) = (p.classify u rest).map (.argument s :: ·) := by
  have hparse := parseOptional_eq_argument_iff.mpr ⟨rfl, h⟩
  have hsep : s ≠ "--" := fun hs => p.not_isArgument_dashes (hs ▸ h)
  rw [classify, if_neg hsep, hparse, Option.bind_some]

/-- And what is classified as one is one. -/
theorem Parser.isArgument_of_classify {s' : String} {rest : List String} {tokens : List (Token δ)}
    (h : p.classify u (s :: rest) = some (.argument s' :: tokens)) :
    s' = s ∧ p.IsArgument u s ∧ p.classify u rest = some tokens := by
  rw [classify] at h
  split at h
  · cases h
  · obtain ⟨token, htoken, hrest⟩ := Option.bind_eq_some_iff.mp h
    obtain ⟨tokens', hclassify, heq⟩ := Option.map_eq_some_iff.mp hrest
    cases heq
    obtain ⟨rfl, hargument⟩ := parseOptional_eq_argument_iff.mp htoken
    exact ⟨rfl, hargument, hclassify⟩

end Argument

/-! ## the attributes that a parser sets -/

/-- The attribute that an action sets. -/
def Action.dest? : Action δ → Option δ
  | store dest _ => some dest
  | storeTrue dest => some dest
  | help => none

/-- The values that the attribute may have after parsing. -/
inductive Parser.Holds (u : Unicode) (p : Parser δ) (dest : δ) : Value → Prop where
  | unset : Holds u p dest (p.defaults dest)
  | stored {flag s : String} {conversion : Conversion} {value : Value}
      (hoption : (flag, .store dest conversion) ∈ p.actions)
      (hvalue : conversion.apply u s = some value) : Holds u p dest value
  | set {flag : String} (hoption : (flag, .storeTrue dest) ∈ p.actions) :
      Holds u p dest (.bool true)

/-- An option token has an action of the parser. -/
def Token.IsOf (p : Parser δ) : Token δ → Prop
  | option _ action _ => ∃ flag, (flag, action) ∈ p.actions
  | _ => True

section Holds

variable {u : Unicode} {p : Parser δ}

/-- An abbreviation is of a flag that is known. -/
theorem Parser.exists_mem_of_optionTuples {s : String} {tuple : Action δ × Option String}
    (h : tuple ∈ p.optionTuples s) : ∃ flag, (flag, tuple.1) ∈ p.actions := by
  unfold optionTuples at h
  split at h
  all_goals
    obtain ⟨⟨flag, action⟩, hmem, htuple⟩ := List.mem_filterMap.mp h
    refine ⟨flag, ?_⟩
    split_ifs at htuple
    all_goals
      cases htuple
      exact hmem

/-- What is parsed belongs to the parser. -/
theorem Parser.isOf_of_parseOptional {s : String} {token : Token δ}
    (h : p.parseOptional u s = some token) : token.IsOf p := by
  unfold parseOptional at h
  split at h
  · cases h
    trivial
  · split at h
    · next action haction =>
        cases h
        exact ⟨s, mem_of_actionOf haction⟩
    · split at h
      · cases h
        trivial
      · split at h
        · next action explicit hexplicit =>
            obtain ⟨e, -, hmap⟩ := Option.bind_eq_some_iff.mp hexplicit
            obtain ⟨action', haction, heq⟩ := Option.map_eq_some_iff.mp hmap
            cases heq
            cases h
            exact ⟨_, mem_of_actionOf haction⟩
        · split at h
          · cases h
          · next action explicit htuples =>
              cases h
              exact exists_mem_of_optionTuples (htuples ▸ List.mem_singleton_self _)
          · split_ifs at h
            all_goals
              cases h
              trivial

/-- And so does all that is classified. -/
theorem Parser.isOf_of_classify {argv : List String} {tokens : List (Token δ)}
    (h : p.classify u argv = some tokens) : ∀ token ∈ tokens, token.IsOf p := by
  induction argv generalizing tokens with
  | nil =>
      cases h
      exact fun token htoken => absurd htoken (List.not_mem_nil)
  | cons s rest ih =>
      rw [classify] at h
      split at h
      · cases h
        intro token htoken
        obtain rfl | htoken := List.mem_cons.mp htoken
        · trivial
        · obtain ⟨s', -, rfl⟩ := List.mem_map.mp htoken
          trivial
      · obtain ⟨token, htoken, hrest⟩ := Option.bind_eq_some_iff.mp h
        obtain ⟨tokens', hclassify, rfl⟩ := Option.map_eq_some_iff.mp hrest
        exact List.forall_mem_cons.mpr ⟨isOf_of_parseOptional htoken, ih hclassify⟩

variable [DecidableEq δ]

/-- A value that may be stored is stored. -/
theorem Parser.Holds.update {ns : Namespace δ} (hns : ∀ d, p.Holds u d (ns d)) {dest : δ}
    {value : Value} (h : p.Holds u dest value) (d : δ) :
    p.Holds u d (Function.update ns dest value d) := by
  by_cases hd : d = dest
  · subst hd
    rwa [Function.update_self]
  · rw [Function.update_of_ne hd]
    exact hns d

/-- Consuming tokens only stores what the options convert. -/
theorem consume_holds {tokens : List (Token δ)} {ns : Namespace δ}
    {r : Namespace δ × List String} (htokens : ∀ token ∈ tokens, token.IsOf p)
    (hns : ∀ d, p.Holds u d (ns d)) (h : consume u tokens ns = some r) :
    ∀ d, p.Holds u d (r.1 d) := by
  fun_induction consume u tokens ns generalizing r with
  | case1 ns =>
      cases h
      exact hns
  | case2 ns s dest rest ih =>
      obtain ⟨⟨flag, hflag⟩, hrest⟩ := List.forall_mem_cons.mp htokens
      exact ih hrest (Parser.Holds.update hns (.set hflag)) h
  | case3 ns s dest conversion s' rest ih =>
      obtain ⟨⟨flag, hflag⟩, hrest⟩ := List.forall_mem_cons.mp htokens
      obtain ⟨value, hvalue, hrun⟩ := Option.bind_eq_some_iff.mp h
      exact ih value (List.forall_mem_cons.mp hrest).2
        (Parser.Holds.update hns (.stored hflag hvalue)) hrun
  | case4 ns s dest conversion s' rest ih =>
      obtain ⟨⟨flag, hflag⟩, hrest⟩ := List.forall_mem_cons.mp htokens
      obtain ⟨value, hvalue, hrun⟩ := Option.bind_eq_some_iff.mp h
      exact ih value hrest (Parser.Holds.update hns (.stored hflag hvalue)) hrun
  | case5 => cases h
  | case6 token rest ns _ _ _ _ ih =>
      obtain ⟨⟨ns', extras⟩, hrun, heq⟩ := Option.map_eq_some_iff.mp h
      cases heq
      have hholds := ih (List.forall_mem_cons.mp htokens).2 hns hrun
      exact hholds

/-- What is parsed is classified and then consumed, to the end. -/
theorem Parser.exists_of_parseArgs {argv : List String} {ns : Namespace δ}
    (h : p.parseArgs u argv = some ns) :
    ∃ tokens, p.classify u argv = some tokens ∧ consume u tokens p.defaults = some (ns, []) := by
  obtain ⟨tokens, htokens, hconsume⟩ := Option.bind_eq_some_iff.mp h
  obtain ⟨⟨ns', extras⟩, hrun, hextras⟩ := Option.bind_eq_some_iff.mp hconsume
  obtain ⟨rfl, heq⟩ := Option.ite_none_right_eq_some.mp hextras
  cases heq
  exact ⟨tokens, htokens, hrun⟩

/-- Every value of the namespace is a default or comes from the command line. -/
theorem Parser.holds_of_parseArgs {argv : List String} {ns : Namespace δ}
    (h : p.parseArgs u argv = some ns) (d : δ) : p.Holds u d (ns d) := by
  obtain ⟨tokens, hclassify, hrun⟩ := exists_of_parseArgs h
  exact consume_holds (isOf_of_classify hclassify) (fun _ => .unset) hrun d

end Holds

/-! ## passing the attributes on -/

/-- What passes a value on: nothing for `None` and `False`, the option alone for `True`,
and the option with the text of any other value. -/
def passOn (flag : String) : Value → List String
  | .bool b => if b then [flag] else []
  | .none => []
  | value => [flag, value.toStr]

/-- The argument strings that pass the attributes on, one after another. -/
def forward (flag : δ → String) (ns : Namespace δ) (dests : List δ) : List String :=
  dests.flatMap fun dest => passOn (flag dest) (ns dest)

/-- The text that passes a value on. -/
def Value.text : Value → Option String
  | int n => some (toString n)
  | str s => some s
  | _ => Option.none

/-- Options of one name for each attribute, whose defaults can be passed on. -/
structure Parser.WellFormed (u : Unicode) (p : Parser δ) (flag : δ → String) : Prop where
  nodup : (p.actions.map (·.1)).Nodup
  dashed : ∀ entry ∈ p.actions, startsWith entry.1 "-" = true ∧ entry.1 ≠ "--"
  named : ∀ entry ∈ p.actions, ∀ dest, entry.2.dest? = some dest → entry.1 = flag dest
  stores : ∀ entry ∈ p.actions, ∀ dest conversion, entry.2 = .store dest conversion →
    p.defaults dest = .none ∨
      conversion.apply u (p.defaults dest).toStr = some (p.defaults dest)
  sets : ∀ entry ∈ p.actions, ∀ dest, entry.2 = .storeTrue dest → p.defaults dest = .bool false

/-- How the parser reads back what passes a value on. -/
inductive Parser.Reads (u : Unicode) (p : Parser δ) (flag : String) (dest : δ) : Value → Prop where
  | nothing {value : Value} (hpass : passOn flag value = []) (htext : value.text = none)
      (hdefault : p.defaults dest = value) : Reads u p flag dest value
  | set (haction : p.actionOf flag = some (.storeTrue dest)) : Reads u p flag dest (.bool true)
  | stored {value : Value} (s : String) (conversion : Conversion)
      (hpass : passOn flag value = [flag, s]) (htext : value.text = some s)
      (haction : p.actionOf flag = some (.store dest conversion))
      (hvalue : conversion.apply u s = some value) : Reads u p flag dest value

section Forward

variable {u : Unicode} {p : Parser δ} {flag : δ → String}

/-- Strings and integers have texts. -/
theorem Value.text_eq_some_iff {value : Value} {s : String} :
    value.text = some s ↔ value = .str s ∨ ∃ n, value = .int n ∧ toString n = s := by
  cases value <;> simp [Value.text]

/-- What a conversion makes of a text is passed on as a text. -/
theorem Conversion.text_apply {c : Conversion} {s : String} {value : Value}
    (h : c.apply u s = some value) : value.text = some value.toStr := by
  cases c with
  | str =>
      cases h
      rfl
  | int =>
      obtain ⟨n, -, rfl⟩ := Option.map_eq_some_iff.mp h
      rfl
  | choices names =>
      obtain ⟨-, heq⟩ := Option.ite_none_right_eq_some.mp h
      cases heq
      rfl

/-- A value that a text was converted to is read back. -/
theorem Conversion.apply_toStr (hu : u.IsDecimal) {c : Conversion} {s : String} {value : Value}
    (h : c.apply u s = some value) : c.apply u value.toStr = some value := by
  cases c with
  | str =>
      cases h
      rfl
  | int =>
      obtain ⟨n, hn, rfl⟩ := Option.map_eq_some_iff.mp h
      exact Option.map_eq_some_iff.mpr ⟨n, intOf_toString u (intOf_natAbs_lt hu hn), rfl⟩
  | choices names =>
      obtain ⟨hmem, heq⟩ := Option.ite_none_right_eq_some.mp h
      cases heq
      exact if_pos hmem

/-- They are passed on with their flags. -/
theorem passOn_of_text {value : Value} {s : String} (flag : String) (h : value.text = some s) :
    passOn flag value = [flag, s] := by
  cases value <;> cases h <;> rfl

/-- A flag that is passed on is known. -/
theorem Parser.WellFormed.actionOf (hp : p.WellFormed u flag) {entry : String × Action δ}
    {dest : δ} (hmem : entry ∈ p.actions) (hdest : entry.2.dest? = some dest) :
    p.actionOf (flag dest) = some entry.2 := by
  rw [← hp.named entry hmem dest hdest]
  cases hfind : p.actions.find? fun entry' => entry'.1 = entry.1 with
  | none =>
      have hno := List.find?_eq_none.mp hfind entry hmem
      simp at hno
  | some entry' =>
      have hsame : entry'.1 = entry.1 := by simpa using List.find?_some hfind
      have heq := List.inj_on_of_nodup_map hp.nodup (List.mem_of_find?_eq_some hfind) hmem hsame
      rw [Parser.actionOf, hfind, heq]
      rfl

/-- What an attribute may hold is read back. -/
theorem Parser.WellFormed.reads (hu : u.IsDecimal) (hp : p.WellFormed u flag) {dest : δ}
    (hoption : ∃ entry ∈ p.actions, entry.2.dest? = some dest) {value : Value}
    (h : p.Holds u dest value) : p.Reads u (flag dest) dest value := by
  have hstored {entry : String × Action δ} {conversion : Conversion} {s : String} {value : Value}
      (hmem : entry ∈ p.actions) (haction : entry.2 = .store dest conversion)
      (hvalue : conversion.apply u s = some value) : p.Reads u (flag dest) dest value := by
    have htext := Conversion.text_apply hvalue
    exact .stored _ _ (passOn_of_text _ htext) htext
      (by rw [hp.actionOf hmem (by rw [haction]; rfl), haction]) (Conversion.apply_toStr hu hvalue)
  cases h with
  | unset =>
      obtain ⟨⟨name, action⟩, hmem, hdest⟩ := hoption
      cases action with
      | store dest' conversion =>
          cases hdest
          obtain hnone | hvalue := hp.stores _ hmem dest conversion rfl
          · exact .nothing (by rw [hnone]; rfl) (by rw [hnone]; rfl) rfl
          · exact hstored hmem rfl hvalue
      | storeTrue dest' =>
          cases hdest
          have hfalse := hp.sets _ hmem dest rfl
          exact .nothing (by rw [hfalse]; rfl) (by rw [hfalse]; rfl) rfl
      | help => cases hdest
  | stored hmem hvalue => exact hstored hmem rfl hvalue
  | set hmem => exact .set (hp.actionOf hmem rfl)

/-- And is classified as what it is. -/
theorem Parser.WellFormed.classify_option (hp : p.WellFormed u flag) {name : String}
    {action : Action δ} (h : p.actionOf name = some action) (rest : List String) :
    p.classify u (name :: rest) = (p.classify u rest).map (.option name action none :: ·) := by
  obtain ⟨hdash, hsep⟩ := hp.dashed _ (mem_of_actionOf h)
  rw [classify, if_neg hsep, parseOptional, if_neg (not_not_intro hdash), h]
  rfl

variable {ns : Namespace δ} {dests : List δ}

/-- A switch is passed on by its flag alone. -/
theorem passOn_true (flag : String) : passOn flag (.bool true) = [flag] := rfl

/-- The first destination, and then the others. -/
theorem forward_cons (flag : δ → String) (ns : Namespace δ) (dest : δ) (dests : List δ) :
    forward flag ns (dest :: dests) = passOn (flag dest) (ns dest) ++ forward flag ns dests := rfl

variable [DecidableEq δ]

/-- An option that takes a value finds it in the next argument string. -/
theorem exists_argument_of_consume {t : String} {dest : δ} {conversion : Conversion}
    {tokens : List (Token δ)} {r : Namespace δ × List String}
    (h : consume u (.option t (.store dest conversion) none :: tokens) ns = some r) :
    ∃ s rest value, tokens = .argument s :: rest ∧ conversion.apply u s = some value ∧
      consume u rest (Function.update ns dest value) = some r := by
  cases tokens with
  | nil => simp [consume] at h
  | cons token rest =>
      cases token with
      | argument s =>
          obtain ⟨value, hvalue, hrun⟩ := Option.bind_eq_some_iff.mp h
          exact ⟨s, rest, value, rfl, hvalue, hrun⟩
      | separator => simp [consume] at h
      | option s action explicit => simp [consume] at h
      | unknown s => simp [consume] at h

/-- Texts that are taken for arguments are all read back. -/
theorem Parser.WellFormed.consume_forward (hp : p.WellFormed u flag)
    (hreads : ∀ d ∈ dests, p.Reads u (flag d) d (ns d))
    (htexts : ∀ d ∈ dests, ∀ s ∈ (ns d).text, p.IsArgument u s) {init : Namespace δ}
    (hinit : ∀ d ∈ dests, init d = p.defaults d ∨ init d = ns d) :
    ∃ tokens, p.classify u (forward flag ns dests) = some tokens ∧
      consume u tokens init = some (fun d => if d ∈ dests then ns d else init d, []) := by
  induction dests generalizing init with
  | nil => exact ⟨[], rfl, by simp [consume]⟩
  | cons dest dests ih =>
      obtain ⟨hread, hreads⟩ := List.forall_mem_cons.mp hreads
      obtain ⟨htext, htexts⟩ := List.forall_mem_cons.mp htexts
      obtain ⟨hfirst, hinit⟩ := List.forall_mem_cons.mp hinit
      have hnext : ∀ d ∈ dests, Function.update init dest (ns dest) d = p.defaults d ∨
          Function.update init dest (ns dest) d = ns d := by
        intro d hd
        by_cases hsame : d = dest
        · subst hsame
          exact .inr (Function.update_self ..)
        · rw [Function.update_of_ne hsame]
          exact hinit d hd
      have hafter : (fun d => if d ∈ dests then ns d else Function.update init dest (ns dest) d) =
          fun d => if d ∈ dest :: dests then ns d else init d := by
        funext d
        by_cases hsame : d = dest
        · subst hsame
          simp
        · simp [hsame]
      obtain ⟨tokens, hclassify, hrun⟩ := ih hreads htexts hnext
      rw [hafter] at hrun
      rw [forward_cons]
      generalize ns dest = value at hread htext hfirst hrun ⊢
      cases hread with
      | nothing hpass _ hdefault =>
          have hsame : init dest = value := hfirst.elim (·.trans hdefault) id
          rw [← hsame, Function.update_eq_self] at hrun
          exact ⟨tokens, by rw [hpass]; exact hclassify, hrun⟩
      | set haction =>
          refine ⟨.option (flag dest) (.storeTrue dest) none :: tokens, ?_, hrun⟩
          rw [passOn_true, List.singleton_append, hp.classify_option haction, hclassify]
          rfl
      | stored s conversion hpass hvalue haction hconvert =>
          refine ⟨.option (flag dest) (.store dest conversion) none :: .argument s :: tokens,
            ?_, ?_⟩
          · rw [hpass, List.cons_append, List.singleton_append, hp.classify_option haction,
              classify_argument (htext _ hvalue), hclassify]
            rfl
          · rw [consume, hconvert]
            exact hrun

/-- What is read back is of texts that are taken for arguments. -/
theorem Parser.WellFormed.isArgument_of_consume (hp : p.WellFormed u flag)
    (hreads : ∀ d ∈ dests, p.Reads u (flag d) d (ns d)) {init : Namespace δ}
    {tokens : List (Token δ)} {r : Namespace δ × List String}
    (hclassify : p.classify u (forward flag ns dests) = some tokens)
    (hrun : consume u tokens init = some r) :
    ∀ d ∈ dests, ∀ s ∈ (ns d).text, p.IsArgument u s := by
  induction dests generalizing init tokens with
  | nil => exact fun d hd => absurd hd List.not_mem_nil
  | cons dest dests ih =>
      obtain ⟨hread, hreads⟩ := List.forall_mem_cons.mp hreads
      rw [forward_cons] at hclassify
      rw [List.forall_mem_cons]
      generalize ns dest = value at hread hclassify ⊢
      cases hread with
      | nothing hpass htext =>
          rw [hpass] at hclassify
          exact ⟨by simp [htext], ih hreads hclassify hrun⟩
      | set haction =>
          rw [passOn_true, List.singleton_append, hp.classify_option haction] at hclassify
          obtain ⟨tokens', hrest, rfl⟩ := Option.map_eq_some_iff.mp hclassify
          exact ⟨by simp [Value.text], ih hreads hrest hrun⟩
      | stored s conversion hpass htext haction =>
          rw [hpass, List.cons_append, List.singleton_append, hp.classify_option haction]
            at hclassify
          obtain ⟨tokens', hvalue, rfl⟩ := Option.map_eq_some_iff.mp hclassify
          obtain ⟨s', rest, value', rfl, -, hrun⟩ := exists_argument_of_consume hrun
          obtain ⟨-, hargument, hrest⟩ := isArgument_of_classify hvalue
          exact ⟨by simpa [htext] using hargument, ih hreads hrest hrun⟩

/-- What is passed on is parsed back, unless a text is taken for a flag. -/
theorem Parser.WellFormed.parseArgs_forward (hp : p.WellFormed u flag)
    (hreads : ∀ d ∈ dests, p.Reads u (flag d) d (ns d))
    (htexts : ∀ d ∈ dests, ∀ s ∈ (ns d).text, p.IsArgument u s) :
    p.parseArgs u (forward flag ns dests) =
      some fun d => if d ∈ dests then ns d else p.defaults d := by
  obtain ⟨tokens, hclassify, hrun⟩ :=
    hp.consume_forward hreads htexts fun d _ => .inl (Eq.refl (p.defaults d))
  rw [parseArgs, hclassify, Option.bind_some, hrun]
  rfl

/-- The parser accepts what passes the attributes on, and agrees on those that are read,
if and only if what is not passed on has its default and no text is taken for an option. -/
theorem Parser.WellFormed.forward_iff (hu : u.IsDecimal) (hp : p.WellFormed u flag)
    (hns : ∀ d, p.Holds u d (ns d))
    (hoptions : ∀ d ∈ dests, ∃ entry ∈ p.actions, entry.2.dest? = some d) (reads : List δ) :
    (∃ ns', p.parseArgs u (forward flag ns dests) = some ns' ∧ ∀ d ∈ reads, ns' d = ns d) ↔
      (∀ d ∈ reads, d ∉ dests → ns d = p.defaults d) ∧
        ∀ d ∈ dests, ∀ s ∈ (ns d).text, p.IsArgument u s := by
  have hreads : ∀ d ∈ dests, p.Reads u (flag d) d (ns d) := fun d hd =>
    hp.reads hu (hoptions d hd) (hns d)
  constructor
  · rintro ⟨ns', hparse, hagree⟩
    obtain ⟨tokens, hclassify, hrun⟩ := exists_of_parseArgs hparse
    have htexts := hp.isArgument_of_consume hreads hclassify hrun
    refine ⟨fun d hd hnot => ?_, htexts⟩
    rw [hp.parseArgs_forward hreads htexts, Option.some.injEq] at hparse
    have hsame : ns' d = p.defaults d := by
      rw [← hparse]
      exact if_neg hnot
    exact (hagree d hd).symm.trans hsame
  · rintro ⟨hdefaults, htexts⟩
    refine ⟨_, hp.parseArgs_forward hreads htexts, fun d hd => ?_⟩
    by_cases hmem : d ∈ dests
    · exact if_pos hmem
    · exact (if_neg hmem).trans (hdefaults d hd hmem).symm

end Forward

end ArgParse
