import RubicaBot.SafeMath.Semantics
import RubicaBot.Handlers

/-!
# RubicaBot.SafeMath.Calc

`/calc` answers with the result of `safe_eval` or with the text of its `ValueError`; no
other exception is caught.  Which expressions are answered is said in terms of the rules
(`Answerable`), without the evaluator.
-/

namespace RubicaBot

open Py BotM

namespace SafeMath

variable (rt : Runtime)

/-- `float(value)` is finite, for the values it is applied to. -/
def Value.Fits : Value → Prop
  | .bool b => (Float.ofInt (if b then 1 else 0)).isFinite = true
  | .int n => (Float.ofInt n).isFinite = true
  | .float x => x.isFinite = true
  | _ => True

/-- A finite float, or a `ValueError`. -/
def Settled (outcome : Except (PyError × String) Float) : Prop :=
  (∃ x, outcome = .ok x ∧ x.isFinite = true) ∨ ∃ text, outcome = .error (.valueError, text)

/-- The expression is too long, no expression to Python for a `ValueError`, has a node that
is not allowed, or a format of a text that is rejected; or else it has a value, which is
not too large for a float. -/
def Answerable (expression : String) : Prop :=
  80 < expression.length ∨
  (∃ text, rt.parse expression = .error (.valueError, text)) ∨
  ∃ tree, rt.parse expression = .ok tree ∧
    (¬ tree.Allowed ∨ (∃ text, tree.Rejected rt text) ∨
      ∃ value, tree.Computes rt value ∧ value.Fits)

section Settled

variable {rt}

/-- Only a `ValueError` is caught. -/
theorem settled_error_iff {e : PyError × String} :
    Settled (.error e) ↔ e.1 = .valueError := by
  constructor
  · rintro (⟨x, h, -⟩ | ⟨text, h⟩)
    · cases h
    · cases h
      rfl
  · intro h
    obtain ⟨_, text⟩ := e
    cases h
    exact .inr ⟨text, rfl⟩

/-- A float has to be finite. -/
theorem settled_ok_iff {x : Float} : Settled (.ok x) ↔ x.isFinite = true := by
  constructor
  · rintro (⟨x', h, hx⟩ | ⟨text, h⟩)
    · cases h
      exact hx
    · cases h
  · exact fun h => .inl ⟨x, rfl, h⟩

/-- An integer has to fit. -/
theorem settled_floatOf_iff {n : Int} :
    Settled (floatOf n) ↔ (Float.ofInt n).isFinite = true := by
  unfold floatOf
  split
  · next hn => exact settled_ok_iff
  · next hn =>
      constructor
      · intro h
        cases settled_error_iff.mp h
      · intro h
        exact absurd h hn

/-- So has the value of a tree. -/
theorem settled_toFloat_iff {value : Value} : Settled (toFloat value) ↔ value.Fits := by
  cases value with
  | bool b => exact settled_floatOf_iff
  | int n => exact settled_floatOf_iff
  | float x => exact settled_ok_iff
  | none => exact ⟨fun _ => trivial, fun _ => settled_error_iff.mpr rfl⟩
  | ellipsis => exact ⟨fun _ => trivial, fun _ => settled_error_iff.mpr rfl⟩
  | complex => exact ⟨fun _ => trivial, fun _ => settled_error_iff.mpr rfl⟩
  | str => exact ⟨fun _ => trivial, fun _ => settled_error_iff.mpr rfl⟩
  | bytes => exact ⟨fun _ => trivial, fun _ => settled_error_iff.mpr rfl⟩

/-- A run that may raise settles where it raises a `ValueError` or returns what settles. -/
theorem settled_bind_iff {α : Type} {x : Except (PyError × String) α}
    {f : α → Except (PyError × String) Float} :
    Settled (x.bind f) ↔
      (∃ text, x = .error (.valueError, text)) ∨ ∃ a, x = .ok a ∧ Settled (f a) := by
  cases x with
  | error e =>
      constructor
      · intro h
        obtain ⟨e, text⟩ := e
        obtain rfl := settled_error_iff.mp h
        exact .inl ⟨text, rfl⟩
      · rintro (⟨text, h⟩ | ⟨a, h, -⟩)
        · exact settled_error_iff.mpr (by cases h; rfl)
        · cases h
  | ok a =>
      constructor
      · exact fun h => .inr ⟨a, rfl, h⟩
      · rintro (⟨text, h⟩ | ⟨a', h, hf⟩)
        · cases h
        · cases h
          exact hf

/-- A tree is rejected, or has a value that fits. -/
theorem settled_eval_iff {tree : Expr} :
    Settled ((eval rt tree).bind toFloat) ↔
      (∃ text, tree.Rejected rt text) ∨ ∃ value, tree.Computes rt value ∧ value.Fits := by
  simp only [settled_bind_iff, eval_eq_valueError_iff, eval_eq_ok_iff, settled_toFloat_iff]

/-- `safe_eval` returns a finite float or raises `ValueError`, if the expression is
answerable and only then. -/
theorem settled_safeEval_iff {expression : String} :
    Settled (safeEval rt expression) ↔ Answerable rt expression := by
  unfold safeEval Answerable
  by_cases hlong : 80 < expression.length
  · rw [if_pos hlong]
    exact ⟨fun _ => .inl hlong, fun _ => settled_error_iff.mpr rfl⟩
  · rw [if_neg hlong, settled_bind_iff]
    have htree (tree : Expr) :
        Settled (if tree.Allowed then (eval rt tree).bind toFloat
          else .error (.valueError, "عبارت غیرمجاز است.")) ↔
        ¬ tree.Allowed ∨ (∃ text, tree.Rejected rt text) ∨
          ∃ value, tree.Computes rt value ∧ value.Fits := by
      by_cases hallowed : tree.Allowed
      · rw [if_pos hallowed, settled_eval_iff, or_iff_right (not_not_intro hallowed)]
      · rw [if_neg hallowed]
        exact ⟨fun _ => .inl hallowed, fun _ => settled_error_iff.mpr rfl⟩
    simp only [htree, hlong, false_or]

end Settled

/-! ## the handler -/

/-- The environment with this evaluator, the result as `:g` formats it. -/
def withMath (env : Env) : Env where
  __ := env
  safeEval expression := (safeEval rt expression).map rt.general

/-- The result of the expression, or an error text. -/
def IsReply (expression text : String) : Prop :=
  (∃ result, safeEval rt expression = .ok result ∧ text = "= " ++ rt.general result) ∨
    ∃ complaint, safeEval rt expression = .error (.valueError, complaint) ∧
      text = "خطا: " ++ complaint

/-- No exception, and one message in the chat, with the result or an error text. -/
def Answers (env : Env) (ctx : Context) (message : PyVal) (args : List String) (w : World) :
    Prop :=
  ∃ chatId text, getChatId message = .ok chatId ∧ IsReply rt (" ".intercalate args) text ∧
    calcHandler (withMath rt env) ctx message args w =
      (.ok (), { w with apiCalls := w.apiCalls ++ [.sendMessage chatId text none] })

/-- The message has a chat to answer in. -/
def HasChat (message : PyVal) : Prop :=
  ∃ chatId, getChatId message = .ok chatId ∧ chatId.truthy = true

section Handler

variable {rt} {env : Env} {ctx : Context} {message : PyVal} {args : List String} {w : World}

/-- With a client that returns, a message is sent and that is all. -/
theorem sendMessage_of_returns (hclient : ClientReturns env) (chatId : PyVal) (text : String) :
    (sendMessage env chatId text : BotM Unit) w =
      (.ok (), { w with apiCalls := w.apiCalls ++ [.sendMessage chatId text none] }) := by
  obtain ⟨v, hv⟩ := hclient w.apiCalls.length (.sendMessage chatId text none)
  have hcall : callApi env (.sendMessage chatId text none) w =
      (.ok v, { w with apiCalls := w.apiCalls ++ [.sendMessage chatId text none] }) := by
    rw [callApi_apply, hv]
  rw [sendMessage, Effect.bind_of_ok hcall]
  rfl

/-- `calc_handler` in a chat, with an expression. -/
theorem calcHandler_eq {chatId : PyVal} (hchat : getChatId message = .ok chatId)
    (htruthy : chatId.truthy = true) (hargs : args ≠ []) :
    calcHandler (withMath rt env) ctx message args =
      match safeEval rt (" ".intercalate args) with
      | .error (.valueError, text) => sendMessage env chatId ("خطا: " ++ text)
      | .error (e, _) => Effect.lift (.error e)
      | .ok result => sendMessage env chatId ("= " ++ rt.general result) := by
  rw [calcHandler, inChat_of_ok _ hchat, if_pos htruthy, if_neg hargs]
  simp only [withMath]
  cases safeEval rt (" ".intercalate args) with
  | ok x => rfl
  | error e =>
      obtain ⟨e, text⟩ := e
      cases e <;> rfl

/-- Without a chat there is no message. -/
theorem Answers.hasChat (h : Answers rt env ctx message args w) : HasChat message := by
  obtain ⟨chatId, text, hchat, -, hrun⟩ := h
  refine ⟨chatId, hchat, ?_⟩
  by_contra htruthy
  rw [calcHandler, inChat_of_ok _ hchat, if_neg htruthy] at hrun
  have hcalls : w.apiCalls = w.apiCalls ++ [.sendMessage chatId text none] :=
    congrArg (fun r => r.2.apiCalls) hrun
  exact List.cons_ne_nil _ _ (List.self_eq_append_right.mp hcalls)

/-- Any exception but a `ValueError` gets out, and no message is sent. -/
theorem calcHandler_of_error {chatId : PyVal} (hchat : getChatId message = .ok chatId)
    (htruthy : chatId.truthy = true) (hargs : args ≠ []) {e : PyError} {text : String}
    (heval : safeEval rt (" ".intercalate args) = .error (e, text)) (he : e ≠ .valueError) :
    calcHandler (withMath rt env) ctx message args w = (.error e, w) := by
  rw [calcHandler_eq hchat htruthy hargs, heval]
  cases e <;> first | exact absurd rfl he | rfl

/-- A chat gets an answer where `safe_eval` raises nothing but a `ValueError`. -/
theorem answers_iff (hclient : ClientReturns env) (hargs : args ≠ []) :
    Answers rt env ctx message args w ↔ HasChat message ∧
      ∀ e text, safeEval rt (" ".intercalate args) = .error (e, text) → e = .valueError := by
  constructor
  · intro h
    obtain ⟨chatId, hchat, htruthy⟩ := h.hasChat
    refine ⟨⟨chatId, hchat, htruthy⟩, fun e text heval => ?_⟩
    by_contra he
    obtain ⟨_, _, -, -, hrun⟩ := h
    rw [calcHandler_of_error hchat htruthy hargs heval he] at hrun
    cases hrun
  · rintro ⟨⟨chatId, hchat, htruthy⟩, hcaught⟩
    refine ⟨chatId, ?_⟩
    rw [calcHandler_eq hchat htruthy hargs]
    unfold IsReply
    cases heval : safeEval rt (" ".intercalate args) with
    | ok x =>
        exact ⟨"= " ++ rt.general x, hchat, .inl ⟨x, rfl, rfl⟩,
          sendMessage_of_returns hclient chatId _⟩
    | error e =>
        obtain ⟨e, text⟩ := e
        obtain rfl := hcaught e text heval
        exact ⟨"خطا: " ++ text, hchat, .inr ⟨text, rfl, rfl⟩,
          sendMessage_of_returns hclient chatId _⟩

/-- What settles raises nothing but a `ValueError`. -/
theorem Settled.caught {outcome : Except (PyError × String) Float} (h : Settled outcome)
    {e : PyError} {text : String} (heval : outcome = .error (e, text)) : e = .valueError := by
  subst heval
  exact settled_error_iff.mp h

end Handler

/-- **When `/calc` answers.**  With a client that returns, `calc_handler` raises nothing and
sends one message, the result or an error text, and `safe_eval` returns a finite float or
raises `ValueError`, where the message has a chat and the expression is answerable, and
nowhere else. -/
theorem calc_answers_iff (env : Env) (hclient : ClientReturns env) (ctx : Context)
    (message : PyVal) (args : List String) (hargs : args ≠ []) (w : World) :
    (Answers rt env ctx message args w ∧ Settled (safeEval rt (" ".intercalate args))) ↔
      HasChat message ∧ Answerable rt (" ".intercalate args) := by
  rw [answers_iff hclient hargs, ← settled_safeEval_iff, and_assoc]
  constructor
  · exact fun ⟨hchat, _, hsettled⟩ => ⟨hchat, hsettled⟩
  · exact fun ⟨hchat, hsettled⟩ => ⟨hchat, fun e text => hsettled.caught, hsettled⟩

/-- The expressions of the examples, and what Python makes of them. -/
def fewExpressions : Runtime where
  parse expression :=
    match expression with
    | "10 / 2" => .ok (.binOp (.constant (.int 10)) .div (.constant (.int 2)))
    | "1/0" => .ok (.binOp (.constant (.int 1)) .div (.constant (.int 0)))
    | "1e999" => .ok (.constant (.float (1 / 0)))
    | _ => raised .syntaxError
  allocates _ := true
  fmod x y := x - y * (x / y).floor
  complexPow _ _ := some (1, 0)
  formatStr _ _ := raised .typeError
  formatBytes _ _ := raised .typeError
  general x := toString x.toInt64

theorem calc_answers_division :
    Answers fewExpressions .plain {} (.dict [("chat_id", .str "c0")])
      ["10", "/", "2"] { rules := {} } := by
  refine ((calc_answers_iff fewExpressions .plain (fun _ _ => ⟨_, rfl⟩) {}
    (.dict [("chat_id", .str "c0")]) ["10", "/", "2"] (by decide) { rules := {} }).mpr
      ⟨⟨.str "c0", rfl, rfl⟩, ?_⟩).1
  have hfits : (quotient 10 2).isFinite = true := by decide +kernel
  have hdiv : IntComputes fewExpressions 10 2 .div (.float (quotient 10 2)) :=
    .div (by decide) hfits
  exact .inr (.inr ⟨_, rfl, .inr (.inr ⟨.float (quotient 10 2),
    .binOp (.constant _) (.constant _) (.nums rfl rfl (.ints hdiv)) rfl, hfits⟩)⟩)

/-- A division by zero and an expression that does not parse get out of the handler, with
no message sent; a literal above the range of floats is infinite. -/
theorem calc_unanswered :
    calcHandler (withMath fewExpressions .plain) {} (.dict [("chat_id", .str "c0")]) ["1/0"]
        { rules := {} } = (.error .zeroDivisionError, { rules := {} }) ∧
      calcHandler (withMath fewExpressions .plain) {} (.dict [("chat_id", .str "c0")]) ["1+"]
        { rules := {} } = (.error .syntaxError, { rules := {} }) ∧
      ∀ expression ∈ ["1/0", "1+", "1e999"], ¬ Settled (safeEval fewExpressions expression) := by
  have hdivision : safeEval fewExpressions "1/0" = .error (.zeroDivisionError, "") := by
    decide +kernel
  have hincomplete : safeEval fewExpressions "1+" = .error (.syntaxError, "") := by decide +kernel
  have hinfinite : safeEval fewExpressions "1e999" = .ok (1 / 0) := rfl
  refine ⟨calcHandler_of_error rfl rfl (by decide) hdivision (by decide),
    calcHandler_of_error rfl rfl (by decide) hincomplete (by decide), fun expression h => ?_⟩
  simp only [List.mem_cons, List.not_mem_nil, or_false] at h
  obtain rfl | rfl | rfl := h
  · rw [hdivision, settled_error_iff]
    decide
  · rw [hincomplete, settled_error_iff]
    decide
  · rw [hinfinite, settled_ok_iff]
    decide +kernel

end SafeMath

end RubicaBot
