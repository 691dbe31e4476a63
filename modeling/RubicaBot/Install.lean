import RubicaBot.ArgParse

/-!
# RubicaBot.Install

The command line of `install.py`: `build_parser`, `bootstrap_from_github`, which clones
the repository and runs the installer of the clone with the options of its own command
line, and what `collect_inputs` makes of the options when it may not ask.

The clone's installer has the same parser.  It takes the options that are passed on as
they were given (`forwarded_iff`), but `--skip-pip` is not passed on, and a value that was
given after an `=` is passed on without it, which one that looks like an option needs.
-/

namespace RubicaBot

namespace Install

open Py ArgParse

/-! ## the command line -/

/-- The attributes of the parsed command line. -/
inductive Dest where
  | githubRepo | githubRef | installPath | installAction
  | token | ownerId | apiBaseUrl | webhookBaseUrl | webhookSecret
  | venvPath | serviceName | host | port
  | noTests | skipPip | noSystemd | noEnv | force | run | nonInteractive
  | installDeps | withNginx | withSsl | systemdInstall | noWebhook
  deriving DecidableEq, Repr

/-- The name of the attribute. -/
def Dest.name : Dest → String
  | githubRepo => "github_repo"
  | githubRef => "github_ref"
  | installPath => "install_path"
  | installAction => "install_action"
  | token => "token"
  | ownerId => "owner_id"
  | apiBaseUrl => "api_base_url"
  | webhookBaseUrl => "webhook_base_url"
  | webhookSecret => "webhook_secret"
  | venvPath => "venv_path"
  | serviceName => "service_name"
  | host => "host"
  | port => "port"
  | noTests => "no_tests"
  | skipPip => "skip_pip"
  | noSystemd => "no_systemd"
  | noEnv => "no_env"
  | force => "force"
  | run => "run"
  | nonInteractive => "non_interactive"
  | installDeps => "install_deps"
  | withNginx => "with_nginx"
  | withSsl => "with_ssl"
  | systemdInstall => "systemd_install"
  | noWebhook => "no_webhook"

/-- The defaults of `build_parser`. -/
def defaults : Namespace Dest
  | .githubRepo | .githubRef | .installPath | .installAction | .token | .ownerId => .none
  | .apiBaseUrl => .str "https://botapi.rubika.ir/v3"
  | .webhookBaseUrl | .webhookSecret => .str ""
  | .venvPath => .str ".venv"
  | .serviceName => .str "rubika-bot"
  | .host => .str "0.0.0.0"
  | .port => .int 8080
  | _ => .bool false

/-- `build_parser`. -/
def buildParser : Parser Dest where
  actions :=
    [("-h", .help), ("--help", .help),
      ("--github-repo", .store .githubRepo .str),
      ("--github-ref", .store .githubRef .str),
      ("--install-path", .store .installPath .str),
      ("--install-action", .store .installAction (.choices ["backup", "remove", "abort"])),
      ("--token", .store .token .str),
      ("--owner-id", .store .ownerId .str),
      ("--api-base-url", .store .apiBaseUrl .str),
      ("--webhook-base-url", .store .webhookBaseUrl .str),
      ("--webhook-secret", .store .webhookSecret .str),
      ("--venv-path", .store .venvPath .str),
      ("--service-name", .store .serviceName .str),
      ("--host", .store .host .str),
      ("--port", .store .port .int),
      ("--no-tests", .storeTrue .noTests),
      ("--skip-pip", .storeTrue .skipPip),
      ("--no-systemd", .storeTrue .noSystemd),
      ("--no-env", .storeTrue .noEnv),
      ("--force", .storeTrue .force),
      ("--run", .storeTrue .run),
      ("--non-interactive", .storeTrue .nonInteractive),
      ("--install-deps", .storeTrue .installDeps),
      ("--with-nginx", .storeTrue .withNginx),
      ("--with-ssl", .storeTrue .withSsl),
      ("--systemd-install", .storeTrue .systemdInstall),
      ("--no-webhook", .storeTrue .noWebhook)]
  defaults := defaults

/-! ## the two stages -/

/-- What the installer finds on the machine. -/
structure Host where
  /-- `sys.executable`. -/
  executable : String
  /-- `str(Path(path).expanduser().resolve())`. -/
  resolve : String → String
  /-- `os.environ`. -/
  environ : String → Option String
  /-- The scheme and the network location of `urlparse`, if it does not raise `ValueError`. -/
  urlparse : String → Option (String × String)

/-- The keys of `passthrough`. -/
def passthrough : List Dest :=
  [.token, .ownerId, .apiBaseUrl, .webhookBaseUrl, .webhookSecret, .venvPath, .serviceName,
    .host, .port, .noTests, .noSystemd, .noEnv, .force, .run, .nonInteractive, .installDeps,
    .withNginx, .withSsl, .systemdInstall, .noWebhook]

/-- `f"--{key.replace('_', '-')}"`. -/
def flagOf (key : Dest) : String :=
  "--" ++ String.ofList (key.name.toList.map fun c => if c = '_' then '-' else c)

/-- `forward_args`. -/
def forwardArgs (args : Namespace Dest) : List String := forward flagOf args passthrough

/-- `bootstrap_from_github`: the commands that it runs after it has prepared the path,
where none of them fails. -/
def bootstrapFromGithub (host : Host) (args : Namespace Dest) : List (List String) :=
  if ¬ (args .githubRepo).truthy then []
  else
    let dest := host.resolve
      (if (args .installPath).truthy then (args .installPath).toStr else "/opt/rubika-bot")
    let branch := if (args .githubRef).truthy then ["--branch", (args .githubRef).toStr] else []
    [["git", "clone"] ++ branch ++ [(args .githubRepo).toStr, dest],
      host.executable :: (if dest = "/" then "/install.py" else dest ++ "/install.py") ::
        forwardArgs args]

/-! ## the inputs -/

/-- `validate_url(value, allow_empty=True)`, or `none` where it raises `ValueError`. -/
def validateUrl (host : Host) (value : String) : Option String :=
  if value = "" then some value
  else
    (host.urlparse value).bind fun (scheme, netloc) =>
      if scheme ∉ ["http", "https"] ∨ netloc = "" then none
      else some (String.ofList (value.toList.rdropWhile (· = '/')))

/-- `value or os.environ.get(name, default)`. -/
def orEnviron (host : Host) (value : Value) (name default : String) : String :=
  if value.truthy then value.toStr else (host.environ name).getD default

/-- `collect_inputs` with `--non-interactive`, or `none` where it raises `ValueError`.  The
virtual environment is the text of its path. -/
def collectInputs (host : Host) (args : Namespace Dest) : Option (List (String × Value)) :=
  let token := orEnviron host (args .token) "RUBIKA_BOT_TOKEN" ""
  let ownerId := orEnviron host (args .ownerId) "RUBIKA_OWNER_ID" ""
  let apiBaseUrl := orEnviron host (args .apiBaseUrl) "RUBIKA_API_BASE_URL"
    (args .apiBaseUrl).toStr
  let webhookBaseUrl := orEnviron host (args .webhookBaseUrl) "RUBIKA_WEBHOOK_BASE_URL" ""
  let webhookSecret := orEnviron host (args .webhookSecret) "RUBIKA_WEBHOOK_SECRET" ""
  if token = "" ∨ ownerId = "" then none
  else
    (validateUrl host webhookBaseUrl).map fun webhookBaseUrl =>
      [("token", .str token), ("owner_id", .str ownerId), ("api_base_url", .str apiBaseUrl),
        ("webhook_base_url", .str webhookBaseUrl), ("webhook_secret", .str webhookSecret),
        ("venv_path", args .venvPath), ("service_name", args .serviceName),
        ("host", args .host), ("port", args .port),
        ("run_tests", .bool !(args .noTests).truthy), ("skip_pip", args .skipPip),
        ("write_env", .bool !(args .noEnv).truthy),
        ("write_systemd", .bool !(args .noSystemd).truthy), ("force", args .force),
        ("run_app", args .run), ("install_deps", args .installDeps),
        ("with_nginx", args .withNginx), ("with_ssl", args .withSsl),
        ("systemd_install", args .systemdInstall),
        ("register_webhook", .bool !(args .noWebhook).truthy)]

/-- The options that `collect_inputs` reads. -/
def inputOptions : List Dest :=
  [.nonInteractive, .token, .ownerId, .apiBaseUrl, .webhookBaseUrl, .webhookSecret, .venvPath,
    .serviceName, .host, .port, .noTests, .skipPip, .noEnv, .noSystemd, .force, .run,
    .installDeps, .withNginx, .withSsl, .systemdInstall, .noWebhook]

/-- The inputs depend on their options alone. -/
theorem collectInputs_congr (host : Host) {args args' : Namespace Dest}
    (h : ∀ d ∈ inputOptions, args' d = args d) :
    collectInputs host args' = collectInputs host args := by
  simp only [inputOptions, List.forall_mem_cons] at h
  simp only [collectInputs, h]

/-! ## the parser of the clone -/

/-- The parser of the installer is well formed. -/
theorem buildParser_wellFormed (u : Unicode) : buildParser.WellFormed u flagOf where
  nodup := by decide
  dashed := by decide
  named := by
    have hnamed : ∀ entry ∈ buildParser.actions,
        (entry.2.dest?.all fun dest => entry.1 = flagOf dest) = true := by decide
    intro entry hmem dest hdest
    simpa [hdest] using hnamed entry hmem
  stores := by
    have hdigits : (8080 : Int).natAbs < 10 ^ maxStrDigits :=
      Nat.lt_of_lt_of_le (by decide : 8080 < 10 ^ 4) (Nat.pow_le_pow_right (by decide) (by decide))
    have hport : intOf u (toString (8080 : Int)) = some 8080 := intOf_toString u hdigits
    simp only [Int.toString_eq_repr] at hport
    simp [buildParser, defaults, Conversion.apply, Value.toStr, hport]
  sets := by
    simp [buildParser, defaults]

/-- What is passed on has an action. -/
theorem mem_actions_of_mem_passthrough :
    ∀ d ∈ passthrough, ∃ entry ∈ buildParser.actions, entry.2.dest? = some d := by decide

/-- `--skip-pip` is the one option that is not passed on. -/
theorem skipPip_of_notMem : ∀ d ∈ inputOptions, d ∉ passthrough → d = .skipPip := by decide

/-- No option begins with a dash and a digit or a point. -/
theorem second_of_mem_actions : ∀ entry ∈ buildParser.actions,
    entry.1.toList[1]? = some '-' ∨ entry.1.toList[1]? = some 'h' := by decide

/-- No flag looks like a negative number. -/
theorem not_isNegativeNumber_of_mem_actions (u : Unicode) :
    ¬ buildParser.actions.any (fun entry => isNegativeNumber u entry.1) := by
  rw [List.any_eq_true]
  rintro ⟨entry, hmem, hnumber⟩
  have hfalse : isNegativeNumber u entry.1 = false := by
    obtain hsecond | hsecond := second_of_mem_actions entry hmem
    · exact isNegativeNumber_eq_false hsecond
        (by rw [u.decimal_ascii _ (by decide), if_neg (by decide)]) (by decide)
    · exact isNegativeNumber_eq_false hsecond
        (by rw [u.decimal_ascii _ (by decide), if_neg (by decide)]) (by decide)
  rw [hfalse] at hnumber
  cases hnumber

/-- A dash and a digit begin no option. -/
theorem optionTuples_eq_nil {s : String} {c : Char} {cs : List Char}
    (hs : s.toList = '-' :: c :: cs) (hc : c.isDigit = true) :
    buildParser.actionOf s = none ∧ buildParser.optionTuples s = [] := by
  have hother : ∀ entry ∈ buildParser.actions, entry.1.toList[1]? ≠ some c := by
    intro entry hmem hsecond
    obtain h | h := second_of_mem_actions entry hmem
    all_goals
      rw [hsecond, Option.some.injEq] at h
      subst h
      exact absurd hc (by decide)
  constructor
  · cases haction : buildParser.actionOf s with
    | none => rfl
    | some action =>
        exact absurd (by rw [hs]; rfl) (hother _ (Parser.mem_of_actionOf haction))
  · have hdashes : ¬ startsWith s "--" = true := by
      intro h
      rw [startsWith, hs] at h
      have hdash : '-' = c := by simpa [List.isPrefixOf] using h
      subst hdash
      exact absurd hc (by decide)
    rw [Parser.optionTuples, if_neg hdashes, List.filterMap_eq_nil_iff]
    intro entry hmem
    have htwo : entry.1 ≠ String.ofList (s.toList.take 2) := fun h =>
      hother entry hmem (by rw [h, hs]; simp)
    have hlonger : ¬ startsWith entry.1 s = true := by
      intro h
      obtain ⟨after, hafter⟩ := List.isPrefixOf_iff_prefix.mp h
      exact hother entry hmem (by rw [← hafter, hs]; rfl)
    rw [if_neg htwo, if_neg hlonger]

/-- A number is never taken for an option. -/
theorem isArgument_toString (u : Unicode) (n : Int) :
    buildParser.IsArgument u (toString n) := by
  have htext := toList_toString n
  have hdigits : ∀ c ∈ Nat.toDigits 10 n.natAbs, c.isDigit = true := fun c hc =>
    Nat.isDigit_of_mem_toDigits (by decide) (by decide) hc
  obtain ⟨c, cs, hcs⟩ := List.exists_cons_of_ne_nil (@Nat.toDigits_ne_nil n.natAbs 10)
  have hc : c.isDigit = true := hdigits c (by rw [hcs]; exact List.mem_cons_self)
  by_cases hn : 0 ≤ n
  · have hne : c ≠ '-' := by
      rintro rfl
      exact absurd hc (by decide)
    rw [if_pos hn, List.nil_append, hcs] at htext
    refine .inl ?_
    rw [startsWith, htext]
    simp [List.isPrefixOf, Ne.symm hne]
  · rw [if_neg hn, List.singleton_append] at htext
    have hequals : afterEquals (toString n) = none := by
      rw [afterEquals, if_neg]
      rw [htext]
      intro h
      obtain h | h := List.mem_cons.mp h
      · exact absurd h (by decide)
      · exact absurd (hdigits _ h) (by decide)
    obtain ⟨haction, htuples⟩ := optionTuples_eq_nil (htext.trans (by rw [hcs])) hc
    refine .inr ⟨haction, .inr ⟨?_, htuples, .inl ⟨isNegativeNumber_toString u (by omega),
      not_isNegativeNumber_of_mem_actions u⟩⟩⟩
    rw [beforeEquals_of_afterEquals hequals, haction]

/-! ## what the clone is passed -/

/-- The installer of the clone accepts what it is passed, and agrees on the inputs. -/
def Forwarded (u : Unicode) (host : Host) (args : Namespace Dest) : Prop :=
  ∃ clone script forwarded args',
    bootstrapFromGithub host args = [clone, host.executable :: script :: forwarded] ∧
      buildParser.parseArgs u forwarded = some args' ∧ ∀ d ∈ inputOptions, args' d = args d

/-- The clone's installer collects the same inputs. -/
theorem Forwarded.collectInputs {u : Unicode} {host : Host} {args : Namespace Dest}
    (h : Forwarded u host args) :
    ∃ clone script forwarded args',
      bootstrapFromGithub host args = [clone, host.executable :: script :: forwarded] ∧
        buildParser.parseArgs u forwarded = some args' ∧
          Install.collectInputs host args' = Install.collectInputs host args := by
  obtain ⟨clone, script, forwarded, args', hcommands, hparse, hagree⟩ := h
  exact ⟨clone, script, forwarded, args', hcommands, hparse, collectInputs_congr host hagree⟩

/-- The installer of the clone parses what it is given. -/
theorem forwarded_iff_parse {u : Unicode} {host : Host} {args : Namespace Dest}
    (hrepo : (args .githubRepo).truthy = true) :
    Forwarded u host args ↔ ∃ args', buildParser.parseArgs u (forwardArgs args) = some args' ∧
      ∀ d ∈ inputOptions, args' d = args d := by
  unfold Forwarded bootstrapFromGithub
  rw [if_neg (not_not_intro hrepo)]
  constructor
  · rintro ⟨clone, script, forwarded, args', hcommands, hagree⟩
    cases hcommands
    exact ⟨args', hagree⟩
  · rintro ⟨args', hagree⟩
    exact ⟨_, _, _, args', rfl, hagree⟩

/-- Options that may be held are passed on faithfully if and only if `--skip-pip` is not
among them and no text that is passed on looks like an option. -/
theorem forwarded_iff {u : Unicode} (hu : u.IsDecimal) (host : Host) {args : Namespace Dest}
    (hargs : ∀ d, buildParser.Holds u d (args d)) (hrepo : (args .githubRepo).truthy = true) :
    Forwarded u host args ↔ args .skipPip = .bool false ∧
      ∀ d ∈ passthrough, ∀ s, args d = .str s → buildParser.IsArgument u s := by
  have hforward := (buildParser_wellFormed u).forward_iff hu hargs
    mem_actions_of_mem_passthrough inputOptions
  rw [forwarded_iff_parse hrepo, forwardArgs, hforward]
  refine and_congr ⟨fun h => h .skipPip (by decide) (by decide), fun h d hd hnot => ?_⟩
    (forall₂_congr fun d hd => ⟨fun h s hs => h s (by rw [hs]; rfl), fun h s hs => ?_⟩)
  · obtain rfl : d = .skipPip := skipPip_of_notMem d hd hnot
    exact h
  · obtain hstr | ⟨n, -, rfl⟩ := Value.text_eq_some_iff.mp hs
    · exact h s hstr
    · exact isArgument_toString u n

/-- For every command line that the parser accepts and that sets `--github-repo`. -/
theorem bootstrap_forwards_iff {u : Unicode} (hu : u.IsDecimal) (host : Host)
    {argv : List String} {args : Namespace Dest}
    (hparse : buildParser.parseArgs u argv = some args)
    (hrepo : (args .githubRepo).truthy = true) :
    Forwarded u host args ↔ args .skipPip = .bool false ∧
      ∀ d ∈ passthrough, ∀ s, args d = .str s → buildParser.IsArgument u s :=
  forwarded_iff hu host (Parser.holds_of_parseArgs hparse) hrepo

/-- A host with nothing in its environment. -/
def bareHost : Host := ⟨"/usr/bin/python3", id, fun _ => none, fun _ => none⟩

/-- A value with a dash and a space, an empty one and a negative port are passed on. -/
theorem bootstrap_forwards_negativePort :
    ∃ args, buildParser.parseArgs .ascii
        ["--github-repo=r", "--token=-a b", "--host=", "--port=-5", "--force"] = some args ∧
      Forwarded .ascii bareHost args := by
  have hparsed : (buildParser.parseArgs .ascii
      ["--github-repo=r", "--token=-a b", "--host=", "--port=-5", "--force"]).any (fun args =>
        (args .githubRepo).truthy && args .skipPip = .bool false &&
          passthrough.all fun d => (args d).text.all fun s =>
            buildParser.IsArgument .ascii s) = true := by decide +kernel
  obtain ⟨args, hparse, hargs⟩ := (Option.any_eq_true _ _).mp hparsed
  rw [Bool.and_eq_true, Bool.and_eq_true, List.all_eq_true] at hargs
  obtain ⟨⟨hrepo, hskip⟩, htexts⟩ := hargs
  refine ⟨args, hparse, (bootstrap_forwards_iff Unicode.ascii_isDecimal bareHost hparse hrepo).mpr
    ⟨of_decide_eq_true hskip, fun d hd s hs => ?_⟩⟩
  have htext := htexts d hd
  rw [hs] at htext
  exact of_decide_eq_true htext

/-- Neither `--skip-pip` nor a token that begins with a dash reaches the clone. -/
theorem bootstrap_forwards_dashToken :
    (∃ args, buildParser.parseArgs .ascii ["--github-repo=r", "--skip-pip"] = some args ∧
      (args .githubRepo).truthy = true ∧ ¬ Forwarded .ascii bareHost args) ∧
    ∃ args, buildParser.parseArgs .ascii ["--github-repo=r", "--token=-abc"] = some args ∧
      (args .githubRepo).truthy = true ∧ ¬ Forwarded .ascii bareHost args := by
  constructor
  · have hparsed : (buildParser.parseArgs .ascii ["--github-repo=r", "--skip-pip"]).any
        (fun args => (args .githubRepo).truthy && args .skipPip = .bool true) = true := by
      decide +kernel
    obtain ⟨args, hparse, hargs⟩ := (Option.any_eq_true _ _).mp hparsed
    obtain ⟨hrepo, hskip⟩ := (Bool.and_eq_true _ _).mp hargs
    refine ⟨args, hparse, hrepo, fun h => ?_⟩
    have hclear := ((forwarded_iff Unicode.ascii_isDecimal bareHost
      (Parser.holds_of_parseArgs hparse) hrepo).mp h).1
    rw [of_decide_eq_true hskip] at hclear
    cases hclear
  · have hparsed : (buildParser.parseArgs .ascii ["--github-repo=r", "--token=-abc"]).any
        (fun args => (args .githubRepo).truthy && args .token = .str "-abc") = true := by
      decide +kernel
    obtain ⟨args, hparse, hargs⟩ := (Option.any_eq_true _ _).mp hparsed
    obtain ⟨hrepo, htoken⟩ := (Bool.and_eq_true _ _).mp hargs
    refine ⟨args, hparse, hrepo, fun h => ?_⟩
    have htexts := ((forwarded_iff Unicode.ascii_isDecimal bareHost
      (Parser.holds_of_parseArgs hparse) hrepo).mp h).2
    exact absurd (htexts .token (by decide) _ (of_decide_eq_true htoken)) (by decide +kernel)

end Install

end RubicaBot
