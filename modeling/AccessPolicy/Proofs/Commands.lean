import AccessPolicy.Proofs.Calls
import AccessPolicy.Proofs.Depth
import AccessPolicy.Proofs.Layers
import AccessPolicy.Proofs.Places
import AccessPolicy.Proofs.Standard

/-!
# What the commands say about a policy file

`validate` stores rule after rule and keeps all errors, while `show` and `check` build a rule set and
stop at the first one. Main statement `commands_agree`: they come to the same about a file, whatever
it holds. All three refuse it where it gives no policy. Where it gives one, `validate` lists the
rules that are none in their order (`tryRules_failures`), and the first of them is the one because
of which the others refuse the file (`buildFromFile_of_ok`).

What a file gives is a matter of its bytes alone (`policyOfBytes`), since the path by which it is
read leads to where the path in the words does (`FileTree.find?_text`).
-/

namespace AccessPolicy

theorem RuleSet.everyChecker_addRules_fresh (rules : List (String × String)) :
    (RuleSet.fresh.addRules rules).ruleSet.EveryChecker Checker.Builtin := by
  intro name checker hfind
  rw [RuleSet.checkers_addRules] at hfind
  exact RuleSet.everyChecker_fresh (P := Checker.Builtin) trivial trivial name checker hfind

/-! ## Policy files -/

/-- The policy that a file with these bytes gives. -/
def policyOfBytes (L : Loader) (bytes : ByteArray) : Except LoadError (Dict String) :=
  match textOfBytes? bytes with
  | none => .error .notText
  | some text => (readPolicy L text).mapError .document

namespace Disk

variable {L : Loader} {d : Disk} {path : Path} {rules : Dict String}

theorem readPolicy_eq_policyOfBytes {bytes : ByteArray}
    (h : d.find? path.text = some (.file bytes)) : d.readPolicy L path = policyOfBytes L bytes := by
  unfold Disk.readPolicy Disk.readText policyOfBytes
  cases htext : textOfBytes? bytes <;> simp only [h, htext]

theorem buildFromFile_of_error {e : LoadError} (h : d.readPolicy L path = .error e) :
    d.buildFromFile L path = ⟨RuleSet.fresh, [], some e⟩ :=
  (Build.start.addSource_of_error (s := .file path) h).1

/-- The first text that is no rule is why no rule set comes of a policy. -/
theorem buildFromFile_of_ok (h : d.readPolicy L path = .ok rules) :
    (d.buildFromFile L path).ruleSet = (RuleSet.fresh.addRules rules.entries).ruleSet ∧
    (d.buildFromFile L path).error = ((rules.entries.filterMap ruleError?).head?).map .rule := by
  have hbuild : d.buildFromFile L path = Build.start.addSource L d (.file path) := rfl
  rw [hbuild, Build.start.addSource_of_ok (s := .file path) h, List.head?_filterMap]
  exact ⟨rfl, congrArg (Option.map LoadError.rule) (RuleSet.addRules_error _ _)⟩

end Disk

/-- By the path that a command reads, a file of a tree gives what its bytes do. -/
theorem FileTree.readPolicy_of_find? (t : FileTree) (L : Loader) {file : String} {bytes : ByteArray}
    (h : t.find? file = some (.file bytes)) :
    t.disk.readPolicy L (Path.ofString file) = policyOfBytes L bytes := by
  have hfound : t.disk.find? (Path.ofString file).text = some (.file bytes) := by
    rw [t.find?_disk]
    exact t.find?_text h
  exact Disk.readPolicy_eq_policyOfBytes hfound

namespace CommandLine

/-- Storing rules one by one finds every text that is none. -/
theorem tryRules_failures (rs : RuleSet) (rules : List (String × String)) :
    (tryRules rs rules).failures = rules.filterMap ruleError? := by
  induction rules generalizing rs with
  | nil => rfl
  | cons rule rules ih =>
    obtain ⟨name, text⟩ := rule
    rw [tryRules]
    dsimp only
    rw [ih, rs.addRule_error]
    cases h : ruleError? (name, text) with
    | none => rw [List.filterMap_cons_none h]; rfl
    | some error => rw [List.filterMap_cons_some h]; rfl

theorem filterMap_ruleError?_ne_nil_iff {rules : List (String × String)} :
    rules.filterMap ruleError? ≠ [] ↔
      ∃ name text, (name, text) ∈ rules ∧ ∀ e, Expr.parse text ≠ .ok e := by
  constructor
  · intro h
    obtain ⟨error, herror⟩ := List.exists_mem_of_ne_nil _ h
    obtain ⟨⟨name, text⟩, hmem, hwrong⟩ := List.mem_filterMap.mp herror
    refine ⟨name, text, hmem, fun e he => ?_⟩
    rw [ruleError?_eq_none_iff.mpr ⟨e, he⟩] at hwrong
    cases hwrong
  · rintro ⟨name, text, hmem, hwrong⟩ h
    rw [List.filterMap_eq_nil_iff] at h
    obtain ⟨e, he⟩ := ruleError?_eq_none_iff.mp (h (name, text) hmem)
    exact hwrong e he

/-! ## Commands -/

/-- The table of the rules that are none. -/
def failureTable (failures : List RuleError) (total : Nat) : List (List String) :=
  [["Rule Syntax Errors"], ["Rule", "Line", "Column", "Expected"]]
    ++ failures.map failureRow
    ++ [["INVALID  " ++ toString failures.length ++ " of " ++ toString total
      ++ " rules failed to parse"]]

/-- A run that ends with an exit code. -/
def Exits (run : Except Breakdown Outcome) (code : Nat) : Prop :=
  ∃ rows notes, run = .ok ⟨code, rows, notes⟩

theorem Exits.not_exits {run : Except Breakdown Outcome} {code code' : Nat} (h : Exits run code)
    (hne : code ≠ code') : ¬ Exits run code' := by
  obtain ⟨rows, notes, rfl⟩ := h
  rintro ⟨rows', notes', heq⟩
  exact hne (congrArg Outcome.exitCode (Except.ok.inj heq))

/-- The run ends as an evaluation does: with 0 where that allows, with 1 where it denies, and
without an exit code where it goes too deep. -/
def EndsAs (run : Except Breakdown Outcome) : Except Fault Bool → Prop
  | .ok true => Exits run 0
  | .ok false => Exits run 1
  | .error fault => fault = .tooDeep ∧ run = .error (.fault .tooDeep)

theorem refuse_of_expected {e : LoadError} (h : e.isExpected = true) (verbose : Bool)
    (log : List LogEntry) (lead : String) :
    refuse verbose log lead e = .ok ⟨2, [], logNotes verbose log ++ [failureNote lead e]⟩ :=
  if_pos h

theorem refuse_of_unexpected {e : LoadError} (h : e.isExpected = false) (verbose : Bool)
    (log : List LogEntry) (lead : String) : refuse verbose log lead e = .error (.load e) :=
  if_neg (by rw [h]; exact Bool.false_ne_true)

section

variable {L : Loader} {d : Disk} {file : String} {rules : Dict String} (verbose : Bool)

theorem validate_of_error {e : LoadError} (h : d.readPolicy L (Path.ofString file) = .error e) :
    validate L d verbose file = refuse verbose [] "Invalid policy file:" e := by
  rw [validate, Disk.loadPolicy, h]

theorem validate_of_ok (h : d.readPolicy L (Path.ofString file) = .ok rules)
    (hrules : rules.entries.filterMap ruleError? = []) :
    ∃ rows notes, validate L d verbose file = .ok ⟨0, rows, notes⟩ := by
  rw [validate, Disk.loadPolicy, h]
  dsimp only
  rw [tryRules_failures, hrules]
  exact ⟨_, _, rfl⟩

theorem validate_of_failure (h : d.readPolicy L (Path.ofString file) = .ok rules)
    {first : RuleError} {others : List RuleError}
    (hrules : rules.entries.filterMap ruleError? = first :: others) :
    ∃ notes, validate L d verbose file =
      .ok ⟨1, failureTable (first :: others) rules.size, notes⟩ := by
  rw [validate, Disk.loadPolicy, h]
  dsimp only
  rw [tryRules_failures, hrules]
  exact ⟨_, rfl⟩

theorem show_of_error {e : LoadError}
    (h : (d.buildFromFile L (Path.ofString file)).error = some e) :
    «show» L d verbose file =
      refuse verbose (d.buildFromFile L (Path.ofString file)).log "Could not load policy:" e := by
  rw [«show», h]

theorem show_of_ok (h : (d.buildFromFile L (Path.ofString file)).error = none) :
    ∃ rows notes, «show» L d verbose file = .ok ⟨0, rows, notes⟩ := by
  rw [«show», h]
  exact ⟨_, _, rfl⟩

theorem check_of_error {e : LoadError}
    (h : (d.buildFromFile L (Path.ofString file)).error = some e) (rule : String)
    (request : Request) : check L d verbose file rule request =
      refuse verbose (d.buildFromFile L (Path.ofString file)).log "Could not load policy:" e := by
  rw [check, h]

/-- A rule of a policy allows, denies, or goes too deep. -/
theorem check_of_ok (h : d.readPolicy L (Path.ofString file) = .ok rules)
    (hrules : rules.entries.filterMap ruleError? = []) (rule : String) (request : Request) :
    EndsAs (check L d verbose file rule request)
      ((RuleSet.fresh.addRules rules.entries).ruleSet.evaluate rule request).outcome := by
  obtain ⟨hruleSet, herror⟩ := Disk.buildFromFile_of_ok h
  rw [hrules] at herror
  have hbuiltin : (RuleSet.fresh.addRules rules.entries).ruleSet.EveryChecker Checker.Builtin :=
    RuleSet.everyChecker_addRules_fresh rules.entries
  have hplain := hbuiltin.imp fun _ => Checker.Builtin.plain
  rw [check, herror, hruleSet]
  dsimp only [List.head?_nil, Option.map_none]
  cases hrun : ((RuleSet.fresh.addRules rules.entries).ruleSet.evaluate rule request).outcome with
  | error fault =>
    obtain rfl := RuleSet.fault_eq_tooDeep hplain hrun
    exact ⟨rfl, rfl⟩
  | ok allowed =>
    cases allowed with
    | true => exact ⟨_, _, rfl⟩
    | false => exact ⟨_, _, rfl⟩

/-- A request matters to `check` only by what is evaluated for it. -/
theorem check_of_evaluate_eq (h : d.readPolicy L (Path.ofString file) = .ok rules) {rule : String}
    {q q' : Request}
    (heval : (RuleSet.fresh.addRules rules.entries).ruleSet.evaluate rule q =
      (RuleSet.fresh.addRules rules.entries).ruleSet.evaluate rule q') :
    check L d verbose file rule q = check L d verbose file rule q' := by
  obtain ⟨hruleSet, -⟩ := Disk.buildFromFile_of_ok h
  rw [check, check, hruleSet, heval]

end

/-! ## Files of a tree -/

/-- What the three commands come to, about a file with these bytes. -/
structure Answers (L : Loader) (bytes : ByteArray)
    (validated shown checked : Except Breakdown Outcome) : Prop where
  /-- A file that gives no policy is refused. -/
  refused {e : LoadError} (h : policyOfBytes L bytes = .error e) (he : e.isExpected = true) :
    Exits validated 2 ∧ Exits shown 2 ∧ Exits checked 2
  /-- A reason that nobody looks out for goes through. -/
  broken {e : LoadError} (h : policyOfBytes L bytes = .error e) (he : e.isExpected = false) :
    validated = .error (.load e) ∧ shown = .error (.load e) ∧ checked = .error (.load e)
  /-- Every text is a rule. -/
  fine {rules : Dict String} (h : policyOfBytes L bytes = .ok rules)
    (hrules : rules.entries.filterMap ruleError? = []) :
    Exits validated 0 ∧ Exits shown 0 ∧
      (Exits checked 0 ∨ Exits checked 1 ∨ checked = .error (.fault .tooDeep))
  /-- Some text is no rule. -/
  failed {rules : Dict String} {first : RuleError} {others : List RuleError}
    (h : policyOfBytes L bytes = .ok rules)
    (hrules : rules.entries.filterMap ruleError? = first :: others) :
    (∃ notes, validated = .ok ⟨1, failureTable (first :: others) rules.size, notes⟩) ∧
      (∃ log, shown = .ok ⟨2, [], log ++ [failureNote "Could not load policy:" (.rule first)]⟩) ∧
      ∃ log, checked = .ok ⟨2, [], log ++ [failureNote "Could not load policy:" (.rule first)]⟩

theorem answers_of_readPolicy {L : Loader} {d : Disk} {file : String} {bytes : ByteArray}
    (hread : d.readPolicy L (Path.ofString file) = policyOfBytes L bytes) (v v' v'' : Bool)
    (rule : String) (request : Request) :
    Answers L bytes (validate L d v file) («show» L d v' file)
      (check L d v'' file rule request) where
  refused h he := by
    rw [h] at hread
    have hbuild := congrArg Build.error (Disk.buildFromFile_of_error hread)
    rw [validate_of_error v hread, show_of_error v' hbuild, check_of_error v'' hbuild,
      refuse_of_expected he, refuse_of_expected he, refuse_of_expected he]
    exact ⟨⟨_, _, rfl⟩, ⟨_, _, rfl⟩, ⟨_, _, rfl⟩⟩
  broken h he := by
    rw [h] at hread
    have hbuild := congrArg Build.error (Disk.buildFromFile_of_error hread)
    rw [validate_of_error v hread, show_of_error v' hbuild, check_of_error v'' hbuild,
      refuse_of_unexpected he, refuse_of_unexpected he, refuse_of_unexpected he]
    exact ⟨rfl, rfl, rfl⟩
  fine h hrules := by
    rw [h] at hread
    obtain ⟨-, herror⟩ := Disk.buildFromFile_of_ok hread
    rw [hrules] at herror
    refine ⟨validate_of_ok v hread hrules, show_of_ok v' herror, ?_⟩
    have hends := check_of_ok v'' hread hrules rule request
    unfold EndsAs at hends
    split at hends
    next => exact Or.inl hends
    next => exact Or.inr (Or.inl hends)
    next => exact Or.inr (Or.inr hends.2)
  failed {rules first others} h hrules := by
    rw [h] at hread
    obtain ⟨-, herror⟩ := Disk.buildFromFile_of_ok hread
    rw [hrules] at herror
    have hexpected : LoadError.isExpected (.rule first) = true := rfl
    refine ⟨validate_of_failure v hread hrules, ?_, ?_⟩
    · rw [show_of_error v' herror, refuse_of_expected hexpected]
      exact ⟨_, rfl⟩
    · rw [check_of_error v'' herror, refuse_of_expected hexpected]
      exact ⟨_, rfl⟩

theorem answers_of_find? {p : Packages} (hp : p.ReadsWords) (t : FileTree)
    {file rule : String} {bytes : ByteArray} (hfile : t.find? file = some (.file bytes))
    (hname : file.toList.head? ≠ some '-') {validating showing checking words : List String}
    (hvalidating : Calls validating "validate" [file]) (hshowing : Calls showing "show" [file])
    (hchecking : Calls checking "check" words) (hwords : AsksFor p words file rule) :
    Answers p.toLoader bytes (run p t.disk validating) (run p t.disk showing)
      (run p t.disk checking) := by
  have hread := t.readPolicy_of_find? p.toLoader hfile
  obtain ⟨v, hv⟩ := run_of_calls hp hvalidating (by decide)
  obtain ⟨v', hv'⟩ := run_of_calls hp hshowing (by decide)
  obtain ⟨v'', hv''⟩ := run_of_calls hp hchecking (by decide)
  obtain ⟨request, hcheck⟩ := runCheck_of_asksFor (d := t.disk) hwords hfile
  have hone (command : String → Except Breakdown Outcome) :
      runOnFile p t.disk [file] command = .ok (command file) :=
    runOnFile_of_find? hfile hp hname command
  rw [hv t.disk _ (hone _), hv' t.disk _ (hone _), hv'' t.disk _ (hcheck v'')]
  exact answers_of_readPolicy hread v v' v'' rule request

/-- **The commands agree.** About a file that is there, whatever it holds: unless it gives no policy
for a reason that nobody looks out for, `validate` is content exactly if `show` is, and exactly if
`check` does not refuse the file. It refuses the file exactly if that gives no policy, and finds
fault with the rules exactly if one of them is none. Then its table has a row for each of those in
their order, and the first is the one for which `show` and `check` refuse the file. For a reason
that nobody looks out for, all three break off. -/
theorem commands_agree {p : Packages} (hp : p.ReadsWords) (t : FileTree)
    {file rule : String} {bytes : ByteArray} (hfile : t.find? file = some (.file bytes))
    (hname : file.toList.head? ≠ some '-') {validating showing checking words : List String}
    (hvalidating : Calls validating "validate" [file]) (hshowing : Calls showing "show" [file])
    (hchecking : Calls checking "check" words) (hwords : AsksFor p words file rule) :
    ((∀ e, policyOfBytes p.toLoader bytes = .error e → e.isExpected = true) →
      (Exits (run p t.disk validating) 0 ↔ Exits (run p t.disk showing) 0) ∧
      (Exits (run p t.disk validating) 0 ↔ ¬ Exits (run p t.disk checking) 2) ∧
      (Exits (run p t.disk checking) 0 ∨ Exits (run p t.disk checking) 1 ∨
        Exits (run p t.disk checking) 2 ∨ run p t.disk checking = .error (.fault .tooDeep)) ∧
      (Exits (run p t.disk validating) 2 ↔ ∃ e, policyOfBytes p.toLoader bytes = .error e) ∧
      (Exits (run p t.disk validating) 1 ↔ ∃ rules, policyOfBytes p.toLoader bytes = .ok rules ∧
        ∃ name text, (name, text) ∈ rules.entries ∧ ∀ e, Expr.parse text ≠ .ok e)) ∧
    (∀ rules first others, policyOfBytes p.toLoader bytes = .ok rules →
      rules.entries.filterMap ruleError? = first :: others →
      (∃ notes, run p t.disk validating =
        .ok ⟨1, failureTable (first :: others) rules.size, notes⟩) ∧
      (∃ log, run p t.disk showing =
        .ok ⟨2, [], log ++ [failureNote "Could not load policy:" (.rule first)]⟩) ∧
      ∃ log, run p t.disk checking =
        .ok ⟨2, [], log ++ [failureNote "Could not load policy:" (.rule first)]⟩) ∧
    ∀ e, policyOfBytes p.toLoader bytes = .error e → e.isExpected = false →
      run p t.disk validating = .error (.load e) ∧ run p t.disk showing = .error (.load e) ∧
        run p t.disk checking = .error (.load e) := by
  have hanswers := answers_of_find? hp t hfile hname hvalidating hshowing hchecking hwords
  refine ⟨fun hexpected => ?_, fun _ _ _ => hanswers.failed, fun _ => hanswers.broken⟩
  -- each way that the file can be gives one exit code for every command, which rules out the others
  cases h : policyOfBytes p.toLoader bytes with
  | error e =>
    obtain ⟨hv, hs, hc⟩ := hanswers.refused h (hexpected e h)
    refine ⟨iff_of_false (hv.not_exits (by decide)) (hs.not_exits (by decide)),
      iff_of_false (hv.not_exits (by decide)) (not_not_intro hc), Or.inr (Or.inr (Or.inl hc)),
      iff_of_true hv ⟨e, rfl⟩, iff_of_false (hv.not_exits (by decide)) ?_⟩
    rintro ⟨rules, heq, -⟩
    cases heq
  | ok rules =>
    cases hrules : rules.entries.filterMap ruleError? with
    | nil =>
      obtain ⟨hv, hs, hc⟩ := hanswers.fine h hrules
      have hnot : ¬ Exits (run p t.disk checking) 2 := by
        rcases hc with hc | hc | hc
        · exact hc.not_exits (by decide)
        · exact hc.not_exits (by decide)
        · rintro ⟨rows, notes, heq⟩
          rw [hc] at heq
          cases heq
      refine ⟨iff_of_true hv hs, iff_of_true hv hnot, ?_,
        iff_of_false (hv.not_exits (by decide)) nofun,
        iff_of_false (hv.not_exits (by decide)) ?_⟩
      · rcases hc with hc | hc | hc
        · exact Or.inl hc
        · exact Or.inr (Or.inl hc)
        · exact Or.inr (Or.inr (Or.inr hc))
      · rintro ⟨rules', heq, hwrong⟩
        obtain rfl := Except.ok.inj heq
        exact filterMap_ruleError?_ne_nil_iff.mpr hwrong hrules
    | cons first others =>
      obtain ⟨⟨notes, hv⟩, ⟨log, hs⟩, ⟨log', hc⟩⟩ := hanswers.failed h hrules
      have hv : Exits (run p t.disk validating) 1 := ⟨_, _, hv⟩
      have hs : Exits (run p t.disk showing) 2 := ⟨_, _, hs⟩
      have hc : Exits (run p t.disk checking) 2 := ⟨_, _, hc⟩
      have hwrong := filterMap_ruleError?_ne_nil_iff.mp (hrules ▸ List.cons_ne_nil first others)
      exact ⟨iff_of_false (hv.not_exits (by decide)) (hs.not_exits (by decide)),
        iff_of_false (hv.not_exits (by decide)) (not_not_intro hc), Or.inr (Or.inr (Or.inl hc)),
        iff_of_false (hv.not_exits (by decide)) nofun, iff_of_true hv ⟨rules, rfl, hwrong⟩⟩

/-- A policy with two texts that are no rules. -/
def mixedPolicy : ByteArray := "a: '@'\nb: '('\nc: ''\n".toUTF8

/-- A mapping whose one value is tagged as a truth value, and is none. -/
def oddPolicy : ByteArray := "a: !!bool maybe\n".toUTF8

/-- What reading it ends with. -/
def oddError : LoadError := .document (.unread (.stray .missingKey "'maybe'"))

/-- The two files, side by side. -/
def twoPolicies : FileTree :=
  ⟨["home"], [(["home", "mixed.yaml"], mixedPolicy), (["home", "odd.yaml"], oddPolicy)]⟩

/-- Words that ask for the rule `b`, with an option of each kind. -/
def mixedWords : List String :=
  ["--role", "x", "--attr", "k=v=w", "--target", "t=", "./mixed.yaml", "b"]

/-- What a policy gives can be decided from its entries. -/
theorem exists_of_map_entries {answer : Except LoadError (Dict String)}
    {entries : List (String × String)} (h : answer.map Dict.entries = .ok entries) :
    ∃ rules, answer = .ok rules ∧ rules.entries = entries := by
  cases answer with
  | error e => cases h
  | ok rules => exact ⟨rules, rfl, Except.ok.inj h⟩

theorem policyOfBytes_mixed :
    ∃ rules, policyOfBytes .standard mixedPolicy = .ok rules ∧
      rules.entries = [("a", "@"), ("b", "("), ("c", "")] :=
  exists_of_map_entries (by decide +kernel)

theorem policyOfBytes_odd :
    policyOfBytes .standard oddPolicy = .error oddError := by
  have hentries : (policyOfBytes .standard oddPolicy).map Dict.entries = .error oddError := by
    decide +kernel
  cases h : policyOfBytes .standard oddPolicy with
  | error e =>
    rw [h] at hentries
    exact congrArg Except.error (Except.error.inj hentries)
  | ok rules =>
    rw [h] at hentries
    cases hentries

theorem asksFor_mixedWords : AsksFor .standard mixedWords "./mixed.yaml" "b" := by
  let options : List Given :=
    [⟨roleOption, "x"⟩, ⟨attributeOption, "k=v=w"⟩, ⟨targetOption, "t="⟩]
  have hoptions : ∀ g ∈ options, g.option ∈ valueSpecs := by decide
  have hpairs : ∀ g ∈ options, g.option ≠ roleOption → (pair? g.value).isSome = true := by decide
  exact asksFor_options readsWords_standard hoptions hpairs (by decide) (by decide)

/-- What is wrong with the second rule of the policy. -/
def unclosedError : RuleError := ⟨"b", ⟨1, 1, 2, [.expression]⟩⟩

/-- What is wrong with the third rule of the policy. -/
def emptyError : RuleError := ⟨"c", ⟨0, 1, 1, [.expression]⟩⟩

/-- About the first policy, `validate` finds fault with two rules and the others refuse it for the
first of them; about the odd one, all three break off. -/
theorem commands_agree_mixed :
    AsksFor .standard mixedWords "./mixed.yaml" "b" ∧
    Exits (run .standard twoPolicies.disk ["-v", "validate", "./mixed.yaml"]) 1 ∧
    (∃ rules, policyOfBytes .standard mixedPolicy = .ok rules ∧
      rules.entries.filterMap ruleError? = [unclosedError, emptyError] ∧
      (∃ notes, run .standard twoPolicies.disk ["-v", "validate", "./mixed.yaml"] =
        .ok ⟨1, failureTable [unclosedError, emptyError] rules.size, notes⟩) ∧
      (∃ log, run .standard twoPolicies.disk ["show", "./mixed.yaml"] =
        .ok ⟨2, [], log ++ [failureNote "Could not load policy:" (.rule unclosedError)]⟩) ∧
      ∃ log, run .standard twoPolicies.disk ("check" :: mixedWords) =
        .ok ⟨2, [], log ++ [failureNote "Could not load policy:" (.rule unclosedError)]⟩) ∧
    oddError.isExpected = false ∧
    run .standard twoPolicies.disk ["show", "odd.yaml"] = .error (.load oddError) := by
  have hmixed : twoPolicies.find? "./mixed.yaml" = some (.file mixedPolicy) := rfl
  have hodd : twoPolicies.find? "odd.yaml" = some (.file oddPolicy) := rfl
  have hasks : AsksFor .standard ["odd.yaml", "a"] "odd.yaml" "a" :=
    @asksFor_options _ readsWords_standard [] nofun nofun _ _ (by decide) (by decide)
  have hverbose : Calls ["-v", "validate", "./mixed.yaml"] "validate" ["./mixed.yaml"] :=
    ⟨["-v"], by decide, rfl⟩
  have hplain (name : String) (rest : List String) : Calls (name :: rest) name rest :=
    ⟨[], nofun, rfl⟩
  obtain ⟨rules, hrules, hentries⟩ := policyOfBytes_mixed
  have hfailures : rules.entries.filterMap ruleError? = [unclosedError, emptyError] := by
    rw [hentries]
    decide +kernel
  have hexpected : ∀ e, policyOfBytes .standard mixedPolicy = .error e → e.isExpected = true := by
    intro e he
    rw [hrules] at he
    cases he
  obtain ⟨hexits, hfailed, -⟩ := commands_agree readsWords_standard twoPolicies hmixed (by decide)
    hverbose (hplain "show" _) (hplain "check" _) asksFor_mixedWords
  obtain ⟨-, -, -, -, hone⟩ := hexits hexpected
  obtain ⟨-, -, hbroken⟩ := commands_agree readsWords_standard twoPolicies hodd (by decide)
    (hplain "validate" _) (hplain "show" _) (hplain "check" _) hasks
  have hwrong := filterMap_ruleError?_ne_nil_iff.mp (hfailures ▸ List.cons_ne_nil _ _)
  exact ⟨asksFor_mixedWords, hone.mpr ⟨rules, hrules, hwrong⟩,
    ⟨rules, hrules, hfailures, hfailed rules _ _ hrules hfailures⟩, rfl,
    (hbroken _ policyOfBytes_odd rfl).2.1⟩

/-- Where a truth value is none, the document gives no policy, and yet no command refuses it. -/
theorem validate_breaks_off :
    policyOfBytes .standard oddPolicy = .error oddError ∧
    ¬ Exits (run .standard twoPolicies.disk ["validate", "odd.yaml"]) 2 ∧
    ¬ (Exits (run .standard twoPolicies.disk ["validate", "odd.yaml"]) 0 ↔
      ¬ Exits (run .standard twoPolicies.disk ["check", "odd.yaml", "a"]) 2) := by
  have hvalidate : run .standard twoPolicies.disk ["validate", "odd.yaml"] =
      .error (.load oddError) := by
    decide +kernel
  have hcheck : run .standard twoPolicies.disk ["check", "odd.yaml", "a"] =
      .error (.load oddError) := by
    decide +kernel
  have hnot : ∀ code, ¬ Exits (.error (.load oddError)) code := by
    rintro code ⟨rows, notes, heq⟩
    cases heq
  rw [hvalidate, hcheck]
  exact ⟨policyOfBytes_odd, hnot 2, fun hiff => hnot 0 (hiff.mpr (hnot 2))⟩

end CommandLine
end AccessPolicy
