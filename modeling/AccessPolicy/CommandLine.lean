import AccessPolicy.CommandLine.Display
import AccessPolicy.CommandLine.Usage
import AccessPolicy.RuleSet.Evaluation
import AccessPolicy.Sources

/-!
# The command line

Three commands work on a policy file, and agree about it:

* `validate` parses every rule and lists those that are none;
* `check` evaluates one rule for a caller and a target that options describe;
* `show` writes every rule in its simplest form.

`version` says what the program is. Before the command, `--verbose` asks for the log.

A command ends with 0 where all is well, with 1 where a rule does not parse or denies, and with 2
where the words make no sense or the file gives no policy. It breaks off without any of these where
rules refer to each other without end, and where the file cannot be read for a reason that nobody
looks out for.

Files are read with a loader, and words with a reader of words; the program comes with both
(`Packages`).
-/

namespace AccessPolicy.CommandLine

/-- How a command ends: its exit code, the rows it shows, and the lines it writes for whoever looks
after it. -/
structure Outcome where
  exitCode : Nat
  rows : List (List String)
  notes : List String
  deriving DecidableEq, Repr

namespace Outcome

/-- The end of a command whose words make no sense. -/
def ofUsageError (e : UsageError) : Outcome := ⟨2, [], ["Error: " ++ e.message]⟩

end Outcome

/-- Why a command breaks off, without an outcome. -/
inductive Breakdown where
  /-- A rule has no result. -/
  | fault (fault : Fault)
  /-- The file gives no policy, for a reason that is not expected. -/
  | load (error : LoadError)
  deriving DecidableEq, Repr

/-- The version of the program. -/
def programVersion : String := "0.1.0"

/-! ## Commands -/

/-- What is said of a file that gives no policy. -/
def failureNote (lead : String) : LoadError → String
  | .rule e => lead ++ " " ++ String.ofList (shownText e.message)
  | .document (.unread .noDocument) => lead ++ " Malformed policy document"
  | _ => lead

/-- The lines of a log, where it was asked for. -/
def logNotes (verbose : Bool) (log : List LogEntry) : List String :=
  if verbose then log.map LogEntry.line else []

/-- The end of a command whose file gives no policy: the reason is told, if it is expected. -/
def refuse (verbose : Bool) (log : List LogEntry) (lead : String) (e : LoadError) :
    Except Breakdown Outcome :=
  if e.isExpected then .ok ⟨2, [], logNotes verbose log ++ [failureNote lead e]⟩
  else .error (.load e)

/-- What storing rules one by one comes to when no text stops the rest. -/
structure Trial where
  ruleSet : RuleSet
  log : List LogEntry
  failures : List RuleError

/-- Stores every rule that parses, in order, and keeps the errors of the others. -/
def tryRules (rs : RuleSet) : List (String × String) → Trial
  | [] => ⟨rs, [], []⟩
  | (name, text) :: rest =>
    let update := rs.addRule name text
    let others := tryRules update.ruleSet rest
    ⟨others.ruleSet, update.log ++ others.log, update.error.toList ++ others.failures⟩

/-- The row about a rule that does not parse. -/
def failureRow (e : RuleError) : List String :=
  [cellText e.rule, toString e.error.line, toString e.error.column, cellText e.error.expectedText]

/-- Parses every rule of a policy file. -/
def validate (L : Loader) (d : Disk) (verbose : Bool) (file : String) :
    Except Breakdown Outcome :=
  match d.loadPolicy L (Path.ofString file) with
  | (log, .error e) => refuse verbose log "Invalid policy file:" e
  | (log, .ok rules) =>
    let trial := tryRules RuleSet.fresh rules.entries
    let notes := logNotes verbose (log ++ trial.log)
    let total := toString rules.size
    match trial.failures with
    | [] => .ok ⟨0, [["VALID  " ++ total ++ " rules parsed from " ++ boldText file]], notes⟩
    | failures =>
      .ok ⟨1, [["Rule Syntax Errors"], ["Rule", "Line", "Column", "Expected"]]
          ++ failures.map failureRow
          ++ [["INVALID  " ++ toString failures.length ++ " of " ++ total
            ++ " rules failed to parse"]],
        notes⟩

/-- Evaluates a rule of a policy file for a request. -/
def check (L : Loader) (d : Disk) (verbose : Bool) (file rule : String) (request : Request) :
    Except Breakdown Outcome :=
  let b := d.buildFromFile L (Path.ofString file)
  match b.error with
  | some e => refuse verbose b.log "Could not load policy:" e
  | none =>
    let run := b.ruleSet.evaluate rule request
    match run.outcome with
    | .error fault => .error (.fault fault)
    | .ok allowed =>
      let title := "Rule " ++ Text.quote rule
      let missing := if b.ruleSet.isDefined rule then []
        else [["  " ++ title ++ " is not defined in " ++ file ++ "."]]
      .ok ⟨if allowed then 0 else 1,
        [[title], [if allowed then "ALLOWED" else "DENIED"]] ++ missing,
        logNotes verbose (b.log ++ run.entries)⟩

/-- Writes every rule of a policy file. -/
def «show» (L : Loader) (d : Disk) (verbose : Bool) (file : String) :
    Except Breakdown Outcome :=
  let b := d.buildFromFile L (Path.ofString file)
  match b.error with
  | some e => refuse verbose b.log "Could not load policy:" e
  | none =>
    .ok ⟨0, [["Rules"], ["Rule", "Expression"]]
        ++ b.ruleSet.sortedRules.map fun (name, e) => [cellText name, cellText e.render],
      logNotes verbose b.log⟩

/-- Says what the program is. -/
def version : Outcome :=
  ⟨0, [["Version"], ["policy-ruleset", "v" ++ programVersion],
    ["Embeddable evaluation engine for oslo.policy-style rules."]], []⟩

/-! ## Options and arguments -/

/-- Asks what there is; known to every command. -/
def helpOption : OptionSpec := ⟨"--help", none, false⟩
/-- Asks for the version. -/
def versionOption : OptionSpec := ⟨"--version", none, false⟩
/-- Asks for the log. -/
def verboseOption : OptionSpec := ⟨"--verbose", some 'v', false⟩
/-- A role of the caller. -/
def roleOption : OptionSpec := ⟨"--role", some 'r', true⟩
/-- An attribute of the caller. -/
def attributeOption : OptionSpec := ⟨"--attr", some 'a', true⟩
/-- An attribute of the target. -/
def targetOption : OptionSpec := ⟨"--target", some 't', true⟩

/-- The options in front of the command. -/
def programOptions : List OptionSpec := [versionOption, verboseOption, helpOption]

/-- The options of `check` with a value. -/
def valueSpecs : List OptionSpec := [roleOption, attributeOption, targetOption]

/-- The options that `check` knows. -/
def checkSpecs : List OptionSpec := valueSpecs ++ [helpOption]

/-- The name of the argument for the policy file. -/
def fileArgument : String := "POLICY_FILE"
/-- The name of the argument for the rule. -/
def ruleArgument : String := "RULE_NAME"

/-- A name and a value, apart by the first equals sign; the name may not be empty. -/
def pair? (text : String) : Option (String × String) :=
  match splitAtEquals text with
  | ("", _) | (_, none) => none
  | (name, some value) => some (name, value)

/-- The pairs that the values of an option write. -/
def pairs (option : OptionSpec) : List String → Except UsageError (List (String × String))
  | [] => .ok []
  | text :: rest =>
    match pair? text with
    | none => .error (.notPair option text)
    | some p => (pairs option rest).map (p :: ·)

/-- The request that the options of `check` describe. -/
def described (roles attributes target : List String) : Except UsageError Request := do
  let attributes ← pairs attributeOption attributes
  let target ← pairs targetOption target
  .ok ⟨⟨roles, Dict.ofList attributes⟩, .known (Dict.ofList target)⟩

/-- Evaluates a rule of a policy file for the request that the values of the options describe. -/
def checkDescribed (L : Loader) (d : Disk) (verbose : Bool) (file rule : String)
    (roles attributes target : List String) : Except UsageError (Except Breakdown Outcome) :=
  (described roles attributes target).map (check L d verbose file rule)

/-- The policy file among the arguments: it has to be there, and no directory. -/
def policyFile (d : Disk) : List String → Except UsageError (String × List String)
  | [] => .error (.missingArgument fileArgument)
  | file :: rest =>
    match d.find? file with
    | none => .error (.noSuchFile fileArgument file)
    | some .directory => .error (.directory fileArgument file)
    | some (.file _) => .ok (file, rest)

/-- No further argument makes sense. -/
def noMore : List String → Except UsageError Unit
  | [] => .ok ()
  | words => .error (.extraArguments words)

/-- Checks that the values of an option are pairs. -/
def checkPairs (r : Reading) (option : OptionSpec) : Except UsageError Unit :=
  if option = attributeOption ∨ option = targetOption then
    (pairs option (r.values option)).map fun _ => ()
  else .ok ()

/-- Checks the options in the order in which they were first given. -/
def checkOptions (r : Reading) : Except UsageError Unit :=
  ((r.options.map (·.option)).eraseDups).forM (checkPairs r)

/-! ## Reading words -/

/-- What the command line takes from elsewhere: what reads documents, and what reads words. The
reader of words is given the options there are, and told whether these have to come first. -/
structure Packages extends Loader where
  readWords : List OptionSpec → Bool → List String → Except UsageError Reading

/-- What readers of words have in common. A word without a hyphen in front is an argument, or ends
the options where these have to come first. The log may be asked for in two ways, and the value of
an option may stand behind its long name. -/
structure Packages.ReadsWords (p : Packages) : Prop where
  nothing (specs : List OptionSpec) (optionsFirst : Bool) :
    p.readWords specs optionsFirst [] = .ok ⟨[], []⟩
  argument (specs : List OptionSpec) {word : String} (h : word.toList.head? ≠ some '-')
    (rest : List String) : p.readWords specs false (word :: rest) =
      (p.readWords specs false rest).map fun r => { r with arguments := word :: r.arguments }
  command (specs : List OptionSpec) {word : String} (h : word.toList.head? ≠ some '-')
    (rest : List String) : p.readWords specs true (word :: rest) = .ok ⟨[], word :: rest⟩
  verbose {word : String} (h : word = "-v" ∨ word = "--verbose") (rest : List String) :
    p.readWords programOptions true (word :: rest) =
      (p.readWords programOptions true rest).map (·.given [⟨verboseOption, ""⟩])
  option {o : OptionSpec} (h : o ∈ valueSpecs) (value : String) (rest : List String) :
    p.readWords checkSpecs false (o.long :: value :: rest) =
      (p.readWords checkSpecs false rest).map (·.given [⟨o, value⟩])

/-! ## Running -/

/-- Runs a command that takes a policy file and nothing else. -/
def runOnFile (p : Packages) (d : Disk) (words : List String)
    (command : String → Except Breakdown Outcome) :
    Except UsageError (Except Breakdown Outcome) := do
  let r ← p.readWords [helpOption] false words
  if r.has helpOption then return .ok ⟨0, [], []⟩
  let (file, rest) ← policyFile d r.arguments
  noMore rest
  return command file

/-- Runs `version`. -/
def runVersion (p : Packages) (words : List String) : Except UsageError Outcome := do
  let r ← p.readWords [helpOption] false words
  if r.has helpOption then return ⟨0, [], []⟩
  noMore r.arguments
  return version

/-- Runs `check`. -/
def runCheck (p : Packages) (d : Disk) (verbose : Bool) (words : List String) :
    Except UsageError (Except Breakdown Outcome) := do
  let r ← p.readWords checkSpecs false words
  if r.has helpOption then return .ok ⟨0, [], []⟩
  checkOptions r
  let (file, rest) ← policyFile d r.arguments
  match rest with
  | [] => throw (.missingArgument ruleArgument)
  | rule :: rest =>
    noMore rest
    checkDescribed p.toLoader d verbose file rule (r.values roleOption) (r.values attributeOption)
      (r.values targetOption)

/-- The names of the commands. -/
def commandNames : List String := ["check", "show", "validate", "version"]

/-- The error for a name that no command has. -/
def unknownCommand (name : String) : UsageError := .unknownCommand name (alike name commandNames)

/-- Runs the command of a name. -/
def runCommand (p : Packages) (d : Disk) (verbose : Bool) (name : String) (words : List String) :
    Except UsageError (Except Breakdown Outcome) :=
  if name = "validate" then runOnFile p d words (validate p.toLoader d verbose)
  else if name = "check" then runCheck p d verbose words
  else if name = "show" then runOnFile p d words («show» p.toLoader d verbose)
  else if name = "version" then (runVersion p words).map .ok
  else .error (unknownCommand name)

/-- What the options in front of the command ask for instead of one. -/
def insteadOfCommand? (r : Reading) : Option Outcome :=
  match r.options.find? fun g => g.option = versionOption ∨ g.option = helpOption with
  | none => none
  | some g =>
    if g.option = versionOption then
      some ⟨0, [["policy-ruleset, version " ++ programVersion]], []⟩
    else some ⟨0, [], []⟩

/-- Runs the command that the words after the options name. A name that looks like an option is
read as one before it is found to be no command. -/
def runNamed (p : Packages) (d : Disk) (r : Reading) :
    Except UsageError (Except Breakdown Outcome) :=
  match r.arguments with
  | [] => .error .missingCommand
  | name :: words =>
    if isOptionWord name then do
      let again ← p.readWords programOptions true (name :: words)
      match insteadOfCommand? again with
      | some outcome => .ok (.ok outcome)
      | none => .error (unknownCommand name)
    else runCommand p d (r.has verboseOption) name words

/-- Runs the program on the words of a command line. -/
def run (p : Packages) (d : Disk) (words : List String) : Except Breakdown Outcome :=
  if words = [] then .ok ⟨2, [], []⟩
  else
    let answer := do
      let r ← p.readWords programOptions true words
      match insteadOfCommand? r with
      | some outcome => pure (Except.ok outcome)
      | none => runNamed p d r
    match answer with
    | .ok outcome => outcome
    | .error e => .ok (.ofUsageError e)

end AccessPolicy.CommandLine
