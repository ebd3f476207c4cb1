import AccessPolicy.Policy
import AccessPolicy.RuleSet.Evaluation

/-!
# Sessions

A session works on several rule sets by name. Each step does one thing to one of them or asks one
thing of it, and gets a reply: the result, or what went wrong, with everything that could be
observed meanwhile. A step that goes wrong leaves its rule set as far as it came, and the session
goes on. Only `create`, the three ways to store rules, and `addChecker` change anything. Policy
documents are read with whatever loader there is.
-/

namespace AccessPolicy

/-- One thing to do to a rule set, or to ask of it. -/
inductive Action where
  /-- Start over with a fresh rule set. -/
  | create
  | addRule (name text : String)
  | addRules (rules : Dict String)
  /-- Store the rules of a policy document. -/
  | load (document : String)
  | addChecker (name : String) (checker : Checker)
  | evaluate (rule : String) (request : Request)
  /-- Ask a checker outside of any rule. -/
  | check (checker : Checker) (rhs : String) (request : Request)
  | inspectRule (name : String)
  | inspect

/-- Why a step went wrong. -/
inductive StepError where
  | rule (error : RuleError)
  | document (error : DocumentError)
  | fault (fault : Fault)
  deriving DecidableEq, Repr

/-- What a step answers. -/
inductive Answer where
  /-- A rule set in one line. -/
  | described (text : String)
  /-- The number of rules there are now. -/
  | stored (size : Nat)
  /-- The number of rules there are now, and their names. -/
  | storedAll (size : Nat) (names : List String)
  /-- The names of the checkers there are now. -/
  | registered (checkers : List String)
  | decided (result : Bool)
  /-- The rule of a name, where there is one. -/
  | rule (expr : Option Expr)
  /-- All that a rule set shows of itself. -/
  | overview (ruleSet : RuleSet)
  | failed (error : StepError)
  /-- What went wrong, and the names of the rules that are there all the same. -/
  | failedAmong (error : StepError) (names : List String)

/-- An answer, with everything that could be observed. -/
structure Reply where
  answer : Answer
  events : List Event

namespace RuleSet

/-- The rule set and the reply after an update with several rules. -/
def replyTo (update : Update) : RuleSet × Reply :=
  let rs := update.ruleSet
  let answer := match update.error with
    | none => Answer.storedAll rs.size rs.ruleNames
    | some e => .failedAmong (.rule e) rs.ruleNames
  (rs, ⟨answer, update.log.map .logged⟩)

/-- The reply to a question that was evaluated. -/
def replyOf (run : Run Bool) : Reply :=
  match run.outcome with
  | .ok result => ⟨.decided result, run.events⟩
  | .error fault => ⟨.failed (.fault fault), run.events⟩

/-- Performs an action. -/
def perform (rs : RuleSet) (L : Loader) : Action → RuleSet × Reply
  | .create => (fresh, ⟨.described fresh.describe, []⟩)
  | .addRule name text =>
    let update := rs.addRule name text
    let answer := match update.error with
      | none => Answer.stored update.ruleSet.size
      | some e => .failed (.rule e)
    (update.ruleSet, ⟨answer, update.log.map .logged⟩)
  | .addRules rules => replyTo (rs.addRules rules.entries)
  | .load document =>
    match readPolicy L document with
    | .ok rules => replyTo (rs.addRules rules.entries)
    | .error e => (rs, ⟨.failedAmong (.document e) rs.ruleNames, []⟩)
  | .addChecker name checker =>
    let rs := rs.addChecker name checker
    (rs, ⟨.registered rs.checkerNames, []⟩)
  | .evaluate rule request => (rs, replyOf (rs.evaluate rule request))
  | .check checker rhs request => (rs, replyOf (rs.ask checker rhs request))
  | .inspectRule name => (rs, ⟨.rule (rs.rule? name), []⟩)
  | .inspect => (rs, ⟨.overview rs, []⟩)

end RuleSet

/-- Rule sets by name. -/
structure Session where
  ruleSets : Dict RuleSet

/-- An action on the rule set of a name. -/
structure SessionStep where
  ruleSet : String
  action : Action

namespace Session

/-- The name of the rule set that a session starts with. -/
def mainName : String := "main"

/-- A session with one fresh rule set. -/
def start : Session := ⟨Dict.ofList [(mainName, RuleSet.fresh)]⟩

/-- The rule set of a name; one that was never touched is fresh. -/
def ruleSet (s : Session) (name : String) : RuleSet :=
  (s.ruleSets.find? name).getD RuleSet.fresh

/-- Performs a step. -/
def perform (s : Session) (L : Loader) (step : SessionStep) : Session × Reply :=
  let (rs, reply) := (s.ruleSet step.ruleSet).perform L step.action
  (⟨s.ruleSets.insert step.ruleSet rs⟩, reply)

/-- Performs steps one after the other. -/
def run (s : Session) (L : Loader) : List SessionStep → Session × List Reply
  | [] => (s, [])
  | step :: rest =>
    let (next, reply) := s.perform L step
    let (last, replies) := next.run L rest
    (last, reply :: replies)

end Session
end AccessPolicy
