import AccessPolicy.RuleSet
import AccessPolicy.Run

/-!
# Evaluating rules

The result of a rule for a request. Evaluation denies where something is missing: a rule that is
not defined, a reference to an attribute that the target does not have, and a bare name that is
neither a checker nor an attribute of the token are false.

`and` and `or` look at their right operand only where the left one leaves the result open. Rules
may refer to rules, also to themselves; `evaluateWithin` takes a bound on the nesting of such
references and ends in `Fault.tooDeep` beyond it. It recurses on that bound, and the expression,
the check and the decision inside one rule on their own structure.
-/

namespace AccessPolicy

/-- How the rules that a rule refers to are evaluated. -/
abbrev RuleOracle := String → Request → Run Bool

/-- Follows a decision to its end. -/
def Decision.settle (defined : String → Bool) (ask : RuleOracle) : Decision → Run Bool
  | .answer result => pure result
  | .giveUp message => Run.fault (.checkerFailed message)
  | .evaluate rule request next => do
    let result ← ask rule request
    (next result).settle defined ask
  | .isDefined rule next => (next (defined rule)).settle defined ask

/-- What a checker, called by `name`, says about the text `rhs`. -/
def Checker.run (checker : Checker) (defined : String → Bool) (ask : RuleOracle) (name : String)
    (request : Request) (rhs : String) : Run Bool :=
  match checker with
  | .role => pure (request.token.hasRole rhs)
  | .rule => ask rhs request
  | .custom decide => do
    Run.observe (.called name rhs)
    (decide request rhs).settle defined ask

namespace RuleSet

/-- The outcome of a check whose right side stands for `resolved`. -/
def runResolved (rs : RuleSet) (ask : RuleOracle) (request : Request) (lhs : LeftSide)
    (rhs resolved : String) : Run Bool :=
  match lhs with
  | .literal value => pure (value == resolved)
  | .identifier name =>
    match rs.checkers.find? name with
    | some checker => checker.run rs.isDefined ask name request resolved
    | none =>
      match request.token.attribute? name with
      | some value => pure (value == resolved)
      | none => do
        Run.log (.missingTokenAttribute lhs rhs)
        pure false

/-- The outcome of a check. -/
def runCheck (rs : RuleSet) (ask : RuleOracle) (request : Request) (lhs : LeftSide)
    (rhs : String) : Run Bool :=
  match request.target.resolve rhs with
  | some resolved => rs.runResolved ask request lhs rhs resolved
  | none => do
    Run.log (.missingTargetAttribute lhs rhs)
    pure false

/-- The outcome of an expression. -/
def runExpr (rs : RuleSet) (ask : RuleOracle) (request : Request) : Expr → Run Bool
  | .const value => pure value
  | .check lhs rhs => rs.runCheck ask request lhs rhs
  | .and left right => do
    if ← rs.runExpr ask request left then rs.runExpr ask request right else pure false
  | .or left right => do
    if ← rs.runExpr ask request left then pure true else rs.runExpr ask request right
  | .not operand => do
    let result ← rs.runExpr ask request operand
    pure !result

/-- The result of a rule, where no more than `bound` evaluations of rules may be under way at a
time. -/
def evaluateWithin (rs : RuleSet) : (bound : Nat) → RuleOracle
  | 0, _, _ => Run.fault .tooDeep
  | bound + 1, name, request =>
    match rs.rule? name with
    | none => do
      Run.log (.undefined name)
      pure false
    | some expr => do
      let result ← rs.runExpr (rs.evaluateWithin bound) request expr
      Run.log (.evaluated name result)
      pure result

/-- The bound on the nesting of rules that is used where none is given. -/
def depthBound : Nat := 1000

/-- The result of a rule for a request. -/
def evaluate (rs : RuleSet) (name : String) (request : Request) : Run Bool :=
  rs.evaluateWithin depthBound name request

/-- What a checker says about a text when it is asked directly, outside any rule. -/
def ask (rs : RuleSet) (checker : Checker) (rhs : String) (request : Request) : Run Bool :=
  checker.run rs.isDefined rs.evaluate "direct" request rhs

end RuleSet
end AccessPolicy
