import AccessPolicy.Checker
import AccessPolicy.Expr.Parse
import AccessPolicy.Log

/-!
# Rule sets

A rule set holds parsed rules by name and the checkers that their checks refer to. A fresh one
knows the built-in checkers and no rule.

Texts are parsed when they are stored (`addRule`). A whole mapping of rules is stored one by one
(`addRules`): the first text that is no rule ends it, and the rules before that one stay. An
`Update` carries the rule set that comes out, what was reported on the way, and what ended it.
-/

namespace AccessPolicy

/-- Rules by name, and the checkers of their checks. -/
structure RuleSet where
  rules : Dict Expr
  checkers : Dict Checker

/-- The text given for a rule is none. -/
structure RuleError where
  rule : String
  error : SyntaxError
  deriving DecidableEq, Repr

/-- The error in one line. -/
def RuleError.message (e : RuleError) : String :=
  "could not parse rule " ++ Text.quote e.rule ++ ": " ++ e.error.message

/-- What comes of storing several rules. -/
structure Update where
  /-- The rule set with everything that was stored. -/
  ruleSet : RuleSet
  /-- One entry for each rule stored. -/
  log : List LogEntry
  /-- The first text that is no rule, if there is one. -/
  error : Option RuleError

namespace RuleSet

/-- No rules, and the built-in checkers. -/
def fresh : RuleSet := ⟨∅, Dict.ofList [("rule", .rule), ("role", .role)]⟩

instance : Inhabited RuleSet := ⟨fresh⟩

/-- The rule of a name. -/
def rule? (rs : RuleSet) (name : String) : Option Expr := rs.rules.find? name

/-- Whether a name has a rule. -/
def isDefined (rs : RuleSet) (name : String) : Bool := rs.rules.contains name

/-- The number of rules. -/
def size (rs : RuleSet) : Nat := rs.rules.size

/-- The names of the rules, sorted. -/
def ruleNames (rs : RuleSet) : List String := rs.rules.sortedKeys

/-- The names of the checkers, sorted. -/
def checkerNames (rs : RuleSet) : List String := rs.checkers.sortedKeys

/-- The rules with their names, sorted by name. -/
def sortedRules (rs : RuleSet) : List (String × Expr) :=
  rs.ruleNames.filterMap fun name => (rs.rule? name).map fun e => (name, e)

/-- The rule set in one line. -/
def describe (rs : RuleSet) : String :=
  "RuleSet(rules=" ++ toString rs.size ++ ", checkers=" ++ Text.quoteList rs.checkerNames ++ ")"

/-- Registers a checker in place of any other of its name. -/
def addChecker (rs : RuleSet) (name : String) (checker : Checker) : RuleSet :=
  { rs with checkers := rs.checkers.insert name checker }

/-- Stores an expression in place of any other of its name. -/
def store (rs : RuleSet) (name : String) (expr : Expr) : RuleSet :=
  { rs with rules := rs.rules.insert name expr }

/-- Parses a text and stores it; a text that is no rule changes nothing. -/
def addRule (rs : RuleSet) (name text : String) : Update :=
  match Expr.parse text with
  | .ok expr => ⟨rs.store name expr, [.stored name expr], none⟩
  | .error error => ⟨rs, [], some ⟨name, error⟩⟩

/-- Stores rules one by one, up to the first text that is none. -/
def addRules (rs : RuleSet) : List (String × String) → Update
  | [] => ⟨rs, [], none⟩
  | (name, text) :: rest =>
    let first := rs.addRule name text
    match first.error with
    | some _ => first
    | none =>
      let others := first.ruleSet.addRules rest
      ⟨others.ruleSet, first.log ++ others.log, others.error⟩

end RuleSet
end AccessPolicy
