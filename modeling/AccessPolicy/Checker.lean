import AccessPolicy.Request

/-!
# Checkers

A checker decides the checks whose left side is its name. Two are built in: `role` asks whether
the token covers a role, `rule` evaluates another rule of the same set. Any other is *custom*: it
makes a `Decision` from the request and the right side. A decision may ask for the evaluation of
rules, with any request, and for whether a rule is defined, before it answers or gives up; that is
all it can do, so whatever a custom checker does is a finite tree of such questions.

The rest of the module holds custom checkers for common needs.
-/

namespace AccessPolicy

/-- How a custom checker comes to its answer. -/
inductive Decision where
  /-- Decides the check. -/
  | answer (result : Bool)
  /-- Gives up with a message. -/
  | giveUp (message : String)
  /-- Asks for the evaluation of a rule, for a request, and goes on with the result. -/
  | evaluate (rule : String) (request : Request) (next : Bool → Decision)
  /-- Asks whether a rule is defined, and goes on with the answer. -/
  | isDefined (rule : String) (next : Bool → Decision)

/-- What decides the checks of one name. -/
inductive Checker where
  /-- Whether the token covers the role on the right. -/
  | role
  /-- The result of the rule on the right. -/
  | rule
  /-- A decision of its own. -/
  | custom (decide : Request → String → Decision)

namespace Checker

/-- Always gives the same answer. -/
def constant (result : Bool) : Checker := .custom fun _ _ => .answer result

/-- Whether the right side is a fixed text. -/
def equals (value : String) : Checker := .custom fun _ rhs => .answer (rhs == value)

/-- Whether the right side is the value of an attribute of the token. -/
def tokenAttribute (name : String) : Checker :=
  .custom fun request rhs => .answer (request.token.attribute? name == some rhs)

/-- Whether the right side is the value of an attribute of the target. -/
def targetAttribute (name : String) : Checker :=
  .custom fun request rhs => .answer (request.target.attribute? name == some rhs)

/-- The opposite of the rule on the right. -/
def deniedByRule : Checker :=
  .custom fun request rhs => .evaluate rhs request fun result => .answer (!result)

/-- Whether the rule on the right is defined. -/
def ruleDefined : Checker := .custom fun _ rhs => .isDefined rhs .answer

/-- The result of the rule on the right for another target. -/
def ruleForTarget (target : Target) : Checker :=
  .custom fun request rhs => .evaluate rhs (request.withTarget target) .answer

/-- Never decides anything. -/
def failing : Checker := .custom fun _ rhs => .giveUp ("checker failed: " ++ rhs)

end Checker
end AccessPolicy
