import AccessPolicy.Expr
import AccessPolicy.Text.Quoted

/-!
# Log entries

Everything that storing, loading and evaluating rules reports, as data. `LogEntry.message` gives
the words, and `level` and `source` say how much an entry matters and which part of the program
speaks.
-/

namespace AccessPolicy

/-- One thing worth reporting. -/
inductive LogEntry where
  /-- A rule was stored. -/
  | stored (rule : String) (expr : Expr)
  /-- A rule was evaluated that is not there. -/
  | undefined (rule : String)
  /-- A rule was evaluated to this result. -/
  | evaluated (rule : String) (result : Bool)
  /-- A check refers to an attribute that the target does not have. -/
  | missingTargetAttribute (lhs : LeftSide) (rhs : String)
  /-- A check names an attribute that the token does not have. -/
  | missingTokenAttribute (lhs : LeftSide) (rhs : String)
  /-- So many rules were loaded from a file. -/
  | loaded (count : Nat) (path : String)
  deriving DecidableEq, Repr

/-- How much an entry matters. -/
inductive LogLevel where
  | debug
  | info
  deriving DecidableEq, Repr

namespace LogLevel

/-- A level as it is written. -/
def text : LogLevel → String
  | .debug => "DEBUG"
  | .info => "INFO"

end LogLevel

namespace LogEntry

/-- Loading a file is news; all else is detail. -/
def level : LogEntry → LogLevel
  | .loaded _ _ => .info
  | _ => .debug

/-- The part of the program that reports an entry. -/
def source : LogEntry → String
  | .loaded _ _ => "policy_ruleset.loader"
  | _ => "policy_ruleset.rules.ruleset"

/-- A truth value as it is written in messages. -/
def truth (b : Bool) : String := if b then "True" else "False"

/-- The words of an entry. -/
def message : LogEntry → String
  | .stored rule expr => "Stored rule " ++ Text.quote rule ++ ": " ++ expr.render
  | .undefined rule => "Rule " ++ Text.quote rule ++ " is not defined; denying"
  | .evaluated rule result => "Rule " ++ Text.quote rule ++ " evaluated to " ++ truth result
  | .missingTargetAttribute lhs rhs =>
    "Check " ++ lhs.render ++ ":" ++ rhs ++ " references a missing target attribute"
  | .missingTokenAttribute lhs rhs =>
    "Check " ++ lhs.render ++ ":" ++ rhs ++ " references a missing API attribute"
  | .loaded count path => "Loaded " ++ toString count ++ " rules from " ++ path

/-- An entry in one line, as it is written to a terminal. -/
def line (e : LogEntry) : String := e.level.text ++ " " ++ e.source ++ ": " ++ e.message

end LogEntry
end AccessPolicy
