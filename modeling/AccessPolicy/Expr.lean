/-!
# Rule expressions

A rule is a boolean combination of *checks*. A check compares a left side, quoted or bare, with the
text on its right; what it means is settled when a request is evaluated, so here it is plain data.

`render` writes an expression in the rule language with as few parentheses as its operators need:
`and` binds tighter than `or`, and `not` tighter than both. `leaves` are the constants and checks
from left to right.
-/

namespace AccessPolicy

/-- What stands left of the colon of a check. -/
inductive LeftSide where
  /-- A quoted text, compared as it is. -/
  | literal (value : String)
  /-- A bare name, of a checker or of an attribute of the token. -/
  | identifier (name : String)
  deriving DecidableEq, Repr, Inhabited

/-- A rule: constants and checks under `and`, `or` and `not`. -/
inductive Expr where
  /-- A constant, `@` for true and `!` for false. -/
  | const (value : Bool)
  /-- A check of a left side against a text. -/
  | check (lhs : LeftSide) (rhs : String)
  | and (left right : Expr)
  | or (left right : Expr)
  | not (operand : Expr)
  deriving DecidableEq, Repr, Inhabited

/-- A left side as it is written: a literal stands between single quotes. -/
def LeftSide.chars : LeftSide → List Char
  | .literal value => '\'' :: value.toList ++ ['\'']
  | .identifier name => name.toList

/-- A left side as it is written in a rule. -/
def LeftSide.render (lhs : LeftSide) : String := String.ofList lhs.chars

namespace Expr

/-- An operand of `and`: an `or` needs parentheses there. -/
def groupsUnderAnd : Expr → Bool
  | .or _ _ => true
  | _ => false

/-- An operand of `not`: an `and` or an `or` needs parentheses there. -/
def groupsUnderNot : Expr → Bool
  | .and _ _ | .or _ _ => true
  | _ => false

/-- Puts parentheses around a text where they are needed. -/
def grouped (needed : Bool) (text : List Char) : List Char :=
  if needed then '(' :: text ++ [')'] else text

/-- The characters of an expression in the rule language. -/
def chars : Expr → List Char
  | .const true => ['@']
  | .const false => ['!']
  | .check lhs rhs => lhs.chars ++ ':' :: rhs.toList
  | .and left right =>
    grouped left.groupsUnderAnd left.chars ++ [' ', 'a', 'n', 'd', ' ']
      ++ grouped right.groupsUnderAnd right.chars
  | .or left right => left.chars ++ [' ', 'o', 'r', ' '] ++ right.chars
  | .not operand => ['n', 'o', 't', ' '] ++ grouped operand.groupsUnderNot operand.chars

/-- An expression in the rule language, with as few parentheses as its operators need. -/
def render (e : Expr) : String := String.ofList e.chars

/-- The constants and checks of an expression, from left to right. -/
def leaves : Expr → List Expr
  | .and left right | .or left right => left.leaves ++ right.leaves
  | .not operand => operand.leaves
  | leaf => [leaf]

end Expr
end AccessPolicy
