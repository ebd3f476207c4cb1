/-!
# Syntax errors of rules

Where a rule goes wrong, and what could have stood there. Every way to read the text that comes to
nothing reports one `Failure`: the text that was left and one `Expectation`. The error of a rule
(`SyntaxError.ofFailures`) is placed at the farthest of these points, and names what was expected
there, each thing once and in the order in which it was first reported.
-/

namespace AccessPolicy

/-- What a reader of rules can be waiting for. -/
inductive Expectation where
  | expression
  | closingParenthesis
  | colon
  | rightSide
  | checkOrGroup
  | literalText
  | closingQuote (quote : Char)
  | operatorOrEnd
  deriving DecidableEq, Repr

/-- The words for what was expected. -/
def Expectation.text : Expectation → String
  | .expression => "expression"
  | .closingParenthesis => "')'"
  | .colon => "':'"
  | .rightSide => "right-hand side of check"
  | .checkOrGroup => "check or opening parenthesis"
  | .literalText => "literal text"
  | .closingQuote quote => "closing " ++ quote.toString
  | .operatorOrEnd => "'and', 'or' or end of input"

/-- A way to read a text that came to nothing: the text left over there, and what was missing. -/
structure Failure where
  rest : List Char
  expected : Expectation
  deriving DecidableEq, Repr

/-- Why a text is no rule. -/
structure SyntaxError where
  /-- The number of characters in front of the error. -/
  offset : Nat
  /-- The line of the error, counted from one. -/
  line : Nat
  /-- The column of the error, counted from one. -/
  column : Nat
  /-- What could have stood there. -/
  expected : List Expectation
  deriving DecidableEq, Repr

/-- The line, counted from one, of the character after `before`. -/
def lineAfter (before : List Char) : Nat := before.count '\n' + 1

/-- The column, counted from one, of the character after `before`. -/
def columnAfter (before : List Char) : Nat :=
  (before.reverse.takeWhile (· ≠ '\n')).length + 1

/-- The length of the shortest text that any of the failures left over, at most `bound`. -/
def leastRest (bound : Nat) (failures : List Failure) : Nat :=
  failures.foldl (fun least f => min least f.rest.length) bound

/-- The number of characters in front of the farthest failure, if anything has failed. -/
def farthestOffset? (text : List Char) : List Failure → Option Nat
  | [] => none
  | failures => some (text.length - leastRest text.length failures)

theorem getD_farthestOffset? (text : List Char) (failures : List Failure) :
    (farthestOffset? text failures).getD 0 = text.length - leastRest text.length failures := by
  cases failures with
  | nil => exact (Nat.sub_self text.length).symm
  | cons => rfl

namespace SyntaxError

/-- The error of a text all of whose readings failed. Where none is known to have failed, it is at
the beginning. -/
def ofFailures (text : List Char) (failures : List Failure) : SyntaxError :=
  let offset := (farthestOffset? text failures).getD 0
  let least := leastRest text.length failures
  { offset
    line := lineAfter (text.take offset)
    column := columnAfter (text.take offset)
    expected := ((failures.filter fun f => f.rest.length = least).map (·.expected)).eraseDups }

theorem offset_ofFailures (text : List Char) (failures : List Failure) :
    (ofFailures text failures).offset = text.length - leastRest text.length failures :=
  getD_farthestOffset? text failures

/-- The words for everything that was expected; where that is nothing, for an expression. -/
def expectedText (e : SyntaxError) : String :=
  match e.expected with
  | [] => Expectation.expression.text
  | expected => " or ".intercalate (expected.map Expectation.text)

/-- The error in one line. -/
def message (e : SyntaxError) : String :=
  "expected " ++ e.expectedText ++ " at line " ++ toString e.line ++ ", column "
    ++ toString e.column

end SyntaxError
end AccessPolicy
