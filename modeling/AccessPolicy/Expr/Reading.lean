import AccessPolicy.Expr
import AccessPolicy.Expr.Lexis
import AccessPolicy.Expr.SyntaxError

/-!
# Readings of a rule

The grammar of rules, from the loosest operator to the tightest:

    disjunction  =  conjunction, { "or", conjunction }
    conjunction  =  unary, { "and", unary }
    unary        =  "not", unary  |  atom
    atom         =  "@"  |  "!"  |  "(", disjunction, ")"  |  check
    check        =  left side, ":", right side

A right side is a run of characters that are no blanks, and any number of the parentheses that
close it may instead belong to the groups around it, as long as one character stays. So a text can
have several readings. `readings` lists what happens when they are tried one after the other, the
longest right side first: the expressions *found*, each with the text left over, and between them
the ways that *failed*. Both are wanted in this order, since the first complete reading is the rule
and, where there is none, the failures make the error.
-/

namespace AccessPolicy

/-- One event of reading a text. -/
inductive Step where
  /-- An expression was read, and this text is left. -/
  | found (expr : Expr) (rest : List Char)
  /-- A way to go on came to nothing. -/
  | failed (failure : Failure)
  deriving DecidableEq, Repr

/-- The events of reading a text, in order. -/
abbrev Trace := List Step

namespace Trace

/-- The trace of one failure. -/
def failure (rest : List Char) (expected : Expectation) : Trace := [.failed ⟨rest, expected⟩]

/-- Goes on from every expression found, in order; failures stay where they are. -/
def andThen (t : Trace) (next : Expr → List Char → Trace) : Trace :=
  t.flatMap fun
    | .found e rest => next e rest
    | .failed f => [.failed f]

/-- The expressions found, each with the text left over. -/
def found (t : Trace) : List (Expr × List Char) :=
  t.filterMap fun
    | .found e rest => some (e, rest)
    | .failed _ => none

/-- The failures. -/
def failures (t : Trace) : List Failure :=
  t.filterMap fun
    | .found _ _ => none
    | .failed f => some f

end Trace

/-- Reads a left side, quoted or bare. -/
def leftSide : List Char → Except Failure (LeftSide × List Char)
  | [] => .error ⟨[], .checkOrGroup⟩
  | c :: cs =>
    if isQuote c then
      let value := cs.takeWhile isLeftSideChar
      let rest := cs.dropWhile isLeftSideChar
      if value = [] then .error ⟨cs, .literalText⟩
      else if rest.head? = some c then .ok (.literal (String.ofList value), rest.tail)
      else .error ⟨rest, .closingQuote c⟩
    else
      let name := (c :: cs).takeWhile isLeftSideChar
      let rest := (c :: cs).dropWhile isLeftSideChar
      if name = [] then .error ⟨c :: cs, .checkOrGroup⟩
      else .ok (.identifier (String.ofList name), rest)

/-- The right sides that a run of characters allows, each with the text after it, the longest
first: closing parentheses go back to the text one by one while another character is left. The run
is given from its end. -/
def rightSides : (reversed rest : List Char) → List (List Char × List Char)
  | ')' :: c :: more, rest =>
    ((')' :: c :: more).reverse, rest) :: rightSides (c :: more) (')' :: rest)
  | reversed, rest => [(reversed.reverse, rest)]

/-- The readings of the right side after a colon. -/
def rightSideReadings (lhs : LeftSide) (cs : List Char) : Trace :=
  let run := cs.takeWhile fun c => !isBlank c
  if run = [] then Trace.failure cs .rightSide
  else (rightSides run.reverse (cs.dropWhile fun c => !isBlank c)).map fun (rhs, rest) =>
    .found (.check lhs (String.ofList rhs)) rest

/-- The readings of a check. -/
def checkReadings (cs : List Char) : Trace :=
  match leftSide cs with
  | .error f => [.failed f]
  | .ok (lhs, ':' :: rest) => rightSideReadings lhs rest
  | .ok (_, rest) => Trace.failure rest .colon

/-- What is to be read next: a phrase of the grammar, or what may follow the operand `left` in a
chain of `and`s or of `or`s. -/
inductive Goal where
  | disjunction
  | conjunction
  | unary
  | atom
  | disjunctionAfter (left : Expr)
  | conjunctionAfter (left : Expr)
  deriving DecidableEq, Repr

/-- The readings of a goal that need no more than `depth` nested goals. -/
def readingsWithin : (depth : Nat) → Goal → List Char → Trace
  | 0, _, _ => []
  | depth + 1, .disjunction, cs =>
    (readingsWithin depth .conjunction cs).andThen fun left rest =>
      readingsWithin depth (.disjunctionAfter left) rest
  | depth + 1, .disjunctionAfter left, cs =>
    match Keyword.or.accept cs with
    | none => [.found left cs]
    | some cs => (readingsWithin depth .conjunction cs).andThen fun right rest =>
        readingsWithin depth (.disjunctionAfter (.or left right)) rest
  | depth + 1, .conjunction, cs =>
    (readingsWithin depth .unary cs).andThen fun left rest =>
      readingsWithin depth (.conjunctionAfter left) rest
  | depth + 1, .conjunctionAfter left, cs =>
    match Keyword.and.accept cs with
    | none => [.found left cs]
    | some cs => (readingsWithin depth .unary cs).andThen fun right rest =>
        readingsWithin depth (.conjunctionAfter (.and left right)) rest
  | depth + 1, .unary, cs =>
    match Keyword.not.accept cs with
    | none => readingsWithin depth .atom cs
    | some cs => (readingsWithin depth .unary cs).andThen fun operand rest =>
        [.found (.not operand) rest]
  | depth + 1, .atom, cs =>
    match skipBlanks cs with
    | [] => Trace.failure [] .expression
    | '@' :: rest => [.found (.const true) (skipBlanks rest)]
    | '!' :: rest => [.found (.const false) (skipBlanks rest)]
    | '(' :: inner =>
      (readingsWithin depth .disjunction inner).andThen fun e rest =>
        match skipBlanks rest with
        | ')' :: rest => [.found e (skipBlanks rest)]
        | rest => Trace.failure rest .closingParenthesis
    | cs => (checkReadings cs).andThen fun e rest => [.found e (skipBlanks rest)]

/-- A depth of nested goals that reading `cs` does not reach. -/
def depthFor (cs : List Char) : Nat := 4 * cs.length + 4

/-- All that happens when a goal is read from a text. -/
def readings (goal : Goal) (cs : List Char) : Trace := readingsWithin (depthFor cs) goal cs

end AccessPolicy
