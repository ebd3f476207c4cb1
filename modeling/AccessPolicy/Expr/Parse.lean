import AccessPolicy.Expr.Search

/-!
# Reading a rule

A text is a rule when one of its readings is *complete*: nothing but blanks is left after it. The
first complete reading, in the order of `readings`, is the expression that the rule means
(`completeReading?_eq_first`). Where there is none, the failures make the error, and a reading that
stops short of the end counts as one of them.
-/

namespace AccessPolicy

/-- All that happens when a text is read as one rule: a reading is found when it is complete. -/
def ruleReadings (cs : List Char) : Trace :=
  (readings .disjunction cs).andThen fun e rest =>
    match skipBlanks rest with
    | [] => [.found e []]
    | rest => Trace.failure rest .operatorOrEnd

/-- The first complete reading of a text. -/
def completeReading? (cs : List Char) : Option Expr :=
  searchWithin (depthFor cs) .disjunction cs fun e rest =>
    if skipBlanks rest = [] then some e else none

/-- The rule that a text is, or why it is none. -/
def parseChars (cs : List Char) : Except SyntaxError Expr :=
  match completeReading? cs with
  | some e => .ok e
  | none => .error (SyntaxError.ofFailures cs (ruleReadings cs).failures)

/-- The rule that a text is, or why it is none. -/
def Expr.parse (text : String) : Except SyntaxError Expr := parseChars text.toList

/-- The search stops at the first complete reading of the list. -/
theorem completeReading?_eq_first (cs : List Char) :
    completeReading? cs = (ruleReadings cs).first fun e _ => some e := by
  rw [completeReading?, searchWithin_eq_first, ruleReadings, Trace.first_andThen, readings]
  congr 1
  funext e rest
  split <;> split <;> simp_all

end AccessPolicy
