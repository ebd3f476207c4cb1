import AccessPolicy.Proofs.Evaluation

/-!
# What a rule does on its own

A rule lets events be observed and asks for the results of other rules, of which it knows nothing but
what it is told. Written down without the answers this is its `Dialogue`, a tree that branches where
something is told. Main statement: `run_dialogue`, with the answers put in, the dialogue of an
expression is its run, whatever evaluates the rules that it asks for.
-/

namespace AccessPolicy

/-- Questions of a rule, with what it goes on to for each answer. -/
inductive Dialogue where
  /-- Comes to a result. -/
  | answer (result : Bool)
  /-- Ends in a fault. -/
  | fault (f : Fault)
  /-- Lets an event be observed. -/
  | observe (e : Event) (next : Dialogue)
  /-- Asks for the result of a rule. -/
  | ask (rule : String) (request : Request) (next : Bool → Dialogue)

namespace Dialogue

/-- Goes on with the result of a dialogue. -/
def bind : Dialogue → (Bool → Dialogue) → Dialogue
  | .answer result, next => next result
  | .fault f, _ => .fault f
  | .observe e d, next => .observe e (d.bind next)
  | .ask rule request d, next => .ask rule request fun result => (d result).bind next

/-- The run of a dialogue, where `ask` evaluates the rules. -/
def run (ask : RuleOracle) : Dialogue → Run Bool
  | .answer result => pure result
  | .fault f => Run.fault f
  | .observe e d => do
    Run.observe e
    d.run ask
  | .ask rule request d => do
    let result ← ask rule request
    (d result).run ask

theorem run_bind (ask : RuleOracle) (d : Dialogue) (next : Bool → Dialogue) :
    (d.bind next).run ask = d.run ask >>= fun result => (next result).run ask := by
  induction d with
  | answer result => rw [bind, run, pure_bind]
  | fault f => rfl
  | observe e d ih => rw [bind, run, run, ih, bind_assoc]
  | ask rule request d ih => simp only [bind, run, ih, bind_assoc]

end Dialogue

/-- The dialogue of a decision. -/
def Decision.dialogue (defined : String → Bool) : Decision → Dialogue
  | .answer result => .answer result
  | .giveUp message => .fault (.checkerFailed message)
  | .evaluate rule request next => .ask rule request fun result => (next result).dialogue defined
  | .isDefined rule next => (next (defined rule)).dialogue defined

theorem Decision.run_dialogue (defined : String → Bool) (ask : RuleOracle) (d : Decision) :
    (d.dialogue defined).run ask = d.settle defined ask := by
  induction d with
  | answer | giveUp => rfl
  | evaluate rule request next ih => simp only [dialogue, Dialogue.run, settle, ih]
  | isDefined rule next ih => exact ih _

/-- The dialogue of a checker. -/
def Checker.dialogue (checker : Checker) (defined : String → Bool) (name : String)
    (request : Request) (rhs : String) : Dialogue :=
  match checker with
  | .role => .answer (request.token.hasRole rhs)
  | .rule => .ask rhs request .answer
  | .custom decide => .observe (.called name rhs) ((decide request rhs).dialogue defined)

theorem Checker.run_dialogue (checker : Checker) (defined : String → Bool) (ask : RuleOracle)
    (name : String) (request : Request) (rhs : String) :
    (checker.dialogue defined name request rhs).run ask =
      checker.run defined ask name request rhs := by
  cases checker with
  | role => rfl
  | rule => simp only [dialogue, Dialogue.run, run, bind_pure]
  | custom decide => rw [dialogue, Dialogue.run, Decision.run_dialogue, run]

namespace RuleSet

/-- The dialogue of a check. -/
def checkDialogue (rs : RuleSet) (request : Request) (lhs : LeftSide) (rhs : String) : Dialogue :=
  match request.target.resolve rhs with
  | none => .observe (.logged (.missingTargetAttribute lhs rhs)) (.answer false)
  | some resolved =>
    match lhs with
    | .literal value => .answer (value == resolved)
    | .identifier name =>
      match rs.checkers.find? name with
      | some checker => checker.dialogue rs.isDefined name request resolved
      | none =>
        match request.token.attribute? name with
        | some value => .answer (value == resolved)
        | none => .observe (.logged (.missingTokenAttribute lhs rhs)) (.answer false)

/-- The dialogue of an expression. -/
def dialogue (rs : RuleSet) (request : Request) : Expr → Dialogue
  | .const value => .answer value
  | .check lhs rhs => rs.checkDialogue request lhs rhs
  | .and left right => (rs.dialogue request left).bind fun result =>
      if result then rs.dialogue request right else .answer false
  | .or left right => (rs.dialogue request left).bind fun result =>
      if result then .answer true else rs.dialogue request right
  | .not operand => (rs.dialogue request operand).bind fun result => .answer !result

variable (rs : RuleSet) (ask : RuleOracle) (request : Request)

theorem run_checkDialogue (lhs : LeftSide) (rhs : String) :
    (rs.checkDialogue request lhs rhs).run ask = rs.runCheck ask request lhs rhs := by
  unfold checkDialogue runCheck runResolved
  cases request.target.resolve rhs with
  | none => rfl
  | some resolved =>
    cases lhs with
    | literal value => rfl
    | identifier name =>
      dsimp only
      cases rs.checkers.find? name with
      | some checker => exact checker.run_dialogue rs.isDefined ask name request resolved
      | none => cases request.token.attribute? name <;> rfl

/-- The dialogue of an expression is all that the expression does, whatever the rules come to that it
asks for. -/
theorem run_dialogue (e : Expr) : (rs.dialogue request e).run ask = rs.runExpr ask request e := by
  induction e with
  | const => rfl
  | check lhs rhs => exact rs.run_checkDialogue ask request lhs rhs
  | and left right ihleft ihright =>
    rw [dialogue, Dialogue.run_bind, ihleft, runExpr]
    refine congrArg _ (funext fun result => ?_)
    cases result with
    | false => rfl
    | true => exact ihright
  | or left right ihleft ihright =>
    rw [dialogue, Dialogue.run_bind, ihleft, runExpr]
    refine congrArg _ (funext fun result => ?_)
    cases result with
    | false => exact ihright
    | true => rfl
  | not operand ih =>
    rw [dialogue, Dialogue.run_bind, ih, runExpr]
    rfl

end RuleSet

end AccessPolicy
