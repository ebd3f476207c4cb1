import AccessPolicy.Proofs.Evaluation
import Mathlib.Data.Set.Defs

/-!
# Two evaluations side by side

What can be said about evaluation often compares two: in two rule sets, for two requests, or within
two bounds. How their runs compare is a relation between runs. It is a `Run.Congruence` if it holds
of every run and itself, and of two runs whose parts are related one by one. Then the two
evaluations have to be looked at only where they differ.

There is one lemma for each step of an evaluation: a decision (`settle`), a checker (`run`), a check
(`runCheck`) and an expression (`runExpr`). Main statement: `evaluateWithin`, where either
evaluation stays with its request, rules are related if their checks are.
-/

namespace AccessPolicy

/-- A relation that goes from the parts of two runs to the whole of them. -/
structure Run.Congruence (R : {α : Type} → Run α → Run α → Prop) : Prop where
  refl : ∀ {α : Type} (r : Run α), R r r
  bind : ∀ {α β : Type} {r r' : Run α} {next next' : α → Run β},
    R r r' → (∀ a, R (next a) (next' a)) → R (r >>= next) (r' >>= next')

theorem Run.congruence_eq : Run.Congruence fun r r' => r = r' where
  refl _ := rfl
  bind h hnext := by rw [h, funext hnext]

variable {R : {α : Type} → Run α → Run α → Prop} {rs rs' : RuleSet} {ask ask' : RuleOracle}
  {q q' : Request}

/-! ## Checks -/

/-- Decisions are related if the evaluations that they ask for are. -/
theorem Run.Congruence.settle (hR : Run.Congruence R)
    (hask : ∀ rule request, R (ask rule request) (ask' rule request)) (defined : String → Bool)
    (d : Decision) : R (d.settle defined ask) (d.settle defined ask') := by
  induction d with
  | answer | giveUp => exact hR.refl _
  | evaluate rule request next ih => exact hR.bind (hask rule request) ih
  | isDefined rule next ih => exact ih _

theorem Run.Congruence.run (hR : Run.Congruence R)
    (hask : ∀ rule request, R (ask rule request) (ask' rule request)) (checker : Checker)
    (defined : String → Bool) (name : String) (request : Request) (text : String) :
    R (checker.run defined ask name request text) (checker.run defined ask' name request text) := by
  cases checker with
  | role => exact hR.refl _
  | rule => exact hask text request
  | custom decide => exact hR.bind (hR.refl _) fun _ => hR.settle hask defined _

/-- A check is related to itself if its right side stands for the same text, and its left side for
the same attribute or for checkers that are related on that text. -/
theorem Run.Congruence.runCheck (hR : Run.Congruence R)
    (hcheckers : rs.checkers.find? = rs'.checkers.find?) {lhs : LeftSide} {rhs : String}
    (hresolve : q.target.resolve rhs = q'.target.resolve rhs)
    (hattribute : ∀ name, lhs = .identifier name → rs.checkers.find? name = none →
      q.token.attribute? name = q'.token.attribute? name)
    (hrun : ∀ name checker resolved, lhs = .identifier name →
      rs.checkers.find? name = some checker → q.target.resolve rhs = some resolved →
      R (checker.run rs.isDefined ask name q resolved)
        (checker.run rs'.isDefined ask' name q' resolved)) :
    R (rs.runCheck ask q lhs rhs) (rs'.runCheck ask' q' lhs rhs) := by
  unfold RuleSet.runCheck
  rw [← hresolve]
  cases hresolved : q.target.resolve rhs with
  | none => exact hR.refl _
  | some resolved =>
    unfold RuleSet.runResolved
    cases lhs with
    | literal value => exact hR.refl _
    | identifier name =>
      dsimp only
      rw [← hcheckers]
      cases hfind : rs.checkers.find? name with
      | some checker => exact hrun name checker resolved rfl hfind hresolved
      | none =>
        rw [← hattribute name rfl hfind]
        exact hR.refl _

/-! ## Expressions -/

/-- The right operands matter where the left ones leave the result open. -/
theorem Run.Congruence.runExpr_and (hR : Run.Congruence R) {left left' right right' : Expr}
    (hleft : R (rs.runExpr ask q left) (rs'.runExpr ask' q' left'))
    (hright : R (rs.runExpr ask q right) (rs'.runExpr ask' q' right')) :
    R (rs.runExpr ask q (.and left right)) (rs'.runExpr ask' q' (.and left' right')) := by
  unfold RuleSet.runExpr
  refine hR.bind hleft fun a => ?_
  cases a with
  | false => exact hR.refl _
  | true => exact hright

theorem Run.Congruence.runExpr_or (hR : Run.Congruence R) {left left' right right' : Expr}
    (hleft : R (rs.runExpr ask q left) (rs'.runExpr ask' q' left'))
    (hright : R (rs.runExpr ask q right) (rs'.runExpr ask' q' right')) :
    R (rs.runExpr ask q (.or left right)) (rs'.runExpr ask' q' (.or left' right')) := by
  unfold RuleSet.runExpr
  refine hR.bind hleft fun a => ?_
  cases a with
  | false => exact hright
  | true => exact hR.refl _

theorem Run.Congruence.runExpr_not (hR : Run.Congruence R) {operand operand' : Expr}
    (h : R (rs.runExpr ask q operand) (rs'.runExpr ask' q' operand')) :
    R (rs.runExpr ask q (.not operand)) (rs'.runExpr ask' q' (.not operand')) := by
  unfold RuleSet.runExpr
  exact hR.bind h fun _ => hR.refl _

/-- An expression is related to itself if its checks are. -/
theorem Run.Congruence.runExpr (hR : Run.Congruence R) {e : Expr}
    (h : ∀ lhs rhs, .check lhs rhs ∈ e.leaves →
      R (rs.runCheck ask q lhs rhs) (rs'.runCheck ask' q' lhs rhs)) :
    R (rs.runExpr ask q e) (rs'.runExpr ask' q' e) := by
  induction e with
  | const => exact hR.refl _
  | check lhs rhs => exact h lhs rhs (List.mem_singleton.mpr rfl)
  | and left right ihleft ihright =>
    exact hR.runExpr_and (ihleft fun lhs rhs hmem => h lhs rhs (List.mem_append_left _ hmem))
      (ihright fun lhs rhs hmem => h lhs rhs (List.mem_append_right _ hmem))
  | or left right ihleft ihright =>
    exact hR.runExpr_or (ihleft fun lhs rhs hmem => h lhs rhs (List.mem_append_left _ hmem))
      (ihright fun lhs rhs hmem => h lhs rhs (List.mem_append_right _ hmem))
  | not operand ih => exact hR.runExpr_not (ih h)

/-- For one request, expressions are related to themselves if the checkers are. -/
theorem Run.Congruence.runExpr_of_run (hR : Run.Congruence R)
    (hcheckers : rs.checkers.find? = rs'.checkers.find?)
    (hrun : ∀ name checker text, rs.checkers.find? name = some checker →
      R (checker.run rs.isDefined ask name q text) (checker.run rs'.isDefined ask' name q text))
    (e : Expr) : R (rs.runExpr ask q e) (rs'.runExpr ask' q e) :=
  hR.runExpr fun _ _ _ => hR.runCheck hcheckers rfl (fun _ _ _ => rfl)
    fun name checker resolved _ hfind _ => hrun name checker resolved hfind

/-! ## Rules -/

/-- Two evaluations with the same rules in `S`, each for a request of its own, are related on `S` if
the checks of these rules are, whatever it is that they ask for. -/
theorem Run.Congruence.evaluateWithin (hR : Run.Congruence R) {S : Set String}
    (hrules : ∀ name ∈ S, rs.rule? name = rs'.rule? name)
    (hcheck : ∀ ask ask' : RuleOracle, (∀ rule ∈ S, R (ask rule q) (ask' rule q')) →
      ∀ name ∈ S, ∀ e, rs.rule? name = some e → ∀ lhs rhs, .check lhs rhs ∈ e.leaves →
        R (rs.runCheck ask q lhs rhs) (rs'.runCheck ask' q' lhs rhs)) (bound : Nat) :
    ∀ name ∈ S, R (rs.evaluateWithin bound name q) (rs'.evaluateWithin bound name q') := by
  induction bound with
  | zero => exact fun _ _ => hR.refl _
  | succ bound ih =>
    intro name hname
    unfold RuleSet.evaluateWithin
    rw [← hrules name hname]
    cases hrule : rs.rule? name with
    | none => exact hR.refl _
    | some e =>
      have hexpr := hR.runExpr (hcheck _ _ ih name hname e hrule)
      exact hR.bind hexpr fun _ => hR.refl _

end AccessPolicy
