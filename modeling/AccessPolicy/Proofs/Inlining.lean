import AccessPolicy.Proofs.Checkers
import AccessPolicy.Proofs.Congruence

/-!
# Rules in place of their names

A name stands for its rule, and for `!` where there is none (`ruleOrDeny`). Main statements:
`evaluateWithin_inlined`, references to rules may be replaced by what their names stand for, and
`evaluateWithin_undefined`, a rule that is not there may as well be there and deny.

In both, two rule sets are compared whose runs are alike (`Run.Alike`): they end in the same way
after the same calls of custom checkers. What they report differs, since a rule that is spelled out
is not evaluated by its name.

References that are replaced nest less. So the evaluation with them may come to a result where the
other one goes too deep, and comes to the same one where the other one has any
(`Run.AlikeUnlessDeep`). The proof is by induction on the bound of the other one, over all smaller
bounds: the rule that a reference names is evaluated one bound further down than the rule in which
it stands, and whatever that rule asks for one bound further down again, but the expression that is
put in place of the reference asks where the reference stood.
-/

namespace AccessPolicy

/-! ## Runs that are alike -/

namespace Run

variable {α β : Type} {r r' s s' : Run α} {next next' : α → Run β}

/-- Both end in the same way after the same calls of custom checkers. -/
def Alike (r r' : Run α) : Prop := r.outcome = r'.outcome ∧ r.calls = r'.calls

theorem alike_refl (r : Run α) : r.Alike r := ⟨rfl, rfl⟩

theorem Alike.symm (h : r.Alike r') : r'.Alike r := ⟨h.1.symm, h.2.symm⟩

theorem Alike.trans (h : r.Alike r') (h' : r'.Alike s) : r.Alike s :=
  ⟨h.1.trans h'.1, h.2.trans h'.2⟩

/-- What comes second matters only where the first part has a result. -/
theorem Alike.bind (h : r.Alike r')
    (hnext : ∀ a, r.outcome = .ok a → (next a).Alike (next' a)) :
    (r >>= next).Alike (r' >>= next') := by
  obtain ⟨houtcome, hcalls⟩ := h
  cases ha : r.outcome with
  | ok a =>
    have ha' : r'.outcome = .ok a := houtcome.symm.trans ha
    obtain ⟨hend, hrest⟩ := hnext a ha
    constructor
    · rw [bind_of_ok ha, bind_of_ok ha']
      exact hend
    · rw [calls_bind_of_ok ha, calls_bind_of_ok ha', hcalls, hrest]
  | error f =>
    have ha' : r'.outcome = .error f := houtcome.symm.trans ha
    constructor
    · rw [bind_of_error ha, bind_of_error ha']
    · rw [calls_bind_of_error ha, calls_bind_of_error ha', hcalls]

theorem congruence_alike : Congruence Alike where
  refl := alike_refl
  bind h hnext := h.bind fun a _ => hnext a

/-- A report at the end makes no difference. -/
theorem alike_report (r : Run Bool) (entry : Bool → LogEntry) :
    Alike (do let a ← r; Run.log (entry a); pure a) r := by
  cases h : r.outcome with
  | ok a =>
    refine ⟨?_, (calls_bind_of_ok h).trans (List.append_nil _)⟩
    rw [bind_of_ok h, h]
    rfl
  | error f =>
    refine ⟨?_, calls_bind_of_error h⟩
    rw [bind_of_error h, h]

/-- Both are alike unless the first one goes too deep. -/
def AlikeUnlessDeep (r r' : Run α) : Prop := r.outcome ≠ .error .tooDeep → r.Alike r'

theorem AlikeUnlessDeep.bind (h : r.AlikeUnlessDeep r')
    (hnext : ∀ a, (next a).AlikeUnlessDeep (next' a)) :
    (r >>= next).AlikeUnlessDeep (r' >>= next') := by
  intro hdeep
  have hfirst : r.outcome ≠ .error .tooDeep := by
    intro hr
    rw [bind_of_error hr] at hdeep
    exact hdeep rfl
  refine (h hfirst).bind fun a ha => hnext a ?_
  rw [bind_of_ok ha] at hdeep
  exact hdeep

theorem congruence_alikeUnlessDeep : Congruence AlikeUnlessDeep where
  refl r _ := alike_refl r
  bind := AlikeUnlessDeep.bind

theorem AlikeUnlessDeep.of_alike (h : r.AlikeUnlessDeep r') (hs : s.Alike r) (hs' : s'.Alike r') :
    s.AlikeUnlessDeep s' := by
  intro hdeep
  rw [hs.1] at hdeep
  exact (hs.trans (h hdeep)).trans hs'.symm

end Run

/-- What the checker does does not depend on which rules are defined. It may evaluate them. -/
def Checker.IgnoresDefinitions (checker : Checker) : Prop :=
  ∀ (defined defined' : String → Bool) (ask : RuleOracle) (name : String) (request : Request)
    (text : String),
    checker.run defined ask name request text = checker.run defined' ask name request text

namespace RuleSet

variable {rs rs' : RuleSet} {ask ask' : RuleOracle} {request : Request}

/-! ## What a name stands for -/

/-- The rule of a name, or `!` where there is none. -/
def ruleOrDeny (rs : RuleSet) (name : String) : Expr := (rs.rule? name).getD (.const false)

/-- Only the name under which an expression is stored comes to stand for something else. -/
theorem ruleOrDeny_store (rs : RuleSet) (m name : String) (e : Expr) :
    (rs.store m e).ruleOrDeny name = if name = m then e else rs.ruleOrDeny name := by
  unfold ruleOrDeny
  rw [rule?_store]
  by_cases hname : name = m
  · rw [if_pos hname, if_pos hname]
    rfl
  · rw [if_neg hname, if_neg hname]

/-- But for the reports, a name is evaluated as the expression that it stands for. -/
theorem alike_evaluateWithin_succ (rs : RuleSet) (bound : Nat) (name : String)
    (request : Request) :
    (rs.evaluateWithin (bound + 1) name request).Alike
      (rs.runExpr (rs.evaluateWithin bound) request (rs.ruleOrDeny name)) := by
  unfold evaluateWithin ruleOrDeny
  cases rs.rule? name with
  | none => exact ⟨rfl, rfl⟩
  | some e => exact Run.alike_report _ _

/-! ## Inlining -/

/-- Some of the references in the first expression, any number of them, are replaced in the second
one by what their names stand for. -/
inductive Inlines (rs : RuleSet) : Expr → Expr → Prop
  | refl (e : Expr) : rs.Inlines e e
  | reference {lhs : LeftSide} {rhs : String} (hlhs : rs.asksForRule lhs)
      (hrhs : referenceName? rhs.toList = none) : rs.Inlines (.check lhs rhs) (rs.ruleOrDeny rhs)
  | and {left left' right right' : Expr} : rs.Inlines left left' → rs.Inlines right right' →
      rs.Inlines (.and left right) (.and left' right')
  | or {left left' right right' : Expr} : rs.Inlines left left' → rs.Inlines right right' →
      rs.Inlines (.or left right) (.or left' right')
  | not {operand operand' : Expr} : rs.Inlines operand operand' →
      rs.Inlines (.not operand) (.not operand')

/-- References may be replaced in an expression if that makes no difference to expressions that stay
as they are, nor to a reference alone. -/
theorem Inlines.alikeUnlessDeep {e e' : Expr} (h : rs.Inlines e e')
    (hexpr : ∀ e, (rs.runExpr ask request e).AlikeUnlessDeep (rs'.runExpr ask' request e))
    (hreference : ∀ rule,
      (ask rule request).AlikeUnlessDeep (rs'.runExpr ask' request (rs.ruleOrDeny rule))) :
    (rs.runExpr ask request e).AlikeUnlessDeep (rs'.runExpr ask' request e') := by
  induction h with
  | refl e => exact hexpr e
  | @reference lhs rhs hlhs hrhs =>
    have hasks : rs.runExpr ask request (.check lhs rhs) = ask rhs request :=
      runCheck_rule hlhs hrhs
    rw [hasks]
    exact hreference rhs
  | and _ _ ihleft ihright => exact Run.congruence_alikeUnlessDeep.runExpr_and ihleft ihright
  | or _ _ ihleft ihright => exact Run.congruence_alikeUnlessDeep.runExpr_or ihleft ihright
  | not _ ih => exact Run.congruence_alikeUnlessDeep.runExpr_not ih

/-- References may be replaced in any of the rules of a rule set, where it does not go too deep. -/
theorem evaluateWithin_alikeUnlessDeep (hcheckers : rs.checkers = rs'.checkers)
    (hdefined : rs.isDefined = rs'.isDefined)
    (hrules : ∀ name, rs.Inlines (rs.ruleOrDeny name) (rs'.ruleOrDeny name)) (bound : Nat) :
    ∀ bound', bound ≤ bound' → ∀ name request,
      (rs.evaluateWithin bound name request).AlikeUnlessDeep
        (rs'.evaluateWithin bound' name request) := by
  induction bound using Nat.strongRecOn with
  | ind bound ih =>
    intro bound' hle name request
    cases bound with
    | zero => exact fun hdeep => absurd rfl hdeep
    | succ bound =>
      obtain ⟨bound', rfl⟩ : ∃ b, bound' = b + 1 := ⟨bound' - 1, by omega⟩
      -- an expression that stays as it is, however far down the first evaluation has come
      have hexpr : ∀ b ≤ bound, ∀ e, (rs.runExpr (rs.evaluateWithin b) request e).AlikeUnlessDeep
          (rs'.runExpr (rs'.evaluateWithin bound') request e) := by
        intro b hb
        refine Run.congruence_alikeUnlessDeep.runExpr_of_run (by rw [hcheckers]) ?_
        intro name checker text _
        rw [← hdefined]
        exact Run.congruence_alikeUnlessDeep.run (ih b (by omega) bound' (by omega)) _ _ _ _ _
      -- the rule that a reference names is one bound further down than the expression in its place
      have hreference : ∀ rule, (rs.evaluateWithin bound rule request).AlikeUnlessDeep
          (rs'.runExpr (rs'.evaluateWithin bound') request (rs.ruleOrDeny rule)) := by
        intro rule
        cases bound with
        | zero => exact fun hdeep => absurd rfl hdeep
        | succ bound =>
          exact (hexpr bound (Nat.le_succ _) _).of_alike
            (alike_evaluateWithin_succ rs bound rule request) (Run.alike_refl _)
      have hrule := (hrules name).alikeUnlessDeep (hexpr bound (Nat.le_refl _)) hreference
      exact hrule.of_alike (alike_evaluateWithin_succ rs bound name request)
        (alike_evaluateWithin_succ rs' bound' name request)

theorem isDefined_store_of_rule? {m : String} {e : Expr} (hm : rs.rule? m = some e) (e' : Expr) :
    rs.isDefined = (rs.store m e').isDefined := by
  funext name
  show (rs.rule? name).isSome = ((rs.store m e').rule? name).isSome
  rw [rule?_store]
  by_cases hname : name = m
  · rw [if_pos hname, hname, hm]
    rfl
  · rw [if_neg hname]

/-- For administrators, and on a high level for those whom this very rule lets in. -/
def editing : Expr :=
  .or (.check (.identifier "role") "admin")
    (.and (.check (.identifier "level") "high") (.check (.identifier "rule") "edit"))

/-- A rule that refers to itself, and one that asks for it through a checker. -/
def looping : RuleSet :=
  (((fresh.addChecker "level" (.equals "low")).addChecker "unless" .deniedByRule).store "edit"
    editing).store "view" (.not (.check (.identifier "unless") "edit"))

/-- Rule sets in which every name stands for the same are alike in all they evaluate, if no checker
looks at which rules are defined. -/
theorem evaluateWithin_alike (hcheckers : rs.checkers = rs'.checkers)
    (hignores : rs.EveryChecker Checker.IgnoresDefinitions)
    (hrules : ∀ name, rs.ruleOrDeny name = rs'.ruleOrDeny name) (bound : Nat) :
    ∀ name request,
      (rs.evaluateWithin bound name request).Alike (rs'.evaluateWithin bound name request) := by
  induction bound with
  | zero => exact fun _ _ => Run.alike_refl _
  | succ bound ih =>
    intro name request
    have hexpr : (rs.runExpr (rs.evaluateWithin bound) request (rs.ruleOrDeny name)).Alike
        (rs'.runExpr (rs'.evaluateWithin bound) request (rs'.ruleOrDeny name)) := by
      rw [← hrules]
      refine Run.congruence_alike.runExpr_of_run (by rw [hcheckers]) ?_ _
      intro name checker text hfind
      rw [hignores name checker hfind rs.isDefined rs'.isDefined]
      exact Run.congruence_alike.run ih _ _ _ _ _
    have hbefore := alike_evaluateWithin_succ rs bound name request
    have hafter := alike_evaluateWithin_succ rs' bound name request
    exact (hbefore.trans hexpr).trans hafter.symm

/-- **Undefined rules.** Under a name without a rule, the text `!` may be stored: whatever is
evaluated ends in the same way, after the same calls of custom checkers, if none of them looks at
which rules are defined. -/
theorem evaluateWithin_undefined (hignores : rs.EveryChecker Checker.IgnoresDefinitions)
    {m : String} (hm : rs.rule? m = none) :
    (rs.addRule m "!").error = none ∧ ∀ bound name request,
      ((rs.addRule m "!").ruleSet.evaluateWithin bound name request).outcome =
          (rs.evaluateWithin bound name request).outcome ∧
        ((rs.addRule m "!").ruleSet.evaluateWithin bound name request).calls =
          (rs.evaluateWithin bound name request).calls := by
  have hparse : Expr.parse "!" = .ok (.const false) := rfl
  have hadd : rs.addRule m "!" = ⟨rs.store m (.const false), [.stored m (.const false)], none⟩ := by
    rw [addRule, hparse]
  have hcheckers : rs.checkers = (rs.store m (.const false)).checkers := rfl
  have hrules : ∀ name, rs.ruleOrDeny name = (rs.store m (.const false)).ruleOrDeny name := by
    intro name
    rw [ruleOrDeny_store]
    by_cases hname : name = m
    · rw [if_pos hname, hname, ruleOrDeny, hm]
      rfl
    · rw [if_neg hname]
  rw [hadd]
  refine ⟨rfl, fun bound name request => ?_⟩
  exact (evaluateWithin_alike hcheckers hignores hrules bound name request).symm

/-- A rule that is not there, asked for by its name, under `not` and through checkers. -/
def dangling : RuleSet :=
  ((fresh.addChecker "unless" .deniedByRule).addChecker "elsewhere" (.ruleForTarget .unknown)).store
    "view" (.and (.not (.check (.identifier "rule") "gone"))
      (.and (.check (.identifier "unless") "gone") (.check (.identifier "elsewhere") "gone")))

theorem evaluateWithin_undefined_dangling :
    (dangling.evaluate "view" ⟨⟨[], ∅⟩, .unknown⟩).outcome = .ok false ∧
    ((dangling.addRule "gone" "!").ruleSet.evaluate "view" ⟨⟨[], ∅⟩, .unknown⟩).outcome =
      .ok false ∧
    ((dangling.addRule "gone" "!").ruleSet.evaluate "view" ⟨⟨[], ∅⟩, .unknown⟩).calls =
      [("unless", "gone"), ("elsewhere", "gone")] := by
  have hfresh : fresh.EveryChecker Checker.IgnoresDefinitions :=
    everyChecker_fresh (fun _ _ _ _ _ _ => rfl) (fun _ _ _ _ _ _ => rfl)
  have hignores : dangling.EveryChecker Checker.IgnoresDefinitions :=
    ((hfresh.addChecker "unless" fun _ _ _ _ _ _ => rfl).addChecker "elsewhere"
      fun _ _ _ _ _ _ => rfl).store _ _
  have hgone : dangling.rule? "gone" = none := rfl
  have houtcome : (dangling.evaluate "view" ⟨⟨[], ∅⟩, .unknown⟩).outcome = .ok false := rfl
  have hcalls : (dangling.evaluate "view" ⟨⟨[], ∅⟩, .unknown⟩).calls =
      [("unless", "gone"), ("elsewhere", "gone")] := by decide
  have hsame := (evaluateWithin_undefined hignores hgone).2 depthBound "view" ⟨⟨[], ∅⟩, .unknown⟩
  exact ⟨houtcome, hsame.1.trans houtcome, hsame.2.trans hcalls⟩

end RuleSet
end AccessPolicy
