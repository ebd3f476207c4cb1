import AccessPolicy.Proofs.LeftNested
import AccessPolicy.RuleSet.Evaluation

/-!
# Evaluating regrouped rules

`and` and `or` stop at the first operand that decides, so it makes no difference how a chain of
them is nested: the same checks are made in the same order, and the chain ends with the same one.
Hence an expression and its left-nested form have one run (`runExpr_regroups`), also where a rule
set holds one in place of the other and other rules refer to it (`evaluateWithin_regroups`).
-/

namespace AccessPolicy

/-! ## Runs -/

namespace Run

theorem bind_of_ok {α β : Type} {r : Run α} {a : α} (h : r.outcome = .ok a) (next : α → Run β) :
    r >>= next = ⟨r.events ++ (next a).events, (next a).outcome⟩ := by
  change Run.bind r next = _
  rw [Run.bind, h]

theorem bind_of_error {α β : Type} {r : Run α} {f : Fault} (h : r.outcome = .error f)
    (next : α → Run β) : r >>= next = ⟨r.events, .error f⟩ := by
  change Run.bind r next = _
  rw [Run.bind, h]

theorem calls_bind_of_ok {α β : Type} {r : Run α} {next : α → Run β} {a : α}
    (h : r.outcome = .ok a) : (r >>= next).calls = r.calls ++ (next a).calls := by
  rw [bind_of_ok h]
  exact List.filterMap_append

theorem calls_bind_of_error {α β : Type} {r : Run α} {next : α → Run β} {f : Fault}
    (h : r.outcome = .error f) : (r >>= next).calls = r.calls := by
  rw [bind_of_error h]
  rfl

theorem entries_bind_of_ok {α β : Type} {r : Run α} {next : α → Run β} {a : α}
    (h : r.outcome = .ok a) : (r >>= next).entries = r.entries ++ (next a).entries := by
  rw [bind_of_ok h]
  exact List.filterMap_append

theorem entries_bind_of_error {α β : Type} {r : Run α} {next : α → Run β} {f : Fault}
    (h : r.outcome = .error f) : (r >>= next).entries = r.entries := by
  rw [bind_of_error h]
  rfl

theorem ok_pure {α : Type} (a : α) : (pure a : Run α).outcome = .ok a := rfl

/-- A run answers if its parts do. -/
theorem bind_outcome_eq_ok_iff {α β : Type} {r : Run α} {next : α → Run β} {b : β} :
    (r >>= next).outcome = .ok b ↔ ∃ a, r.outcome = .ok a ∧ (next a).outcome = .ok b := by
  cases h : r.outcome with
  | ok a =>
    rw [bind_of_ok h]
    constructor
    · exact fun hb => ⟨a, rfl, hb⟩
    · intro ⟨a', ha, hb⟩
      rwa [Except.ok.inj ha]
  | error f =>
    rw [bind_of_error h]
    constructor
    · nofun
    · intro ⟨a, ha, _⟩
      cases ha

instance : LawfulMonad Run := by
  refine .mk' _ ?_ ?_ ?_
  · intro α r
    cases h : r.outcome with
    | ok a =>
      refine (bind_of_ok h _).trans ?_
      cases r
      simp_all [Run.pure]
    | error f =>
      refine (bind_of_error h _).trans ?_
      cases r
      simp_all
  · intro α β a next
    rw [bind_of_ok (ok_pure a)]
    change (⟨[] ++ (next a).events, (next a).outcome⟩ : Run β) = next a
    rw [List.nil_append]
  · intro α β γ r next last
    cases h : r.outcome with
    | ok a =>
      rw [bind_of_ok h, bind_of_ok h]
      cases hb : (next a).outcome with
      | ok b =>
        rw [bind_of_ok hb, bind_of_ok (by rfl)]
        simp
      | error f =>
        rw [bind_of_error hb, bind_of_error (by rfl)]
    | error f => rw [bind_of_error h, bind_of_error h, bind_of_error (by rfl)]

end Run

namespace RuleSet

/-! ## Rule sets that differ in a rule -/

theorem rule?_store (rs : RuleSet) (name n : String) (e : Expr) :
    (rs.store name e).rule? n = if n = name then some e else rs.rule? n :=
  Dict.find?_insert rs.rules name n e

/-- Whatever is stored under a name, the same names are defined. -/
theorem isDefined_store (rs : RuleSet) (name : String) (e e' : Expr) :
    (rs.store name e).isDefined = (rs.store name e').isDefined := by
  funext n
  change ((rs.store name e).rule? n).isSome = ((rs.store name e').rule? n).isSome
  rw [rule?_store, rule?_store]
  split <;> rfl

/-- Of the rules of a rule set, an expression sees the results and whether they are defined. -/
theorem runExpr_congr {rs rs' : RuleSet} (hcheckers : rs.checkers = rs'.checkers)
    (hdefined : rs.isDefined = rs'.isDefined) (ask : RuleOracle) (request : Request) (e : Expr) :
    rs.runExpr ask request e = rs'.runExpr ask request e := by
  induction e with
  | const => rfl
  | check lhs rhs => simp only [runExpr, runCheck, runResolved, hcheckers, hdefined]
  | and left right ihleft ihright | or left right ihleft ihright =>
    rw [runExpr, runExpr, ihleft, ihright]
  | not operand ih => rw [runExpr, runExpr, ih]

/-! ## Regrouping -/

/-- **Regrouping.** However the chains of an expression are nested, its run is the same. -/
theorem runExpr_regroups {e e' : Expr} (h : Regroups e e') (rs : RuleSet) (ask : RuleOracle)
    (request : Request) : rs.runExpr ask request e = rs.runExpr ask request e' := by
  induction h with
  | refl => rfl
  | trans _ _ ih ih' => exact ih.trans ih'
  | andAssoc =>
    -- after the first operand both are decided, or both go on with the same two
    simp only [runExpr, bind_assoc]
    refine congrArg _ (funext fun result => ?_)
    cases result <;> simp
  | orAssoc =>
    simp only [runExpr, bind_assoc]
    refine congrArg _ (funext fun result => ?_)
    cases result <;> simp
  | and _ _ iha ihb | or _ _ iha ihb => rw [runExpr, runExpr, iha, ihb]
  | not _ ih => rw [runExpr, runExpr, ih]

/-- Rule sets that hold an expression with its chains nested in one way or another do the same,
whichever rule is evaluated. -/
theorem evaluateWithin_regroups {e e' : Expr} (h : Regroups e e') (rs : RuleSet) (name : String) :
    ∀ bound, (rs.store name e).evaluateWithin bound = (rs.store name e').evaluateWithin bound := by
  intro bound
  induction bound with
  | zero => rfl
  | succ bound ih =>
    funext rule request
    have hrun : ∀ expr,
        (rs.store name e).runExpr ((rs.store name e).evaluateWithin bound) request expr =
          (rs.store name e').runExpr ((rs.store name e').evaluateWithin bound) request expr := by
      intro expr
      have hcheckers : (rs.store name e).checkers = (rs.store name e').checkers := rfl
      rw [ih]
      exact runExpr_congr hcheckers (isDefined_store rs name e e') _ _ _
    rw [evaluateWithin, evaluateWithin, rule?_store, rule?_store]
    by_cases hrule : rule = name
    · simp only [if_pos hrule, hrun, runExpr_regroups h]
    · simp only [if_neg hrule, hrun]

end RuleSet
end AccessPolicy
