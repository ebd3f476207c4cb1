import AccessPolicy.Proofs.Depth

/-!
# Rules without circles

A rule set can be read as equations, one for each rule, between the results of rules for a request
(`Solves`). Where rules go in circles the equations may have no solution, or several. Main
statement: `exists_solution`, where rules can be ranked so that each refers to rules of lower rank
only (`RankedBy`), the equations have exactly one solution, and evaluation finds it.

By induction on the rank, every rule has a result within some bound (`exists_result`), hence
within the bound above which nothing changes any more. Then every check has a value, and which
operands `and` and `or` look at makes no difference (`outcome_runExpr_holds`).
-/

namespace AccessPolicy

/-- An expression read with the ordinary `and`, `or` and `not`, where each check has a value. -/
def Expr.holds (value : LeftSide → String → Bool) : Expr → Bool
  | .const b => b
  | .check lhs rhs => value lhs rhs
  | .and left right => left.holds value && right.holds value
  | .or left right => left.holds value || right.holds value
  | .not operand => !operand.holds value

theorem holds_congr {value value' : LeftSide → String → Bool} {e : Expr}
    (h : ∀ lhs rhs, .check lhs rhs ∈ e.leaves → value lhs rhs = value' lhs rhs) :
    e.holds value = e.holds value' := by
  induction e with
  | const => rfl
  | check lhs rhs => exact h lhs rhs (List.mem_singleton.mpr rfl)
  | and left right ihleft ihright | or left right ihleft ihright =>
    have hleft := ihleft fun lhs rhs hmem => h lhs rhs (List.mem_append_left _ hmem)
    have hright := ihright fun lhs rhs hmem => h lhs rhs (List.mem_append_right _ hmem)
    rw [Expr.holds, Expr.holds, hleft, hright]
  | not operand ih => rw [Expr.holds, Expr.holds, ih h]

/-- What is to hold for all checks is checked leaf by leaf. -/
instance Expr.decidableForallChecks {P : LeftSide → String → Prop}
    [∀ lhs rhs, Decidable (P lhs rhs)] (e : Expr) :
    Decidable (∀ lhs rhs, .check lhs rhs ∈ e.leaves → P lhs rhs) :=
  haveI : DecidablePred fun leaf : Expr => ∀ lhs rhs, leaf = .check lhs rhs → P lhs rhs
    | .check lhs rhs => decidable_of_iff (P lhs rhs) (by simp)
    | .const _ | .and _ _ | .or _ _ | .not _ => .isTrue nofun
  decidable_of_iff (∀ leaf ∈ e.leaves, ∀ lhs rhs, leaf = .check lhs rhs → P lhs rhs)
    ⟨fun h lhs rhs hmem => h _ hmem lhs rhs rfl,
      fun h leaf hmem lhs rhs heq => h lhs rhs (heq ▸ hmem)⟩

namespace RuleSet

/-! ## Rules as equations -/

/-- The outcome of a check for which no rule can be evaluated, and false if there is none. -/
def ownResult (rs : RuleSet) (request : Request) (lhs : LeftSide) (rhs : String) : Bool :=
  match (rs.runCheck (fun _ _ => Run.fault .tooDeep) request lhs rhs).outcome with
  | .ok b => b
  | .error _ => false

/-- What a check stands for: what is assigned to its rule, or its own outcome. -/
def checkResult (rs : RuleSet) (request : Request) (assigned : String → Bool) (lhs : LeftSide)
    (rhs : String) : Bool :=
  if rs.asksForRule lhs then assigned rhs else rs.ownResult request lhs rhs

/-- What is assigned to names satisfies the equations of the rules. -/
structure Solves (rs : RuleSet) (request : Request) (assigned : String → Bool) : Prop where
  undefined : ∀ name, rs.rule? name = none → assigned name = false
  defined : ∀ name e, rs.rule? name = some e →
    assigned name = e.holds (rs.checkResult request assigned)

/-- Every rule spells out the rules that it asks for, and those which are defined have a lower
rank. -/
def RankedBy (rs : RuleSet) (rank : String → Nat) : Prop :=
  ∀ name e, rs.rule? name = some e → ∀ lhs rhs, .check lhs rhs ∈ e.leaves → rs.asksForRule lhs →
    referenceName? rhs.toList = none ∧ (rs.rule? rhs = none ∨ rank rhs < rank name)

instance (rs : RuleSet) (rank : String → Nat) : Decidable (rs.RankedBy rank) :=
  inferInstanceAs (Decidable (∀ name e, rs.rules.find? name = some e →
    ∀ lhs rhs, .check lhs rhs ∈ e.leaves → rs.asksForRule lhs →
      referenceName? rhs.toList = none ∧ (rs.rule? rhs = none ∨ rank rhs < rank name)))

variable {rs : RuleSet} {ask : RuleOracle} {request : Request} {lhs : LeftSide} {rhs : String}

/-- A check that does not ask for a rule has its own outcome, whatever rules come to. -/
theorem outcome_runCheck_own (h : rs.EveryChecker Checker.Plain) (hlhs : rs.asksForRule lhs = false)
    (ask : RuleOracle) (request : Request) (rhs : String) :
    (rs.runCheck ask request lhs rhs).outcome = .ok (rs.ownResult request lhs rhs) := by
  have hany : ∃ b, ∀ ask : RuleOracle, (rs.runCheck ask request lhs rhs).outcome = .ok b := by
    unfold runCheck
    cases request.target.resolve rhs with
    | none => exact ⟨false, fun _ => rfl⟩
    | some resolved =>
      rcases outcome_runResolved_cases h request lhs rhs resolved with hown | ⟨hrule, -⟩
      · exact hown
      · rw [hlhs] at hrule
        cases hrule
  obtain ⟨b, hb⟩ := hany
  rw [ownResult, hb, hb]

/-! ## Evaluation solves the equations -/

/-- Where all checks have a value, an expression has the one that it is read with. -/
theorem outcome_runExpr_holds {value : LeftSide → String → Bool} {e : Expr}
    (h : ∀ lhs rhs, .check lhs rhs ∈ e.leaves →
      (rs.runCheck ask request lhs rhs).outcome = .ok (value lhs rhs)) :
    (rs.runExpr ask request e).outcome = .ok (e.holds value) := by
  induction e with
  | const => rfl
  | check lhs rhs => exact h lhs rhs (List.mem_singleton.mpr rfl)
  | and left right ihleft ihright =>
    have hleft := ihleft fun lhs rhs hmem => h lhs rhs (List.mem_append_left _ hmem)
    have hright := ihright fun lhs rhs hmem => h lhs rhs (List.mem_append_right _ hmem)
    rw [runExpr, Run.bind_of_ok hleft, Expr.holds]
    cases left.holds value with
    | false => rfl
    | true => exact hright
  | or left right ihleft ihright =>
    have hleft := ihleft fun lhs rhs hmem => h lhs rhs (List.mem_append_left _ hmem)
    have hright := ihright fun lhs rhs hmem => h lhs rhs (List.mem_append_right _ hmem)
    rw [runExpr, Run.bind_of_ok hleft, Expr.holds]
    cases left.holds value with
    | false => exact hright
    | true => rfl
  | not operand ih =>
    rw [runExpr, Run.bind_of_ok (ih h), Expr.holds]
    rfl

variable {rank : String → Nat}

/-- A rule has a result within a bound that leaves room for the rules of lower rank, and for an
undefined name below them. -/
theorem exists_result (h : rs.EveryChecker Checker.Plain) (hrank : rs.RankedBy rank)
    (request : Request) {bound : Nat} {name : String}
    (hname : rs.rule? name = none ∨ rank name < bound) :
    ∃ b, (rs.evaluateWithin (bound + 1) name request).outcome = .ok b := by
  induction bound generalizing name with
  | zero =>
    have hundefined : rs.rule? name = none := hname.resolve_right (Nat.not_lt_zero _)
    exact ⟨false, outcome_undefined hundefined 0 request⟩
  | succ bound ih =>
    cases hrule : rs.rule? name with
    | none => exact ⟨false, outcome_undefined hrule (bound + 1) request⟩
    | some e =>
      have hlt : rank name < bound + 1 := hname.resolve_left (by rw [hrule]; nofun)
      have hchecks : ∀ lhs rhs, .check lhs rhs ∈ e.leaves → ∃ b,
          (rs.runCheck (rs.evaluateWithin (bound + 1)) request lhs rhs).outcome = .ok b := by
        intro lhs rhs hmem
        cases hlhs : rs.asksForRule lhs with
        | false => exact ⟨_, outcome_runCheck_own h hlhs _ request rhs⟩
        | true =>
          obtain ⟨hrhs, hlower⟩ := hrank name e hrule lhs rhs hmem hlhs
          rw [runCheck_rule hlhs hrhs]
          refine ih (hlower.imp_right fun hlower => ?_)
          omega
      choose! value hvalue using hchecks
      rw [outcome_evaluateWithin rs (bound + 1) hrule]
      exact ⟨_, outcome_runExpr_holds hvalue⟩

/-- If every name has a result, the results solve the equations. -/
theorem solves_of_outcome (h : rs.EveryChecker Checker.Plain) (hrank : rs.RankedBy rank)
    {bound : Nat} {assigned : String → Bool}
    (hbound : ∀ name, (rs.evaluateWithin bound name request).outcome = .ok (assigned name))
    (hnext : ∀ name, (rs.evaluateWithin (bound + 1) name request).outcome = .ok (assigned name)) :
    rs.Solves request assigned := by
  constructor
  · intro name hundefined
    have hresult := outcome_undefined hundefined bound request
    rw [hnext] at hresult
    exact Except.ok.inj hresult
  · intro name e hrule
    have hchecks : ∀ lhs rhs, .check lhs rhs ∈ e.leaves →
        (rs.runCheck (rs.evaluateWithin bound) request lhs rhs).outcome =
          .ok (rs.checkResult request assigned lhs rhs) := by
      intro lhs rhs hmem
      unfold checkResult
      cases hlhs : rs.asksForRule lhs with
      | false => exact outcome_runCheck_own h hlhs _ request rhs
      | true =>
        rw [runCheck_rule hlhs (hrank name e hrule lhs rhs hmem hlhs).1]
        exact hbound rhs
    have hresult := hnext name
    rw [outcome_evaluateWithin rs bound hrule, outcome_runExpr_holds hchecks] at hresult
    exact (Except.ok.inj hresult).symm

/-- The equations of ranked rules have at most one solution. -/
theorem Solves.unique (hrank : rs.RankedBy rank) {assigned assigned' : String → Bool}
    (h : rs.Solves request assigned) (h' : rs.Solves request assigned') : assigned = assigned' := by
  have hbelow : ∀ n name, rank name < n → assigned name = assigned' name := by
    intro n
    induction n with
    | zero => exact fun name hlt => absurd hlt (Nat.not_lt_zero _)
    | succ n ih =>
      intro name hlt
      cases hrule : rs.rule? name with
      | none => rw [h.undefined name hrule, h'.undefined name hrule]
      | some e =>
        rw [h.defined name e hrule, h'.defined name e hrule]
        refine holds_congr fun lhs rhs hmem => ?_
        unfold checkResult
        cases hlhs : rs.asksForRule lhs with
        | false => rfl
        | true =>
          rcases (hrank name e hrule lhs rhs hmem hlhs).2 with hundefined | hlower
          · exact (h.undefined rhs hundefined).trans (h'.undefined rhs hundefined).symm
          · exact ih rhs (by omega)
  funext name
  exact hbelow _ name (Nat.lt_succ_self _)

/-- **Acyclic policies.** Where rules are ranked, evaluation comes to a result within every bound
above the number of rules, and the results are the only solution of the equations that the rules are
read as. -/
theorem exists_solution (h : rs.EveryChecker Checker.Plain) (hrank : rs.RankedBy rank)
    (request : Request) :
    ∃ assigned : String → Bool,
      (∀ bound name, rs.size < bound →
        (rs.evaluateWithin bound name request).outcome = .ok (assigned name)) ∧
      rs.Solves request assigned ∧
      ∀ assigned', rs.Solves request assigned' → assigned' = assigned := by
  have hresult : ∀ name, ∃ b, rs.resultWithin request (rs.size + 1) name = some b := by
    intro name
    obtain ⟨b, hb⟩ := exists_result h hrank request (Or.inr (Nat.lt_succ_self (rank name)))
    -- the bound that the rank asks for may be larger than needed
    have hlarge : rs.resultWithin request (rs.size + rank name + 2) name = some b :=
      resultWithin_mono (by omega) (toOption_eq_some_iff.mpr hb)
    refine ⟨b, ?_⟩
    rw [← hlarge]
    exact (resultWithin_eq_of_size_lt h (Nat.lt_succ_self _) (by omega) name).symm
  choose assigned hassigned using hresult
  have houtcome : ∀ bound name, rs.size < bound →
      (rs.evaluateWithin bound name request).outcome = .ok (assigned name) := by
    intro bound name hsize
    rw [← toOption_eq_some_iff, ← hassigned name]
    exact resultWithin_eq_of_size_lt h (Nat.lt_succ_self _) hsize name
  have hsolves : rs.Solves request assigned :=
    solves_of_outcome h hrank (fun name => houtcome (rs.size + 1) name (Nat.lt_succ_self _))
      (fun name => houtcome (rs.size + 2) name (by omega))
  exact ⟨assigned, houtcome, hsolves, fun _ h' => h'.unique hrank hsolves⟩

/-- Who may view and who may edit: rules in layers, a rule that is not there, and a checker of
one's own. -/
def layered : RuleSet :=
  ((fresh.addChecker "level" (.equals "high")).store "view"
    (.or (.check (.identifier "role") "reader") (.check (.identifier "rule") "edit"))).store "edit"
    (.and (.not (.check (.identifier "rule") "banned")) (.check (.identifier "level") "high"))

theorem solution_layered :
    (layered.evaluateWithin depthBound "view" ⟨⟨[], ∅⟩, .unknown⟩).outcome = .ok true ∧
    ∃ assigned, layered.Solves ⟨⟨[], ∅⟩, .unknown⟩ assigned ∧ assigned "view" = true ∧
      ∀ assigned', layered.Solves ⟨⟨[], ∅⟩, .unknown⟩ assigned' → assigned' = assigned := by
  have hchecker : (Checker.equals "high").Plain := fun _ rhs => ⟨rhs == "high", fun _ _ => rfl⟩
  have hplain : layered.EveryChecker Checker.Plain :=
    (((everyChecker_fresh trivial trivial).addChecker "level" hchecker).store _ _).store _ _
  have hranked : layered.RankedBy fun name => if name = "view" then 1 else 0 := by decide
  obtain ⟨assigned, houtcome, hsolves, hunique⟩ :=
    exists_solution hplain hranked ⟨⟨[], ∅⟩, .unknown⟩
  have hview : (layered.evaluateWithin 3 "view" ⟨⟨[], ∅⟩, .unknown⟩).outcome = .ok true := rfl
  have hassigned : assigned "view" = true := by
    rw [houtcome 3 "view" (by decide)] at hview
    exact Except.ok.inj hview
  exact ⟨(houtcome depthBound "view" (by decide)).trans (congrArg _ hassigned), assigned, hsolves,
    hassigned, hunique⟩

end RuleSet
end AccessPolicy
