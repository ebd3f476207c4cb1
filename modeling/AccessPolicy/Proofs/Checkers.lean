import AccessPolicy.Proofs.Replacement

/-!
# Rule sets by the checkers they have

A custom checker may evaluate rules for a request of its own making, turn their results around, and
give up. Much of what one expects of a rule set holds only where this does not happen: where all
checkers are built in (`Checker.Builtin`), or where custom checkers answer from the request and the
text alone (`Checker.Plain`).

Under plain checkers an evaluation stays with its request. What an expression comes to then depends
on the results of rules for this one request and on nothing else (`situation_congr`), and it has no
fault that is not the fault of a rule (`exists_fault_of_runExpr`).
-/

namespace AccessPolicy

/-- One of the two checkers that every rule set starts with. -/
def Checker.Builtin : Checker → Prop
  | .role | .rule => True
  | .custom _ => False

/-- A custom checker answers whatever it is asked, and evaluates no rule for it. -/
def Checker.Plain : Checker → Prop
  | .role | .rule => True
  | .custom decide => ∀ request rhs, ∃ result, ∀ defined ask,
      ((decide request rhs).settle defined ask).outcome = .ok result

theorem Checker.Builtin.plain {checker : Checker} (h : checker.Builtin) : checker.Plain := by
  cases checker with
  | role | rule => trivial
  | custom => cases h

/-- A run ends in a fault where one of its parts does. -/
theorem Run.bind_outcome_eq_error_iff {α β : Type} {r : Run α}
    {next : α → Run β} {f : Fault} :
    (r >>= next).outcome = .error f ↔
      r.outcome = .error f ∨ ∃ a, r.outcome = .ok a ∧ (next a).outcome = .error f := by
  cases h : r.outcome with
  | ok a => rw [Run.bind_of_ok h]; simp
  | error g => rw [Run.bind_of_error h]; simp

namespace RuleSet

/-- Every registered checker is of this kind. -/
def EveryChecker (rs : RuleSet) (P : Checker → Prop) : Prop :=
  ∀ name checker, rs.checkers.find? name = some checker → P checker

variable {rs : RuleSet} {P Q : Checker → Prop}

theorem EveryChecker.imp (h : rs.EveryChecker P) (hPQ : ∀ checker, P checker → Q checker) :
    rs.EveryChecker Q :=
  fun name checker hfind => hPQ checker (h name checker hfind)

theorem everyChecker_fresh (hrule : P Checker.rule) (hrole : P Checker.role) :
    fresh.EveryChecker P := by
  intro name checker hfind
  have hmem : (name, checker) ∈ [("rule", Checker.rule), ("role", Checker.role)] :=
    Dict.find?_eq_some_iff.mp hfind
  rcases List.mem_cons.mp hmem with heq | hmem
  · cases heq
    exact hrule
  · cases List.mem_singleton.mp hmem
    exact hrole

theorem EveryChecker.store (h : rs.EveryChecker P) (name : String) (e : Expr) :
    (rs.store name e).EveryChecker P :=
  h

theorem EveryChecker.addChecker (h : rs.EveryChecker P) (name : String) {checker : Checker}
    (hchecker : P checker) : (rs.addChecker name checker).EveryChecker P := by
  intro n c hfind
  change (rs.checkers.insert name checker).find? n = some c at hfind
  rw [Dict.find?_insert] at hfind
  split at hfind
  · cases hfind
    exact hchecker
  · exact h n c hfind

/-! ## One request -/

/-- Whether a check with this left side asks for the result of a rule. -/
def asksForRule (rs : RuleSet) : LeftSide → Bool
  | .literal _ => false
  | .identifier name =>
    match rs.checkers.find? name with
    | some .rule => true
    | _ => false

theorem asksForRule_iff {lhs : LeftSide} :
    rs.asksForRule lhs ↔ ∃ name, lhs = .identifier name ∧ rs.checkers.find? name = some .rule := by
  unfold asksForRule
  cases lhs with
  | literal => simp
  | identifier name =>
    dsimp only
    split
    next hfind => simp [hfind]
    next hfind => simpa using hfind

variable {ask ask' : RuleOracle} {request : Request}

/-- A check that asks for a rule by its name does what the rule does. -/
theorem runCheck_rule {lhs : LeftSide} {rhs : String} (hlhs : rs.asksForRule lhs)
    (hrhs : referenceName? rhs.toList = none) :
    rs.runCheck ask request lhs rhs = ask rhs request := by
  obtain ⟨name, rfl, hfind⟩ := asksForRule_iff.mp hlhs
  have hresolve : request.target.resolve rhs = some rhs := by
    rw [Target.resolve, hrhs]
  unfold runCheck runResolved
  simp only [hresolve, hfind]
  rfl

/-- Under plain checkers, a check has an outcome of its own or that of the rule it asks for. -/
theorem outcome_runResolved_cases (h : rs.EveryChecker Checker.Plain) (request : Request)
    (lhs : LeftSide) (rhs resolved : String) :
    (∃ b, ∀ ask : RuleOracle, (rs.runResolved ask request lhs rhs resolved).outcome = .ok b) ∨
      (rs.asksForRule lhs ∧ ∀ ask : RuleOracle,
        (rs.runResolved ask request lhs rhs resolved).outcome = (ask resolved request).outcome) := by
  cases lhs with
  | literal value => exact Or.inl ⟨value == resolved, fun _ => rfl⟩
  | identifier name =>
    unfold runResolved asksForRule
    dsimp only
    cases hfind : rs.checkers.find? name with
    | none =>
      cases request.token.attribute? name with
      | none => exact Or.inl ⟨false, fun _ => rfl⟩
      | some value => exact Or.inl ⟨value == resolved, fun _ => rfl⟩
    | some checker =>
      cases checker with
      | role => exact Or.inl ⟨request.token.hasRole resolved, fun _ => rfl⟩
      | rule => exact Or.inr ⟨rfl, fun _ => rfl⟩
      | custom decide =>
        obtain ⟨result, hresult⟩ := h name _ hfind request resolved
        refine Or.inl ⟨result, fun ask => ?_⟩
        exact Run.bind_outcome_eq_ok_iff.mpr ⟨(), rfl, hresult rs.isDefined ask⟩

/-- Under plain checkers, only the rules that are evaluated for the same request matter. -/
theorem situation_congr (h : rs.EveryChecker Checker.Plain)
    (hask : ∀ rule, (ask rule request).outcome.toOption = (ask' rule request).outcome.toOption) :
    rs.situation ask request = rs.situation ask' request := by
  have hverdict : (rs.situation ask request).verdict = (rs.situation ask' request).verdict := by
    funext name text
    unfold situation
    dsimp only
    rcases outcome_runResolved_cases h request (.identifier name) text text with
      ⟨b, hown⟩ | ⟨-, hrule⟩
    · rw [hown, hown]
    · rw [hrule, hrule, hask]
  unfold situation at hverdict ⊢
  rw [Situation.mk.injEq]
  exact ⟨rfl, hverdict⟩

/-- Under plain checkers, a check has no fault that is not the fault of a rule. -/
theorem exists_fault_of_runCheck (h : rs.EveryChecker Checker.Plain) {lhs : LeftSide}
    {rhs : String} {f : Fault} (hf : (rs.runCheck ask request lhs rhs).outcome = .error f) :
    ∃ rule, (ask rule request).outcome = .error f := by
  unfold runCheck at hf
  split at hf
  next resolved _ =>
    rcases outcome_runResolved_cases h request lhs rhs resolved with ⟨b, hown⟩ | ⟨-, hrule⟩
    · rw [hown] at hf
      cases hf
    · rw [hrule] at hf
      exact ⟨resolved, hf⟩
  next => cases hf

theorem exists_fault_of_runExpr (h : rs.EveryChecker Checker.Plain) {e : Expr} {f : Fault}
    (hf : (rs.runExpr ask request e).outcome = .error f) :
    ∃ rule, (ask rule request).outcome = .error f := by
  induction e with
  | const => cases hf
  | check lhs rhs => exact exists_fault_of_runCheck h hf
  | and left right ihleft ihright | or left right ihleft ihright =>
    rcases Run.bind_outcome_eq_error_iff.mp hf with hf | ⟨b, _, hf⟩
    · exact ihleft hf
    · cases b with
      | false => first | exact ihright hf | cases hf
      | true => first | exact ihright hf | cases hf
  | not operand ih =>
    rcases Run.bind_outcome_eq_error_iff.mp hf with hf | ⟨b, _, hf⟩
    · exact ih hf
    · cases hf

/-- Under plain checkers, an evaluation answers or goes too deep. -/
theorem fault_eq_tooDeep (h : rs.EveryChecker Checker.Plain) {bound : Nat} {name : String}
    {f : Fault} (hf : (rs.evaluateWithin bound name request).outcome = .error f) :
    f = .tooDeep := by
  induction bound generalizing name with
  | zero =>
    cases hf
    rfl
  | succ bound ih =>
    cases hrule : rs.rule? name with
    | none =>
      rw [evaluateWithin, hrule] at hf
      cases hf
    | some e =>
      rw [outcome_evaluateWithin rs bound hrule] at hf
      obtain ⟨rule, hfault⟩ := exists_fault_of_runExpr h hf
      exact ih hfault

end RuleSet
end AccessPolicy
