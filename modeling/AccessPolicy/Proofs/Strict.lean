import AccessPolicy.Proofs.Congruence

/-!
# Looking at every operand

`and` and `or` skip their right operand where the left one decides. With custom checkers this can
be seen from the outside: a checker that stands in a skipped operand is not asked. Main statement:
`evaluate_of_strict`, it cannot be seen in the results. `evaluateStrictlyWithin` evaluates rules
with both operands of every `and` and `or` looked at, in every rule on the way, and wherever it
comes to a result evaluation comes to the same one, with some of the same calls in the same order.

One relation carries the proof: a run `Abridges` another if it gives the other's answer, where there
is one, and leaves out nothing but calls. Runs can be abridged part by part (`congruence_abridges`),
so a skipped operand is the only place where something happens (`abridges_skip`).
-/

namespace AccessPolicy

namespace Run

variable {α β : Type}

/-- The first run gives the answer of the second one, if that has any, and makes some of its calls
in the same order. -/
def Abridges (r r' : Run α) : Prop :=
  ∀ a, r'.outcome = .ok a → r.outcome = .ok a ∧ List.Sublist r.calls r'.calls

theorem congruence_abridges : Congruence Abridges where
  refl _ _ h := ⟨h, List.Sublist.refl _⟩
  bind h hnext b hb := by
    obtain ⟨a, ha', hb'⟩ := bind_outcome_eq_ok_iff.mp hb
    obtain ⟨ha, hfirst⟩ := h a ha'
    obtain ⟨hthen, hrest⟩ := hnext a b hb'
    refine ⟨bind_outcome_eq_ok_iff.mpr ⟨a, ha, hthen⟩, ?_⟩
    rw [calls_bind_of_ok ha, calls_bind_of_ok ha']
    exact hfirst.append hrest

/-- Whatever does not matter to the answer may be left out. -/
theorem abridges_skip {b : β} {f : α → β} (hf : ∀ a, f a = b) (r : Run α) :
    (pure b : Run β).Abridges (r >>= fun a => pure (f a)) := by
  intro b' hb'
  obtain ⟨a, -, ha⟩ := bind_outcome_eq_ok_iff.mp hb'
  rw [hf] at ha
  exact ⟨ha, List.nil_sublist _⟩

end Run

/-- Whatever rule is asked for, the first oracle abridges the run of the second one. -/
def RuleOracle.Abridges (ask ask' : RuleOracle) : Prop :=
  ∀ rule request, (ask rule request).Abridges (ask' rule request)

variable {ask ask' : RuleOracle}

namespace RuleSet

theorem runCheck_abridges (h : ask.Abridges ask') (rs : RuleSet) (request : Request)
    (lhs : LeftSide) (rhs : String) :
    (rs.runCheck ask request lhs rhs).Abridges (rs.runCheck ask' request lhs rhs) :=
  Run.congruence_abridges.runCheck rfl rfl (fun _ _ _ => rfl) fun name checker resolved _ _ _ =>
    Run.congruence_abridges.run h checker rs.isDefined name request resolved

/-! ## Strict evaluation -/

/-- The outcome of an expression of which every operand is looked at, the left one first. -/
def runExprStrictly (rs : RuleSet) (ask : RuleOracle) (request : Request) : Expr → Run Bool
  | .const value => pure value
  | .check lhs rhs => rs.runCheck ask request lhs rhs
  | .and left right => do
    let a ← rs.runExprStrictly ask request left
    let b ← rs.runExprStrictly ask request right
    pure (a && b)
  | .or left right => do
    let a ← rs.runExprStrictly ask request left
    let b ← rs.runExprStrictly ask request right
    pure (a || b)
  | .not operand => do
    let result ← rs.runExprStrictly ask request operand
    pure !result

/-- The result of a rule where every operand is looked at, also those of the rules it refers to. -/
def evaluateStrictlyWithin (rs : RuleSet) : (bound : Nat) → RuleOracle
  | 0, _, _ => Run.fault .tooDeep
  | bound + 1, name, request =>
    match rs.rule? name with
    | none => do
      Run.log (.undefined name)
      pure false
    | some expr => do
      let result ← rs.runExprStrictly (rs.evaluateStrictlyWithin bound) request expr
      Run.log (.evaluated name result)
      pure result

/-- An operand that decides by itself leaves the other one without a say. -/
theorem runExpr_abridges (h : ask.Abridges ask') (rs : RuleSet) (request : Request) (e : Expr) :
    (rs.runExpr ask request e).Abridges (rs.runExprStrictly ask' request e) := by
  induction e with
  | const => exact Run.congruence_abridges.refl _
  | check lhs rhs => exact runCheck_abridges h rs request lhs rhs
  | and left right ihleft ihright =>
    -- once the left operand has decided, only the strict run goes on
    refine Run.congruence_abridges.bind ihleft fun a => ?_
    cases a with
    | false => exact Run.abridges_skip Bool.false_and _
    | true =>
      simp only [Bool.true_and, bind_pure]
      exact ihright
  | or left right ihleft ihright =>
    refine Run.congruence_abridges.bind ihleft fun a => ?_
    cases a with
    | false =>
      simp only [Bool.false_or, bind_pure]
      exact ihright
    | true => exact Run.abridges_skip Bool.true_or _
  | not operand ih =>
    exact Run.congruence_abridges.bind ih fun _ => Run.congruence_abridges.refl _

/-- Every evaluation abridges the strict one, also one that may go deeper. -/
theorem evaluateWithin_abridges (rs : RuleSet) {bound bound' : Nat} (h : bound ≤ bound') :
    (rs.evaluateWithin bound').Abridges (rs.evaluateStrictlyWithin bound) := by
  induction bound generalizing bound' with
  | zero =>
    -- strict evaluation has no answer here
    intro name request result hresult
    cases hresult
  | succ bound ih =>
    intro name request
    cases bound' with
    | zero => exact absurd h (Nat.not_succ_le_zero bound)
    | succ bound' =>
      have hask := ih (Nat.le_of_succ_le_succ h)
      unfold evaluateWithin evaluateStrictlyWithin
      cases rs.rule? name with
      | none => exact Run.congruence_abridges.refl _
      | some e =>
        exact Run.congruence_abridges.bind (runExpr_abridges hask rs request e) fun _ =>
          Run.congruence_abridges.refl _

/-- **Skipped operands.** Where strict evaluation comes to a result, evaluation comes to the same
one within every bound that is no smaller. The custom checkers it asks are asked by strict
evaluation too, in the same order and about the same texts. -/
theorem evaluate_of_strict {rs : RuleSet} {bound bound' : Nat} (hle : bound ≤ bound')
    {name : String} {request : Request} {result : Bool}
    (h : (rs.evaluateStrictlyWithin bound name request).outcome = .ok result) :
    (rs.evaluateWithin bound' name request).outcome = .ok result ∧
      List.Sublist (rs.evaluateWithin bound' name request).calls
        (rs.evaluateStrictlyWithin bound name request).calls :=
  evaluateWithin_abridges rs hle name request result h

/-- A rule that asks a checker behind a role, and one that asks for the opposite of it before it
asks the same checker again. -/
def guarded : RuleSet :=
  (((fresh.addChecker "level" (.equals "high")).addChecker "unless" .deniedByRule).store "edit"
    (.or (.check (.identifier "role") "admin") (.check (.identifier "level") "high"))).store "view"
    (.and (.not (.check (.identifier "unless") "edit")) (.check (.identifier "level") "high"))

/-- Evaluated for an administrator, the first of the two questions about the level is skipped. -/
theorem evaluate_of_strict_guarded :
    (guarded.evaluateStrictlyWithin 3 "view" ⟨⟨["admin"], ∅⟩, .unknown⟩).outcome = .ok true ∧
    (guarded.evaluateStrictlyWithin 3 "view" ⟨⟨["admin"], ∅⟩, .unknown⟩).calls =
      [("unless", "edit"), ("level", "high"), ("level", "high")] ∧
    (guarded.evaluate "view" ⟨⟨["admin"], ∅⟩, .unknown⟩).calls =
      [("unless", "edit"), ("level", "high")] ∧
    (guarded.evaluate "view" ⟨⟨["admin"], ∅⟩, .unknown⟩).outcome = .ok true := by
  have hstrict : (guarded.evaluateStrictlyWithin 3 "view" ⟨⟨["admin"], ∅⟩, .unknown⟩).outcome =
      .ok true := rfl
  have hbound : 3 ≤ depthBound := by decide
  exact ⟨hstrict, by decide, by decide, (evaluate_of_strict hbound hstrict).1⟩

end RuleSet
end AccessPolicy
