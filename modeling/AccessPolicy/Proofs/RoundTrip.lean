import AccessPolicy.Proofs.Rendering
import AccessPolicy.Proofs.Replacement

/-!
# Parsing what was rendered

A well-formed expression is rendered to a text that is always parsed again. Whether it comes back
is a matter of closing parentheses: a check takes the `)` of its group if some later check can spare
one (`parse_render_eq_iff`).

Where no right side can spare a parenthesis, what comes back is the left-nested form, which does the
same in every rule set. In general something else may come back, even of a rule that was parsed and
is left-nested already; whether that decides the same is then a matter of the values of both
(`replaces_iff`).
-/

namespace AccessPolicy

theorem render_leftNested (e : Expr) : e.leftNested.render = e.render := by
  rw [Expr.render, Expr.render, ← layout_symbols, ← layout_symbols,
    (regroups_leftNested e).symbols_eq.1]

/-- Where no right side can spare a parenthesis, none is lost. -/
theorem not_losesCloser {e : Expr}
    (h : ∀ c ∈ e.checks, 2 ≤ c.2.length → c.2.getLast? ≠ some ')') : ¬ LosesCloser e.symbols := by
  intro ⟨before, lhs, rhs, after, hsymbols, hslack⟩
  obtain ⟨c, hc, hlen, hlast⟩ := slack_pos_iff.mp hslack
  have hmem : c ∈ e.checks := by
    rw [← checks_symbols, hsymbols, List.filterMap_append, List.filterMap_cons, List.filterMap_cons]
    exact List.mem_append_right _ (List.mem_cons_of_mem _ hc)
  exact h c hmem hlen hlast

/-- **Rendering and parsing.** A well-formed expression where no right side of two or more
characters ends in `)` comes back left-nested: the one way to regroup its chains that leaves none in
a right operand. It is rendered to the same text again, and does the same, in any rule set and for
any request, evaluated on its own or stored as a rule. -/
theorem parse_render {e : Expr} (hwf : e.WellFormed)
    (hclosers : ∀ c ∈ e.checks, 2 ≤ c.2.length → c.2.getLast? ≠ some ')') :
    Expr.parse e.render = .ok e.leftNested ∧
      (Regroups e e.leftNested ∧ e.leftNested.LeftNested ∧
        ∀ e', Regroups e e' → e'.LeftNested → e' = e.leftNested) ∧
      e.leftNested.render = e.render ∧
      (∀ (rs : RuleSet) (ask : RuleOracle) (request : Request),
        rs.runExpr ask request e.leftNested = rs.runExpr ask request e) ∧
      ∀ (rs : RuleSet) (name : String) (bound : Nat) (rule : String) (request : Request),
        (rs.store name e.leftNested).evaluateWithin bound rule request =
          (rs.store name e).evaluateWithin bound rule request := by
  obtain ⟨e', hparse, hiff⟩ := parse_render_eq_iff hwf
  rw [hiff.mpr (not_losesCloser hclosers)] at hparse
  refine ⟨hparse, ⟨regroups_leftNested e, e.leftNested_leftNested, ?_⟩, render_leftNested e, ?_, ?_⟩
  · intro e' hregroups hnested
    rw [hregroups.leftNested_eq, Expr.leftNested_eq_self hnested]
  · intro rs ask request
    exact (RuleSet.runExpr_regroups (regroups_leftNested e) rs ask request).symm
  · intro rs name bound rule request
    rw [RuleSet.evaluateWithin_regroups (regroups_leftNested e)]

/-- A chain that is nested to the right comes back nested to the left, behind a group with a check
whose right side is a parenthesis. -/
theorem parse_render_chain :
    Expr.parse "not (a:) or 'v':w) and (@ and b:x)" =
      .ok (.and (.not (.or (.check (.identifier "a") ")") (.check (.literal "v") "w")))
        (.and (.const true) (.check (.identifier "b") "x"))) ∧
    Expr.parse "not (a:) or 'v':w) and @ and b:x" =
      .ok (.and (.and (.not (.or (.check (.identifier "a") ")") (.check (.literal "v") "w")))
        (.const true)) (.check (.identifier "b") "x")) := by
  have hparse : Expr.parse "not (a:) or 'v':w) and (@ and b:x)" =
      .ok (.and (.not (.or (.check (.identifier "a") ")") (.check (.literal "v") "w")))
        (.and (.const true) (.check (.identifier "b") "x"))) := by
    decide
  exact ⟨hparse, (parse_render (wellFormed_of_parse hparse) (by decide)).1⟩

/-- **What comes back of a rule.** Whatever was parsed is rendered to a text that is parsed again.
The rule that comes back decides what the first one did exactly if it has the same value wherever
that has one. It is the left-nested form, which does the same as the first one, exactly if no
parenthesis is lost to a check. -/
theorem render_keeps_meaning_iff {text : String} {e : Expr} (h : Expr.parse text = .ok e) :
    ∃ e', Expr.parse e.render = .ok e' ∧
      (Replaces e' e ↔ ∀ s b, e.valueIn s = some b → e'.valueIn s = some b) ∧
      (e' = e.leftNested ↔ ¬ LosesCloser e.symbols) ∧
      (¬ LosesCloser e.symbols → Replaces e' e ∧
        ∀ (rs : RuleSet) (name : String) (bound : Nat) (rule : String) (request : Request),
          (rs.store name e').evaluateWithin bound rule request =
            (rs.store name e).evaluateWithin bound rule request) := by
  obtain ⟨e', hparse, hiff⟩ := parse_render_eq_iff (wellFormed_of_parse h)
  refine ⟨e', hparse, replaces_iff, hiff, ?_⟩
  intro hloses
  have hruns := RuleSet.evaluateWithin_regroups (regroups_leftNested e)
  rw [← hiff.mpr hloses] at hruns
  refine ⟨?_, ?_⟩
  · intro rs name request b hb
    rwa [RuleSet.evaluate, ← hruns]
  · intro rs name bound rule request
    rw [hruns]

/-- In a text that was written with more blanks, no parenthesis is lost when they are left out. -/
theorem render_keeps_meaning_spaced :
    ∃ e e', Expr.parse "( a:x or b:y ) and c:z" = .ok e ∧
      Expr.parse "(a:x or b:y) and c:z" = .ok e' ∧ Replaces e' e := by
  have hparse : Expr.parse "( a:x or b:y ) and c:z" = .ok
      (.and (.or (.check (.identifier "a") "x") (.check (.identifier "b") "y"))
        (.check (.identifier "c") "z")) := by
    decide
  obtain ⟨e', hparse', -, -, hkeeps⟩ := render_keeps_meaning_iff hparse
  exact ⟨_, e', hparse, hparse', (hkeeps (by decide)).1⟩

/-- The parenthesis behind `b:y` closes the group in the first text and belongs to the check in the
second, which is what the first one is rendered to: the rule that comes back grants what the first
one denied. -/
theorem render_changes_meaning :
    ∃ e e', Expr.parse "( a:x or b:y ) and c:z)" = .ok e ∧ e.render = "(a:x or b:y) and c:z)" ∧
      Expr.parse e.render = .ok e' ∧ ¬ Replaces e' e := by
  refine ⟨.and (.or (.check (.identifier "a") "x") (.check (.identifier "b") "y"))
      (.check (.identifier "c") "z)"),
    .or (.check (.identifier "a") "x")
      (.and (.check (.identifier "b") "y)") (.check (.identifier "c") "z")),
    by decide, by decide, by decide, ?_⟩
  intro hreplaces
  have hdenies := hreplaces .fresh "p" ⟨⟨[], Dict.ofList [("a", "x")]⟩, .unknown⟩ false (by decide)
  revert hdenies
  decide

end AccessPolicy
