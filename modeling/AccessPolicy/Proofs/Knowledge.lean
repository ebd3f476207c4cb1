import AccessPolicy.Proofs.Checkers

/-!
# Knowing more about a request

Where something is not known, a check is false. So the less is known the less is granted, unless a
rule grants where a check is false, by `not` or by a custom checker. Main statement:
`grants_within`, without those, a rule that grants a request grants every request about which more
is known.

The two evaluations may take different ways. An operand that was looked at may be skipped when more
is known, and one that was skipped never denies what an operand before it had granted
(`valueIn_grants`). A reference stands for the same text as soon as it stands for one
(`resolve_within`), so a rule that decided is asked for again.
-/

namespace AccessPolicy

/-- Whatever is known of the first request is known, and is the same, of the second one. -/
structure Request.Within (q q' : Request) : Prop where
  roles : ∀ role, q.token.hasRole role → q'.token.hasRole role
  attributes : ∀ name value,
    q.token.attribute? name = some value → q'.token.attribute? name = some value
  target : ∀ name value,
    q.target.attribute? name = some value → q'.target.attribute? name = some value

/-- There is no `not` in an expression. -/
def Expr.NegationFree : Expr → Prop
  | .const _ | .check _ _ => True
  | .and left right | .or left right => left.NegationFree ∧ right.NegationFree
  | .not _ => False

instance decidableNegationFree : (e : Expr) → Decidable e.NegationFree
  | .const _ | .check _ _ => .isTrue trivial
  | .and left right | .or left right =>
    @instDecidableAnd _ _ (decidableNegationFree left) (decidableNegationFree right)
  | .not _ => .isFalse id

/-- What was granted is not denied. -/
def StillGrants (before after : Option Bool) : Prop :=
  before = some true → after ≠ some false

/-- Without `not`, an expression still grants if its checks do. -/
theorem valueIn_grants {s s' : Situation} {e : Expr} (hfree : e.NegationFree)
    (hcheck : ∀ lhs rhs,
      StillGrants ((Expr.check lhs rhs).valueIn s) ((Expr.check lhs rhs).valueIn s')) :
    StillGrants (e.valueIn s) (e.valueIn s') := by
  induction e with
  | const value =>
    intro h hdenied
    rw [Expr.valueIn] at h hdenied
    rw [h] at hdenied
    cases hdenied
  | check lhs rhs => exact hcheck lhs rhs
  | and left right ihleft ihright =>
    intro h
    rw [Expr.valueIn, Option.bind_eq_some_iff] at h
    obtain ⟨b, hleft, hright⟩ := h
    -- the left operand is not false, or the right one would not have been looked at
    have hb : b = true := by
      cases b with
      | true => rfl
      | false => cases hright
    subst hb
    have hleft' := ihleft hfree.1 hleft
    have hright' := ihright hfree.2 hright
    rw [Expr.valueIn]
    cases hvalue : left.valueIn s' with
    | none => exact (Option.some_ne_none _).symm
    | some b' =>
      cases b' with
      | false => exact absurd hvalue hleft'
      | true => exact hright'
  | or left right ihleft ihright =>
    intro h
    rw [Expr.valueIn, Option.bind_eq_some_iff] at h
    obtain ⟨b, hleft, hright⟩ := h
    rw [Expr.valueIn]
    cases hvalue : left.valueIn s' with
    | none => exact (Option.some_ne_none _).symm
    | some b' =>
      cases b' with
      | true =>
        intro hdenied
        cases hdenied
      | false =>
        -- what the left operand denies now it did not grant, so the right one did
        cases b with
        | false => exact ihright hfree.2 hright
        | true => exact absurd hvalue (ihleft hfree.1 hleft)
  | not operand => cases hfree

variable {q q' : Request}

theorem resolve_within (h : q.Within q') {text resolved : String}
    (hresolved : q.target.resolve text = some resolved) :
    q'.target.resolve text = some resolved := by
  unfold Target.resolve at hresolved ⊢
  cases hname : referenceName? text.toList with
  | none =>
    rw [hname] at hresolved
    exact hresolved
  | some name =>
    rw [hname] at hresolved
    exact h.target _ _ hresolved

namespace RuleSet

variable {rs : RuleSet} {ask ask' : RuleOracle}

/-- A bare name still grants what it did, if the rules do. -/
theorem verdict_grants (hcheckers : rs.EveryChecker Checker.Builtin) (h : q.Within q')
    (hask : ∀ rule,
      StillGrants (ask rule q).outcome.toOption (ask' rule q').outcome.toOption)
    (name text : String) :
    StillGrants ((rs.situation ask q).verdict name text)
      ((rs.situation ask' q').verdict name text) := by
  unfold situation runResolved
  dsimp only
  cases hfind : rs.checkers.find? name with
  | some checker =>
    cases checker with
    | role =>
      intro hgranted hdenied
      have hrole : q.token.hasRole text = true := Option.some.inj hgranted
      have hrole' : q'.token.hasRole text = false := Option.some.inj hdenied
      rw [h.roles text hrole] at hrole'
      cases hrole'
    | rule => exact hask text
    | custom decide => cases hcheckers name _ hfind
  | none =>
    cases hvalue : q.token.attribute? name with
    | none =>
      intro hgranted
      cases hgranted
    | some value =>
      rw [h.attributes name value hvalue]
      intro hgranted hdenied
      exact Bool.false_ne_true (Option.some.inj (hdenied.symm.trans hgranted))

theorem check_grants (hcheckers : rs.EveryChecker Checker.Builtin) (h : q.Within q')
    (hask : ∀ rule,
      StillGrants (ask rule q).outcome.toOption (ask' rule q').outcome.toOption)
    (lhs : LeftSide) (rhs : String) :
    StillGrants ((Expr.check lhs rhs).valueIn (rs.situation ask q))
      ((Expr.check lhs rhs).valueIn (rs.situation ask' q')) := by
  have htarget : (rs.situation ask q).target = q.target := rfl
  have htarget' : (rs.situation ask' q').target = q'.target := rfl
  rw [Expr.valueIn, Expr.valueIn, htarget, htarget']
  cases hresolved : q.target.resolve rhs with
  | none =>
    intro hgranted
    cases hgranted
  | some resolved =>
    rw [resolve_within h hresolved]
    cases lhs with
    | literal value =>
      intro hgranted hdenied
      exact Bool.false_ne_true (Option.some.inj (hdenied.symm.trans hgranted))
    | identifier name => exact verdict_grants hcheckers h hask name resolved

/-- Without `not`, a rule still grants, however deep either evaluation may go. -/
theorem evaluateWithin_grants (hcheckers : rs.EveryChecker Checker.Builtin)
    (hfree : ∀ name e, rs.rule? name = some e → e.NegationFree) (h : q.Within q') :
    ∀ bound bound' rule, StillGrants (rs.evaluateWithin bound rule q).outcome.toOption
      (rs.evaluateWithin bound' rule q').outcome.toOption := by
  intro bound
  induction bound with
  | zero =>
    intro bound' rule hgranted
    cases hgranted
  | succ bound ih =>
    intro bound' rule
    cases bound' with
    | zero => exact fun _ => (Option.some_ne_none _).symm
    | succ bound' =>
      cases hrule : rs.rule? rule with
      | none =>
        intro hgranted
        rw [evaluateWithin, hrule] at hgranted
        cases hgranted
      | some e =>
        rw [outcome_evaluateWithin rs bound hrule, outcome_evaluateWithin rs bound' hrule,
          outcome_runExpr, outcome_runExpr]
        exact valueIn_grants (hfree rule e hrule) (check_grants hcheckers h (ih bound'))

/-- **Missing data.** With the built-in checkers and without `not`, whatever is granted to a request
is granted to every request about which more is known, unless its evaluation goes too deep. -/
theorem grants_within (hcheckers : rs.EveryChecker Checker.Builtin)
    (hfree : ∀ name e, rs.rule? name = some e → e.NegationFree) (h : q.Within q')
    {bound bound' : Nat} {name : String}
    (hgranted : (rs.evaluateWithin bound name q).outcome = .ok true) :
    (rs.evaluateWithin bound' name q').outcome = .ok true ∨
      (rs.evaluateWithin bound' name q').outcome = .error .tooDeep := by
  have hstill := evaluateWithin_grants hcheckers hfree h bound bound' name
  have hnotDenied := hstill (toOption_eq_some_iff.mpr hgranted)
  cases houtcome : (rs.evaluateWithin bound' name q').outcome with
  | error f =>
    have hplain := hcheckers.imp fun _ => Checker.Builtin.plain
    exact Or.inr (congrArg _ (fault_eq_tooDeep hplain houtcome))
  | ok b =>
    cases b with
    | true => exact Or.inl rfl
    | false => exact absurd (toOption_eq_some_iff.mpr houtcome) hnotDenied

/-- Who may read is up to a rule that the target names, or to the attribute of the owner. -/
def referring : RuleSet :=
  ((fresh.addChecker "level" .role).store "read"
    (.or (.check (.identifier "rule") "%(via)s") (.check (.identifier "owner") "%(owner)s"))).store
      "members" (.check (.identifier "level") "member")

/-- The rule that the target names is still asked when the owner is known to be someone else. -/
theorem grants_referring :
    (referring.evaluateWithin depthBound "read"
      ⟨⟨["member"], ∅⟩, .known (Dict.empty.insert "via" "members")⟩).outcome = .ok true ∧
    (referring.evaluateWithin depthBound "read"
      ⟨⟨["guest", "member"], Dict.empty.insert "owner" "ann"⟩,
        .known ((Dict.empty.insert "via" "members").insert "owner" "bob")⟩).outcome = .ok true := by
  have hbuiltin : referring.EveryChecker Checker.Builtin :=
    (((everyChecker_fresh trivial trivial).addChecker "level" trivial).store _ _).store _ _
  have hfree : ∀ name e, referring.rules.find? name = some e → e.NegationFree := by decide
  have hwithin : Request.Within
      ⟨⟨["member"], ∅⟩, .known (Dict.empty.insert "via" "members")⟩
      ⟨⟨["guest", "member"], Dict.empty.insert "owner" "ann"⟩,
        .known ((Dict.empty.insert "via" "members").insert "owner" "bob")⟩ := by
    constructor
    · simp [Token.hasRole]
    · nofun
    · simp only [Target.attribute?]
      decide
  have hgranted : (referring.evaluateWithin depthBound "read"
      ⟨⟨["member"], ∅⟩, .known (Dict.empty.insert "via" "members")⟩).outcome = .ok true := rfl
  exact ⟨hgranted, (grants_within hbuiltin hfree hwithin hgranted).resolve_right nofun⟩

end RuleSet
end AccessPolicy
