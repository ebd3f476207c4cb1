import AccessPolicy.Proofs.Checkers
import AccessPolicy.Proofs.Congruence
import Mathlib.Data.Set.Basic

/-!
# What a decision depends on

A rule set decides by what its rules refer to and by nothing else. Main statements:
`evaluateWithin_of_sameReferences`, with the built-in checkers two requests have the same run if
they do not differ in anything that a rule refers to, and `evaluateWithin_of_closed`, a request has
the same run in two rule sets if these do not differ in the rules that its evaluation can come to.

Which rules an evaluation comes to is up to the request, because it may name them in its target. So
both are proved for a set of rules that is never left, all of them in one case and a closed set in
the other one (`Run.Congruence.evaluateWithin`): a check of one of these rules is the same on both
sides as soon as the rules that it may ask for are (`runCheck_of_sameReferences`,
`runCheck_of_closed`).
-/

namespace AccessPolicy

/-- The checker does not look at the rule set, neither at what rules come to nor at which there
are. -/
def Checker.IgnoresRules (checker : Checker) : Prop :=
  ∀ (defined defined' : String → Bool) (ask ask' : RuleOracle) (name : String) (request : Request)
    (text : String),
    checker.run defined ask name request text = checker.run defined' ask' name request text

/-- A text is a reference exactly when it is a name between `%(` and `)s`. -/
theorem referenceName?_toList_iff {text name : String} :
    referenceName? text.toList = some name.toList ↔ text = "%(" ++ name ++ ")s" := by
  rw [referenceName?_eq_some_iff, ← String.toList_inj]
  simp

namespace RuleSet

/-- A rule of the set makes this check. -/
def Makes (rs : RuleSet) (lhs : LeftSide) (rhs : String) : Prop :=
  ∃ name e, rs.rule? name = some e ∧ .check lhs rhs ∈ e.leaves

variable {rs rs' : RuleSet} {ask ask' : RuleOracle} {q q' : Request} {lhs : LeftSide} {rhs : String}

/-! ## Data of a request -/

/-- The requests do not differ in anything that a rule of the set refers to. -/
structure SameReferences (rs : RuleSet) (q q' : Request) : Prop where
  roles : ∀ role, q.token.hasRole role = q'.token.hasRole role
  attributes : ∀ name rhs, rs.Makes (.identifier name) rhs → rs.checkers.find? name = none →
    q.token.attribute? name = q'.token.attribute? name
  target : ∀ lhs name, rs.Makes lhs ("%(" ++ name ++ ")s") →
    q.target.attribute? name = q'.target.attribute? name

theorem SameReferences.resolve_eq (h : rs.SameReferences q q') (hmakes : rs.Makes lhs rhs) :
    q.target.resolve rhs = q'.target.resolve rhs := by
  unfold Target.resolve
  cases hname : referenceName? rhs.toList with
  | none => rfl
  | some name =>
    rw [← @String.toList_ofList name, referenceName?_toList_iff] at hname
    rw [hname] at hmakes
    exact h.target lhs _ hmakes

/-- A check of one of the rules is the same for both requests if the rules are. -/
theorem runCheck_of_sameReferences (hcheckers : rs.EveryChecker Checker.Builtin)
    (h : rs.SameReferences q q') (hmakes : rs.Makes lhs rhs)
    (hask : ∀ rule, ask rule q = ask' rule q') :
    rs.runCheck ask q lhs rhs = rs.runCheck ask' q' lhs rhs := by
  refine Run.congruence_eq.runCheck rfl (h.resolve_eq hmakes) ?_ ?_
  · rintro name rfl hfind
    exact h.attributes name rhs hmakes hfind
  · intro name checker resolved _ hfind _
    cases checker with
    | role =>
      show (pure (q.token.hasRole resolved) : Run Bool) = pure (q'.token.hasRole resolved)
      rw [h.roles]
    | rule => exact hask resolved
    | custom decide => cases hcheckers name _ hfind

theorem SameReferences.evaluateWithin_eq (h : rs.SameReferences q q')
    (hcheckers : rs.EveryChecker Checker.Builtin) (bound : Nat) (name : String) :
    rs.evaluateWithin bound name q = rs.evaluateWithin bound name q' := by
  refine Run.congruence_eq.evaluateWithin (fun _ _ => rfl) ?_ bound name (Set.mem_univ name)
  intro ask ask' hask m _ e hrule lhs rhs hmem
  exact runCheck_of_sameReferences hcheckers h ⟨m, e, hrule, hmem⟩ fun rule =>
    hask rule (Set.mem_univ rule)

/-- **Unreferenced data.** With the built-in checkers, requests have the same run if they agree on
roles, on the attributes of the token that rules name and that no checker is registered for, and on
the attributes of the target that rules refer to. In particular an attribute of the token that has
the name of a checker never matters. -/
theorem evaluateWithin_of_sameReferences (hcheckers : rs.EveryChecker Checker.Builtin) :
    (∀ q q', rs.SameReferences q q' →
      ∀ bound name, rs.evaluateWithin bound name q = rs.evaluateWithin bound name q') ∧
    ∀ (q : Request) (attributes : Dict String),
      (∀ name, rs.checkers.find? name = none →
        q.token.attribute? name = attributes.find? name) →
      ∀ bound name, rs.evaluateWithin bound name q =
        rs.evaluateWithin bound name ⟨⟨q.token.roles, attributes⟩, q.target⟩ := by
  refine ⟨fun q q' h => h.evaluateWithin_eq hcheckers, fun q attributes hattributes => ?_⟩
  have hsame : rs.SameReferences q ⟨⟨q.token.roles, attributes⟩, q.target⟩ :=
    ⟨fun _ => rfl, fun name _ _ hfind => hattributes name hfind, fun _ _ _ => rfl⟩
  exact hsame.evaluateWithin_eq hcheckers

/-- Who may read is up to the rule that the target names, unless the caller is banned. -/
def routed : RuleSet :=
  (fresh.store "read" (.and (.check (.identifier "rule") "%(via)s")
    (.not (.check (.identifier "status") "banned")))).store "members"
    (.check (.identifier "role") "member")

theorem makes_routed (h : routed.Makes lhs rhs) :
    (lhs, rhs) ∈ [(.identifier "rule", "%(via)s"), (.identifier "status", "banned"),
      (.identifier "role", "member")] := by
  obtain ⟨name, e, hrule, hmem⟩ := h
  have hentry : (name, e) ∈ routed.rules.entries := Dict.find?_eq_some_iff.mp hrule
  rcases List.mem_cons.mp hentry with heq | hentry
  · cases heq
    rcases List.mem_cons.mp hmem with heq | hmem
    · cases heq
      decide
    · cases List.mem_singleton.mp hmem
      decide
  · cases List.mem_singleton.mp hentry
    cases List.mem_singleton.mp hmem
    decide

/-- A member who asks for something that the members look after. -/
def caller : Request :=
  ⟨⟨["member"], Dict.empty.insert "status" "new"⟩, .known (Dict.empty.insert "via" "members")⟩

/-- More is known of the second request: attributes that are named like checkers, and the owner,
whom no rule refers to. -/
theorem evaluateWithin_of_sameReferences_routed :
    routed.evaluate "read" caller =
      routed.evaluate "read"
        ⟨⟨["member"], ((Dict.empty.insert "rule" "x").insert "status" "new").insert "role" "guest"⟩,
          .known ((Dict.empty.insert "owner" "ann").insert "via" "members")⟩ ∧
    (routed.evaluate "read" caller).outcome = .ok true := by
  have hbuiltin : routed.EveryChecker Checker.Builtin :=
    ((everyChecker_fresh trivial trivial).store _ _).store _ _
  have hsame : routed.SameReferences caller
      ⟨⟨["member"], ((Dict.empty.insert "rule" "x").insert "status" "new").insert "role" "guest"⟩,
        .known ((Dict.empty.insert "owner" "ann").insert "via" "members")⟩ := by
    refine ⟨fun _ => rfl, ?_, ?_⟩
    · intro name rhs hmakes hfind
      have hmem := makes_routed hmakes
      simp only [List.mem_cons, Prod.mk.injEq, LeftSide.identifier.injEq, List.not_mem_nil,
        or_false] at hmem
      rcases hmem with ⟨rfl, -⟩ | ⟨rfl, -⟩ | ⟨rfl, -⟩
      · cases hfind
      · rfl
      · cases hfind
    · intro lhs name hmakes
      have hmem := makes_routed hmakes
      have hname := referenceName?_toList_iff.mpr (rfl : "%(" ++ name ++ ")s" = _)
      simp only [List.mem_cons, Prod.mk.injEq, List.not_mem_nil, or_false] at hmem
      rcases hmem with ⟨-, heq⟩ | ⟨-, heq⟩ | ⟨-, heq⟩
      · rw [heq] at hname
        have hvia : name = "via" := String.toList_injective (Option.some.inj hname).symm
        rw [hvia]
        rfl
      · rw [heq] at hname
        cases hname
      · rw [heq] at hname
        cases hname
  exact ⟨(evaluateWithin_of_sameReferences hbuiltin).1 _ _ hsame depthBound "read", rfl⟩

/-! ## Rules of a rule set -/

/-- For this request, no rule of these asks for a rule that is not one of them. -/
def ClosedFor (rs : RuleSet) (q : Request) (S : Set String) : Prop :=
  ∀ name ∈ S, ∀ e, rs.rule? name = some e → ∀ lhs rhs, .check lhs rhs ∈ e.leaves →
    rs.asksForRule lhs → ∀ resolved, q.target.resolve rhs = some resolved → resolved ∈ S

/-- A check that asks for no rule but those of the set is the same in both rule sets if these
rules are. -/
theorem runCheck_of_closed {S : Set String} (hcheckers : rs.checkers.find? = rs'.checkers.find?)
    (hignores : rs.EveryChecker fun checker => checker = .rule ∨ checker.IgnoresRules)
    (hasks : rs.asksForRule lhs → ∀ resolved, q.target.resolve rhs = some resolved → resolved ∈ S)
    (hask : ∀ rule ∈ S, ask rule q = ask' rule q) :
    rs.runCheck ask q lhs rhs = rs'.runCheck ask' q lhs rhs := by
  refine Run.congruence_eq.runCheck hcheckers rfl (fun _ _ _ => rfl) ?_
  rintro name checker resolved rfl hfind hresolved
  rcases hignores name checker hfind with rfl | hown
  · exact hask resolved (hasks (asksForRule_iff.mpr ⟨name, rfl, hfind⟩) resolved hresolved)
  · exact hown _ _ _ _ _ _ _

/-- **Unrelated rules.** Where rule sets agree on their checkers, none of which looks at the rules
except `rule`, and on a set of rules that is closed for a request, the request has the same run in
both for every rule of the set. -/
theorem evaluateWithin_of_closed {S : Set String}
    (hcheckers : ∀ name, rs.checkers.find? name = rs'.checkers.find? name)
    (hignores : rs.EveryChecker fun checker => checker = .rule ∨ checker.IgnoresRules)
    (hrules : ∀ name ∈ S, rs.rule? name = rs'.rule? name) (hclosed : rs.ClosedFor q S)
    (bound : Nat) :
    ∀ name ∈ S, rs.evaluateWithin bound name q = rs'.evaluateWithin bound name q := by
  refine Run.congruence_eq.evaluateWithin hrules ?_ bound
  intro ask ask' hask name hname e hrule lhs rhs hmem
  have hasks := hclosed name hname e hrule lhs rhs hmem
  exact runCheck_of_closed (funext hcheckers) hignores hasks hask

/-- A checker of one's own says who is banned. -/
def watched : RuleSet := routed.addChecker "status" (.equals "banned")

/-- A rule that goes in a circle is added, under a name that no rule asks for. -/
theorem evaluateWithin_of_closed_watched :
    watched.evaluate "read" caller =
      (watched.store "audit" (.check (.identifier "rule") "audit")).evaluate "read" caller ∧
    (watched.evaluate "read" caller).calls = [("status", "banned")] := by
  have hfresh : fresh.EveryChecker fun checker => checker = .rule ∨ checker.IgnoresRules :=
    everyChecker_fresh (.inl rfl) (.inr fun _ _ _ _ _ _ _ => rfl)
  have hignores : watched.EveryChecker fun checker => checker = .rule ∨ checker.IgnoresRules :=
    ((hfresh.store _ _).store _ _).addChecker "status" (.inr fun _ _ _ _ _ _ _ => rfl)
  have hcheckers : ∀ name, watched.checkers.find? name =
      (watched.store "audit" (.check (.identifier "rule") "audit")).checkers.find? name :=
    fun _ => rfl
  have hrules : ∀ name ∈ ({name | name ≠ "audit"} : Set String), watched.rule? name =
      (watched.store "audit" (.check (.identifier "rule") "audit")).rule? name := by
    intro name hname
    rw [rule?_store, if_neg hname]
  have hclosed : watched.ClosedFor caller {name | name ≠ "audit"} := by
    intro name _ e hrule lhs rhs hmem hasks resolved hresolved
    have hmakes := makes_routed ⟨name, e, hrule, hmem⟩
    simp only [List.mem_cons, Prod.mk.injEq, List.not_mem_nil, or_false] at hmakes
    rcases hmakes with ⟨rfl, rfl⟩ | ⟨rfl, rfl⟩ | ⟨rfl, rfl⟩
    · cases hresolved
      show "members" ≠ "audit"
      decide
    · cases hasks
    · cases hasks
  have hread : "read" ∈ ({name | name ≠ "audit"} : Set String) := by
    show "read" ≠ "audit"
    decide
  exact ⟨evaluateWithin_of_closed hcheckers hignores hrules hclosed depthBound "read" hread,
    by decide⟩

end RuleSet
end AccessPolicy
