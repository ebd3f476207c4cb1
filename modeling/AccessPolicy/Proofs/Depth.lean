import AccessPolicy.Proofs.Checkers
import Mathlib.Data.Finset.Card
import Mathlib.Order.Monotone.Basic

/-!
# The bound on nesting

An evaluation ends in a fault when more rules are under way than its bound allows. Main statement:
`outcome_eq_of_size_lt`, above the number of rules the bound makes no difference. An evaluation that
goes too deep there does so within every bound, and one that comes to a result keeps it.

A larger bound decides whatever a smaller one does (`keeps_of_le`), so the rules with a result
(`settledNames`) only grow with the bound, and there are no more of them than rules. The results
within one bound determine those within the next one (`resultWithin_succ_congr`). So once the bound
grows by one and settles no further rule, nothing changes any more. Until then each step settles at
least one, which leaves as many steps as there are rules.
-/

namespace AccessPolicy
namespace RuleSet

/-! ## Larger bounds -/

theorem keeps_succ (rs : RuleSet) (bound : Nat) :
    (rs.evaluateWithin bound).Keeps (rs.evaluateWithin (bound + 1)) := by
  induction bound with
  | zero =>
    intro rule request b h
    cases h
  | succ bound ih =>
    intro rule request b h
    cases hrule : rs.rule? rule with
    | none =>
      rw [evaluateWithin, hrule] at h ⊢
      exact h
    | some e =>
      rw [outcome_evaluateWithin _ _ hrule] at h ⊢
      exact runExpr_keeps ih rfl rfl (fun _ _ h => h) h

/-- Within a larger bound, every rule decides whatever it did. -/
theorem keeps_of_le (rs : RuleSet) {bound bound' : Nat} (h : bound ≤ bound') :
    (rs.evaluateWithin bound).Keeps (rs.evaluateWithin bound') := by
  induction h with
  | refl => exact fun _ _ _ h => h
  | step _ ih => exact fun rule request b h => keeps_succ rs _ _ _ _ (ih _ _ _ h)

variable {rs : RuleSet} {request : Request} {bound bound' : Nat}

/-- What a rule comes to within a bound, if it comes to anything. -/
def resultWithin (rs : RuleSet) (request : Request) (bound : Nat) (name : String) : Option Bool :=
  (rs.evaluateWithin bound name request).outcome.toOption

theorem resultWithin_mono (h : bound ≤ bound') {name : String} {b : Bool}
    (hb : rs.resultWithin request bound name = some b) :
    rs.resultWithin request bound' name = some b := by
  unfold resultWithin at hb ⊢
  rw [toOption_eq_some_iff] at hb ⊢
  exact keeps_of_le rs h _ _ _ hb

theorem outcome_undefined {name : String} (h : rs.rule? name = none) (bound : Nat)
    (request : Request) : (rs.evaluateWithin (bound + 1) name request).outcome = .ok false := by
  rw [evaluateWithin, h]
  rfl

theorem resultWithin_undefined {name : String} (h : rs.rule? name = none) (bound : Nat) :
    rs.resultWithin request (bound + 1) name = some false := by
  rw [resultWithin, outcome_undefined h]
  rfl

theorem resultWithin_defined {name : String} {e : Expr} (h : rs.rule? name = some e) (bound : Nat) :
    rs.resultWithin request (bound + 1) name =
      e.valueIn (rs.situation (rs.evaluateWithin bound) request) := by
  unfold resultWithin
  rw [outcome_evaluateWithin _ _ h, outcome_runExpr]

/-- The results within one bound determine those within the next. -/
theorem resultWithin_succ_congr (h : rs.EveryChecker Checker.Plain)
    (heq : ∀ name, rs.resultWithin request bound name = rs.resultWithin request bound' name)
    (name : String) :
    rs.resultWithin request (bound + 1) name = rs.resultWithin request (bound' + 1) name := by
  cases hrule : rs.rule? name with
  | none => rw [resultWithin_undefined hrule, resultWithin_undefined hrule]
  | some e => rw [resultWithin_defined hrule, resultWithin_defined hrule, situation_congr h heq]

/-- Once a larger bound brings nothing new, no bound does. -/
theorem resultWithin_stays (h : rs.EveryChecker Checker.Plain)
    (heq : ∀ name, rs.resultWithin request bound name = rs.resultWithin request (bound + 1) name)
    (hle : bound ≤ bound') (name : String) :
    rs.resultWithin request bound' name = rs.resultWithin request bound name := by
  induction hle generalizing name with
  | refl => rfl
  | step _ ih => rw [resultWithin_succ_congr h ih, ← heq]

/-! ## Settled rules -/

/-- The names of the rules that have a result within a bound. -/
def settledNames (rs : RuleSet) (request : Request) (bound : Nat) : Finset String :=
  rs.rules.keys.toFinset.filter fun name => (rs.resultWithin request bound name).isSome

theorem mem_settledNames {name : String} :
    name ∈ rs.settledNames request bound ↔
      (rs.rule? name).isSome ∧ (rs.resultWithin request bound name).isSome := by
  rw [settledNames, Finset.mem_filter, List.mem_toFinset, ← Dict.find?_isSome_iff]
  rfl

theorem settledNames_subset (h : bound ≤ bound') :
    rs.settledNames request bound ⊆ rs.settledNames request bound' := by
  intro name hname
  rw [mem_settledNames] at hname ⊢
  obtain ⟨b, hb⟩ := Option.isSome_iff_exists.mp hname.2
  exact ⟨hname.1, Option.isSome_iff_exists.mpr ⟨b, resultWithin_mono h hb⟩⟩

theorem card_settledNames_le (rs : RuleSet) (request : Request) (bound : Nat) :
    (rs.settledNames request bound).card ≤ rs.size := by
  have hkeys : rs.rules.keys.length = rs.size := List.length_map ..
  have hfilter : (rs.settledNames request bound).card ≤ rs.rules.keys.toFinset.card :=
    Finset.card_filter_le _ _
  have hdistinct := List.toFinset_card_le rs.rules.keys
  omega

/-- If no rule is settled by a larger bound, all results are as they were. Undefined names have
theirs as soon as one rule may be under way. -/
theorem resultWithin_eq_of_card_eq
    (h : (rs.settledNames request (bound + 1)).card = (rs.settledNames request (bound + 2)).card)
    (name : String) :
    rs.resultWithin request (bound + 1) name = rs.resultWithin request (bound + 2) name := by
  have hset : rs.settledNames request (bound + 1) = rs.settledNames request (bound + 2) :=
    Finset.eq_of_subset_of_card_le (settledNames_subset (Nat.le_succ _)) (Nat.le_of_eq h.symm)
  cases hrule : rs.rule? name with
  | none => rw [resultWithin_undefined hrule, resultWithin_undefined hrule]
  | some e =>
    cases hresult : rs.resultWithin request (bound + 1) name with
    | some b => exact (resultWithin_mono (Nat.le_succ _) hresult).symm
    | none =>
      have hunsettled : name ∉ rs.settledNames request (bound + 2) := by
        rw [← hset, mem_settledNames, hresult]
        exact fun hmem => Bool.false_ne_true hmem.2
      rw [mem_settledNames, hrule] at hunsettled
      cases hnext : rs.resultWithin request (bound + 2) name with
      | none => rfl
      | some b => exact absurd ⟨rfl, by rw [hnext]; rfl⟩ hunsettled

/-- Above the number of rules, the bound makes no difference to the results. -/
theorem resultWithin_eq_of_size_lt (h : rs.EveryChecker Checker.Plain) (hsize : rs.size < bound)
    (hle : bound ≤ bound') (name : String) :
    rs.resultWithin request bound' name = rs.resultWithin request bound name := by
  -- the number of settled rules, from the bound on where all undefined names have their result
  let settled (n : Nat) : Nat := (rs.settledNames request (n + 1)).card
  have hmono : Monotone settled := by
    intro n n' hn
    exact Finset.card_le_card (settledNames_subset (Nat.succ_le_succ hn))
  have hstays : ∀ n, settled n = settled (n + 1) → settled (n + 1) = settled (n + 2) := by
    intro n hn
    have hresults := resultWithin_succ_congr h (resultWithin_eq_of_card_eq hn)
    have hset : rs.settledNames request (n + 2) = rs.settledNames request (n + 3) := by
      ext m
      rw [mem_settledNames, mem_settledNames, hresults]
    exact congrArg Finset.card hset
  have hfinal : settled rs.size = settled (rs.size + 1) :=
    (Nat.stabilises_of_monotone hmono (fun n => card_settledNames_le rs request (n + 1)) hstays
      (Nat.le_succ _)).symm
  have hafter := resultWithin_eq_of_card_eq hfinal
  rw [resultWithin_stays h hafter (Nat.le_trans hsize hle), resultWithin_stays h hafter hsize]

/-- **Nesting.** With the built-in checkers, an evaluation that goes too deep within a bound above
the number of rules goes too deep within every larger bound, and one that has a result there has the
same result. -/
theorem outcome_eq_of_size_lt (h : rs.EveryChecker Checker.Builtin) (hsize : rs.size < bound)
    (hle : bound ≤ bound') (name : String) (request : Request) :
    (rs.evaluateWithin bound' name request).outcome =
      (rs.evaluateWithin bound name request).outcome := by
  have hplain := h.imp fun _ => Checker.Builtin.plain
  have hresult : (rs.evaluateWithin bound' name request).outcome.toOption =
      (rs.evaluateWithin bound name request).outcome.toOption :=
    resultWithin_eq_of_size_lt hplain hsize hle name
  cases hbig : (rs.evaluateWithin bound' name request).outcome with
  | ok b =>
    rw [hbig] at hresult
    exact (toOption_eq_some_iff.mp hresult.symm).symm
  | error f =>
    cases hsmall : (rs.evaluateWithin bound name request).outcome with
    | ok b =>
      rw [hbig, hsmall] at hresult
      cases hresult
    | error g => rw [fault_eq_tooDeep hplain hbig, fault_eq_tooDeep hplain hsmall]

/-- Two rules that refer to each other, where one of them asks for a role first. -/
def circle : RuleSet :=
  (fresh.store "p" (.check (.identifier "rule") "q")).store "q"
    (.or (.check (.identifier "role") "admin") (.check (.identifier "rule") "p"))

/-- Rules in a circle go too deep within the usual bound because they do within three, and the
caller with the role never comes that far. -/
theorem outcome_circle :
    (circle.evaluateWithin depthBound "p" ⟨⟨[], ∅⟩, .unknown⟩).outcome = .error .tooDeep ∧
    (circle.evaluateWithin depthBound "p" ⟨⟨["admin"], ∅⟩, .unknown⟩).outcome = .ok true := by
  have hbuiltin : circle.EveryChecker Checker.Builtin :=
    ((everyChecker_fresh trivial trivial).store _ _).store _ _
  have hsize : circle.size < 3 := by decide
  have hbound : 3 ≤ depthBound := by decide
  exact ⟨(outcome_eq_of_size_lt hbuiltin hsize hbound _ _).trans rfl,
    (outcome_eq_of_size_lt hbuiltin hsize hbound _ _).trans rfl⟩

end RuleSet
end AccessPolicy
