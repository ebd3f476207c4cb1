import AccessPolicy.Proofs.Congruence
import AccessPolicy.Proofs.Symbols

/-!
# Replacing a rule

When may a rule be replaced by another, so that whatever was decided is still decided the same way,
in any rule set and for any request? Rules may call each other and themselves, and checkers may do
as they like. Still a rule sees little of all this: a `Situation`, which is the target and what
every bare name says about a text. `replaces_iff`: a rule may be replaced exactly if the other has
the same value in every situation where it has one.
-/

namespace AccessPolicy

/-- Wherever `e'` is stored in place of `e`, it decides whatever `e` did, and in the same way. -/
def Replaces (e' e : Expr) : Prop :=
  ∀ (rs : RuleSet) (name : String) (request : Request) (b : Bool),
    ((rs.store name e).evaluate name request).outcome = .ok b →
      ((rs.store name e').evaluate name request).outcome = .ok b

/-- What a rule sees of a rule set and a request. -/
structure Situation where
  /-- What the right sides of checks refer to. -/
  target : Target
  /-- What a bare name says about a text, unless its checker gives up. -/
  verdict : String → String → Option Bool

/-- The value of an expression in a situation. -/
def Expr.valueIn (s : Situation) : Expr → Option Bool
  | .const value => some value
  | .check lhs rhs =>
    match s.target.resolve rhs with
    | none => some false
    | some resolved =>
      match lhs with
      | .literal value => some (value == resolved)
      | .identifier name => s.verdict name resolved
  | .and left right => (left.valueIn s).bind fun b => if b then right.valueIn s else some false
  | .or left right => (left.valueIn s).bind fun b => if b then some true else right.valueIn s
  | .not operand => (operand.valueIn s).map Bool.not

/-- The bare names of an expression. -/
def Expr.names : Expr → List String
  | .const _ => []
  | .check (.literal _) _ => []
  | .check (.identifier name) _ => [name]
  | .and left right | .or left right => left.names ++ right.names
  | .not operand => operand.names

/-- The value of an expression depends on what its own names say. -/
theorem valueIn_congr {s s' : Situation} (htarget : s.target = s'.target) {e : Expr}
    (h : ∀ name ∈ e.names, ∀ text, s.verdict name text = s'.verdict name text) :
    e.valueIn s = e.valueIn s' := by
  induction e with
  | const => rfl
  | check lhs rhs =>
    cases lhs with
    | literal value => rw [Expr.valueIn, Expr.valueIn, htarget]
    | identifier name =>
      have hname := h name (List.mem_singleton.mpr rfl)
      rw [Expr.valueIn, Expr.valueIn, htarget]
      simp only [hname]
  | and left right ihleft ihright | or left right ihleft ihright =>
    have hleft := ihleft fun name hname => h name (List.mem_append_left _ hname)
    have hright := ihright fun name hname => h name (List.mem_append_right _ hname)
    rw [Expr.valueIn, Expr.valueIn, hleft, hright]
  | not operand ih => rw [Expr.valueIn, Expr.valueIn, ih h]

/-! ## The situation of an evaluation -/

theorem Run.toOption_bind {α β : Type} (r : Run α) (next : α → Run β) :
    (r >>= next).outcome.toOption = r.outcome.toOption.bind fun a => (next a).outcome.toOption := by
  cases h : r.outcome with
  | ok a => rw [bind_of_ok h]; rfl
  | error f => rw [bind_of_error h]; rfl

theorem toOption_eq_some_iff {ε α : Type} {x : Except ε α} {a : α} :
    x.toOption = some a ↔ x = .ok a := by
  cases x <;> simp [Except.toOption]

namespace RuleSet

variable (rs : RuleSet) (ask : RuleOracle) (request : Request)

/-- The situation in which an expression is evaluated. -/
def situation : Situation where
  target := request.target
  verdict name text :=
    (rs.runResolved ask request (.identifier name) text text).outcome.toOption

/-- What a check comes to does not depend on how its right side was written. -/
theorem outcome_runResolved (lhs : LeftSide) (rhs rhs' resolved : String) :
    (rs.runResolved ask request lhs rhs resolved).outcome =
      (rs.runResolved ask request lhs rhs' resolved).outcome := by
  cases lhs with
  | literal value => rfl
  | identifier name =>
    simp only [runResolved]
    split
    · rfl
    · split <;> rfl

/-- The outcome of an expression is its value in the situation. -/
theorem outcome_runExpr (e : Expr) :
    (rs.runExpr ask request e).outcome.toOption = e.valueIn (rs.situation ask request) := by
  induction e with
  | const => rfl
  | check lhs rhs =>
    rw [runExpr, runCheck, Expr.valueIn, situation]
    cases request.target.resolve rhs with
    | none => rfl
    | some resolved =>
      cases lhs with
      | literal value => rfl
      | identifier name =>
        exact congrArg _ (outcome_runResolved rs ask request _ rhs resolved resolved)
  | and left right ihleft ihright | or left right ihleft ihright =>
    rw [runExpr, Run.toOption_bind, Expr.valueIn, ihleft, ← ihright]
    refine congrArg _ (funext fun b => ?_)
    cases b <;> rfl
  | not operand ih =>
    rw [runExpr, Run.toOption_bind, Expr.valueIn, ih, Option.map_eq_bind]
    rfl

end RuleSet

/-! ## Replacing keeps what was decided -/

/-- The second run decides whatever the first one does, in the same way. -/
def Run.Keeps {α : Type} (r r' : Run α) : Prop := ∀ a, r.outcome = .ok a → r'.outcome = .ok a

theorem Run.congruence_keeps : Run.Congruence Run.Keeps where
  refl _ _ h := h
  bind h hnext b hb := by
    obtain ⟨a, ha, hb⟩ := bind_outcome_eq_ok_iff.mp hb
    exact bind_outcome_eq_ok_iff.mpr ⟨a, h a ha, hnext a b hb⟩

/-- The second oracle decides whatever the first one does, in the same way. -/
def RuleOracle.Keeps (ask ask' : RuleOracle) : Prop :=
  ∀ rule request b, (ask rule request).outcome = .ok b → (ask' rule request).outcome = .ok b

variable {ask ask' : RuleOracle}

namespace RuleSet

/-- A bare name says what it said, if its checker does not ask for more than was decided. -/
theorem runResolved_keeps (h : ask.Keeps ask') (rs : RuleSet) {request : Request}
    {name rhs resolved : String} {b : Bool}
    (hb : (rs.runResolved ask request (.identifier name) rhs resolved).outcome = .ok b) :
    (rs.runResolved ask' request (.identifier name) rhs resolved).outcome = .ok b := by
  rw [runResolved] at hb ⊢
  split
  next checker hchecker =>
    rw [hchecker] at hb
    exact Run.congruence_keeps.run h checker rs.isDefined name request resolved b hb
  next hchecker =>
    rw [hchecker] at hb
    exact hb

/-- Whoever asks more decides more. -/
theorem valueIn_keeps {s s' : Situation} (htarget : s.target = s'.target)
    (hverdict : ∀ name text b, s.verdict name text = some b → s'.verdict name text = some b)
    {e : Expr} {b : Bool} (h : e.valueIn s = some b) : e.valueIn s' = some b := by
  induction e generalizing b with
  | const => exact h
  | check lhs rhs =>
    rw [Expr.valueIn, htarget] at h
    rw [Expr.valueIn]
    split
    next hnone => rwa [hnone] at h
    next resolved hsome =>
      rw [hsome] at h
      cases lhs with
      | literal value => exact h
      | identifier name => exact hverdict _ _ _ h
  | and left right ihleft ihright | or left right ihleft ihright =>
    rw [Expr.valueIn, Option.bind_eq_some_iff] at h
    obtain ⟨b', hleft, hright⟩ := h
    rw [Expr.valueIn, ihleft hleft, Option.bind_some]
    cases b' with
    | false => first | exact hright | exact ihright hright
    | true => first | exact hright | exact ihright hright
  | not operand ih =>
    obtain ⟨b', hoperand, rfl⟩ := Option.map_eq_some_iff.mp h
    rw [Expr.valueIn, ih hoperand, Option.map_some]

/-- What a rule says is what its expression says. -/
theorem outcome_evaluateWithin (rs : RuleSet) (bound : Nat) {name : String} {e : Expr}
    (h : rs.rule? name = some e) (request : Request) :
    (rs.evaluateWithin (bound + 1) name request).outcome =
      (rs.runExpr (rs.evaluateWithin bound) request e).outcome := by
  rw [evaluateWithin, h]
  dsimp only
  cases hrun : (rs.runExpr (rs.evaluateWithin bound) request e).outcome with
  | ok b => rw [Run.bind_of_ok hrun]; rfl
  | error f => rw [Run.bind_of_error hrun]

/-- An expression decides whatever it did, if the rules it refers to do. -/
theorem runExpr_keeps (h : ask.Keeps ask') {rs rs' : RuleSet}
    (hcheckers : rs.checkers = rs'.checkers) (hdefined : rs.isDefined = rs'.isDefined)
    {request : Request} {e e' : Expr}
    (hvalue : ∀ s b, e.valueIn s = some b → e'.valueIn s = some b) {b : Bool}
    (hb : (rs.runExpr ask request e).outcome = .ok b) :
    (rs'.runExpr ask' request e').outcome = .ok b := by
  -- first in the situation of the old rules, then in that of the new ones
  rw [← toOption_eq_some_iff, outcome_runExpr] at hb
  rw [← runExpr_congr hcheckers hdefined, ← toOption_eq_some_iff, outcome_runExpr]
  have htarget : (rs.situation ask request).target = (rs.situation ask' request).target := rfl
  refine valueIn_keeps htarget ?_ (hvalue _ _ hb)
  intro name text b hverdict
  rw [situation, toOption_eq_some_iff] at hverdict ⊢
  exact runResolved_keeps h rs hverdict

/-- Every rule decides whatever it did after the replacement of one, however deep rules may refer
to rules. -/
theorem evaluateWithin_keeps {e e' : Expr}
    (hvalue : ∀ s b, e.valueIn s = some b → e'.valueIn s = some b) (rs : RuleSet) (name : String) :
    ∀ bound, ((rs.store name e).evaluateWithin bound).Keeps
      ((rs.store name e').evaluateWithin bound) := by
  intro bound
  induction bound with
  | zero =>
    intro rule request b h
    cases h
  | succ bound ih =>
    intro rule request b h
    have hcheckers : (rs.store name e).checkers = (rs.store name e').checkers := rfl
    have hdefined := isDefined_store rs name e e'
    have hrule := rule?_store rs name rule e
    have hrule' := rule?_store rs name rule e'
    -- the replaced rule has the value of the new one; every other rule is as it was
    by_cases hname : rule = name
    · rw [if_pos hname] at hrule hrule'
      rw [outcome_evaluateWithin _ _ hrule] at h
      rw [outcome_evaluateWithin _ _ hrule']
      exact runExpr_keeps ih hcheckers hdefined hvalue h
    · rw [if_neg hname] at hrule hrule'
      cases hfind : rs.rule? rule with
      | none =>
        rw [evaluateWithin, hrule, hfind] at h
        rw [evaluateWithin, hrule', hfind]
        exact h
      | some other =>
        rw [outcome_evaluateWithin _ _ (hrule.trans hfind)] at h
        rw [outcome_evaluateWithin _ _ (hrule'.trans hfind)]
        exact runExpr_keeps ih hcheckers hdefined (fun _ _ h => h) h

end RuleSet

/-! ## Every situation is one of an evaluation -/

theorem Dict.find?_ofList_map {α : Type} (f : String → α) {names : List String} {name : String}
    (h : name ∈ names) :
    (Dict.ofList (names.map fun n => (n, f n))).find? name = some (f name) := by
  have hfold : ∀ (names : List String) (d : Dict α),
      ((names.map fun n => (n, f n)).foldl (fun d p => d.insert p.1 p.2) d).find? name =
        if name ∈ names then some (f name) else d.find? name := by
    intro names
    induction names with
    | nil => intro d; rfl
    | cons n names ih =>
      intro d
      rw [List.map_cons, List.foldl_cons, ih, Dict.find?_insert]
      by_cases hmem : name ∈ names
      · rw [if_pos hmem, if_pos (List.mem_cons_of_mem _ hmem)]
      · rw [if_neg hmem]
        by_cases hn : name = n
        · rw [if_pos hn, if_pos (by rw [hn]; exact List.mem_cons_self ..), hn]
        · rw [if_neg hn, if_neg (by simp [hn, hmem])]
  exact (hfold names ∅).trans (if_pos h)

/-- The checker that says what a name says in a situation. -/
def Situation.checker (s : Situation) (name : String) : Checker :=
  .custom fun _ text =>
    match s.verdict name text with
    | some b => .answer b
    | none => .giveUp ""

/-- A rule set where some names have the say that they have in a situation. -/
def Situation.ruleSet (s : Situation) (names : List String) : RuleSet :=
  ⟨∅, Dict.ofList (names.map fun name => (name, s.checker name))⟩

/-- A request in a situation. -/
def Situation.request (s : Situation) : Request := ⟨⟨[], ∅⟩, s.target⟩

/-- A rule has the value in the rule set of a situation that it has in the situation. -/
theorem Situation.outcome_evaluate (s : Situation) {names : List String} {e : Expr}
    (h : ∀ name ∈ e.names, name ∈ names) (name : String) :
    (((s.ruleSet names).store name e).evaluate name s.request).outcome.toOption = e.valueIn s := by
  obtain ⟨bound, hbound⟩ : ∃ bound, RuleSet.depthBound = bound + 1 := ⟨_, rfl⟩
  have hrule := RuleSet.rule?_store (s.ruleSet names) name name e
  rw [if_pos rfl] at hrule
  rw [RuleSet.evaluate, hbound, RuleSet.outcome_evaluateWithin _ _ hrule, RuleSet.outcome_runExpr]
  have htarget (ask : RuleOracle) :
    (((s.ruleSet names).store name e).situation ask s.request).target = s.target := rfl
  refine valueIn_congr (htarget _) ?_
  intro n hn text
  have hfind : ((s.ruleSet names).store name e).checkers.find? n = some (s.checker n) :=
    Dict.find?_ofList_map s.checker (h n hn)
  rw [RuleSet.situation]
  simp only [RuleSet.runResolved, hfind, checker, Checker.run]
  cases s.verdict n text <;> rfl

/-- **Replacement.** A rule may be replaced by another exactly if the other has the same value in
every situation where it has one. -/
theorem replaces_iff {e e' : Expr} :
    Replaces e' e ↔ ∀ s b, e.valueIn s = some b → e'.valueIn s = some b := by
  constructor
  · -- the situation is that of a rule set made for it
    intro h s b hb
    have hnames : ∀ name ∈ e.names, name ∈ e.names ++ e'.names := fun _ => List.mem_append_left _
    have hnames' : ∀ name ∈ e'.names, name ∈ e.names ++ e'.names := fun _ => List.mem_append_right _
    rw [← s.outcome_evaluate hnames "", toOption_eq_some_iff] at hb
    rw [← s.outcome_evaluate hnames' "", toOption_eq_some_iff]
    exact h _ _ _ _ hb
  · intro h rs name request b hb
    exact RuleSet.evaluateWithin_keeps h rs name _ _ _ _ hb

end AccessPolicy
