import AccessPolicy.Proofs.Evaluation
import Mathlib.Data.List.TakeWhile

/-!
# Storing rules one by one

Rules are stored in order, up to the first text that is none. So of a list of rules it is the part
in front of that text which is applied (`applicable`), and everything that comes of storing the list
is told from this part: `addRules_error`, `addRules_log`, `checkers_addRules` and `rule?_addRules`.
Where a name comes more than once, the last text is the one that stays (`lastEntry`).
-/

namespace AccessPolicy

/-! ## Last entries -/

variable {α : Type}

/-- The value in the last pair of a name. -/
def lastEntry (name : String) : List (String × α) → Option α
  | [] => none
  | (n, v) :: rest => (lastEntry name rest).or (if n = name then some v else none)

@[simp] theorem lastEntry_nil (name : String) : lastEntry name ([] : List (String × α)) = none := rfl

theorem lastEntry_append (name : String) (pairs more : List (String × α)) :
    lastEntry name (pairs ++ more) = (lastEntry name more).or (lastEntry name pairs) := by
  induction pairs with
  | nil => simp
  | cons pair pairs ih =>
    obtain ⟨n, v⟩ := pair
    rw [List.cons_append, lastEntry, ih, lastEntry, Option.or_assoc]

theorem lastEntry_eq_none_iff {name : String} {pairs : List (String × α)} :
    lastEntry name pairs = none ↔ name ∉ pairs.map Prod.fst := by
  induction pairs with
  | nil => simp
  | cons pair pairs ih =>
    obtain ⟨n, v⟩ := pair
    rw [lastEntry, Option.or_eq_none_iff, ih, List.map_cons, List.mem_cons, not_or, and_comm]
    by_cases h : n = name
    · simp [h]
    · simp [h, Ne.symm h]

theorem exists_lastEntry {name : String} {pairs : List (String × α)}
    (h : name ∈ pairs.map Prod.fst) : ∃ v, lastEntry name pairs = some v :=
  Option.ne_none_iff_exists'.mp fun hnone => lastEntry_eq_none_iff.mp hnone h

theorem mem_of_lastEntry {name : String} {pairs : List (String × α)} {v : α}
    (h : lastEntry name pairs = some v) : (name, v) ∈ pairs := by
  induction pairs with
  | nil => cases h
  | cons pair pairs ih =>
    obtain ⟨n, w⟩ := pair
    rw [lastEntry, Option.or_eq_some_iff] at h
    rcases h with h | ⟨-, h⟩
    · exact List.mem_cons_of_mem _ (ih h)
    · split at h
      next hn =>
        obtain rfl := Option.some.inj h
        exact hn ▸ List.mem_cons_self
      next => cases h

/-- Where each name comes once, the last entry of a name is its only one. -/
theorem Dict.lastEntry_entries (d : Dict α) (name : String) :
    lastEntry name d.entries = d.find? name := by
  cases h : lastEntry name d.entries with
  | some v => exact (Dict.find?_eq_some_iff.mpr (mem_of_lastEntry h)).symm
  | none =>
    have hkeys : name ∉ d.keys := lastEntry_eq_none_iff.mp h
    rw [← Dict.find?_isSome_iff, Option.not_isSome_iff_eq_none] at hkeys
    exact hkeys.symm

/-! ## Rules and texts that are none -/

/-- The rule that a text is, if it is one. -/
def Expr.parse? (text : String) : Option Expr := (Expr.parse text).toOption

/-- What is wrong with a rule that is to be stored. -/
def ruleError? : String × String → Option RuleError
  | (name, text) =>
    match Expr.parse text with
    | .ok _ => none
    | .error error => some ⟨name, error⟩

/-- What is reported when a rule is stored. -/
def ruleReport? : String × String → Option LogEntry
  | (name, text) => (Expr.parse? text).map (.stored name)

/-- The rules in front of the first text that is none. -/
def applicable (rules : List (String × String)) : List (String × String) :=
  rules.takeWhile fun rule => (ruleError? rule).isNone

theorem ruleError?_eq_none_iff {name text : String} :
    ruleError? (name, text) = none ↔ ∃ e, Expr.parse text = .ok e := by
  unfold ruleError?
  dsimp only
  split
  next e h => exact ⟨fun _ => ⟨e, h⟩, fun _ => rfl⟩
  next error h => exact ⟨nofun, fun ⟨e, he⟩ => absurd (h.symm.trans he) nofun⟩

theorem ruleError?_eq_some_iff {name text : String} {error : RuleError} :
    ruleError? (name, text) = some error ↔
      error.rule = name ∧ Expr.parse text = .error error.error := by
  unfold ruleError?
  dsimp only
  split
  next e h => exact ⟨nofun, fun ⟨_, he⟩ => absurd (h.symm.trans he) nofun⟩
  next syntaxError h =>
    obtain ⟨rule, ruleSyntaxError⟩ := error
    rw [h, Option.some.injEq, RuleError.mk.injEq, Except.error.injEq]
    exact ⟨fun ⟨hname, herror⟩ => ⟨hname.symm, herror⟩, fun ⟨hname, herror⟩ => ⟨hname.symm, herror⟩⟩

theorem parse?_eq_some_iff {text : String} {e : Expr} :
    Expr.parse? text = some e ↔ Expr.parse text = .ok e := by
  unfold Expr.parse?
  cases Expr.parse text <;> simp [Except.toOption]

theorem exists_parse_of_mem_applicable {rules : List (String × String)} {name text : String}
    (h : (name, text) ∈ applicable rules) : ∃ e, Expr.parse text = .ok e := by
  have hnone := List.mem_takeWhile_imp h
  exact ruleError?_eq_none_iff.mp (Option.isNone_iff_eq_none.mp hnone)

theorem applicable_cons_of_ok {name text : String} {e : Expr} (h : Expr.parse text = .ok e)
    (rules : List (String × String)) :
    applicable ((name, text) :: rules) = (name, text) :: applicable rules := by
  have hnone : ruleError? (name, text) = none := ruleError?_eq_none_iff.mpr ⟨e, h⟩
  rw [applicable, List.takeWhile_cons_of_pos (by rw [hnone]; rfl)]
  rfl

theorem applicable_cons_of_error {name text : String} {error : SyntaxError}
    (h : Expr.parse text = .error error) (rules : List (String × String)) :
    applicable ((name, text) :: rules) = [] := by
  have hsome : ruleError? (name, text) = some ⟨name, error⟩ := ruleError?_eq_some_iff.mpr ⟨rfl, h⟩
  rw [applicable, List.takeWhile_cons_of_neg (by rw [hsome]; simp)]

/-- All rules are applied if none is wrong. -/
theorem applicable_eq_self {rules : List (String × String)}
    (h : rules.findSome? ruleError? = none) : applicable rules = rules := by
  rw [List.findSome?_eq_none_iff] at h
  exact List.takeWhile_eq_self_iff.mpr fun rule hmem => by rw [h rule hmem]; rfl

/-! ## One rule -/

namespace RuleSet

variable (rs : RuleSet)

theorem addRule_of_ok {name text : String} {e : Expr} (h : Expr.parse text = .ok e) :
    rs.addRule name text = ⟨rs.store name e, [.stored name e], none⟩ := by
  rw [addRule, h]

theorem addRule_of_error {name text : String} {error : SyntaxError}
    (h : Expr.parse text = .error error) : rs.addRule name text = ⟨rs, [], some ⟨name, error⟩⟩ := by
  rw [addRule, h]

theorem addRule_error (name text : String) :
    (rs.addRule name text).error = ruleError? (name, text) := by
  rw [addRule, ruleError?]
  cases Expr.parse text <;> rfl

/-! ## Several rules -/

theorem addRules_cons_of_ok {name text : String} {e : Expr} (h : Expr.parse text = .ok e)
    (rules : List (String × String)) :
    rs.addRules ((name, text) :: rules) =
      ⟨((rs.store name e).addRules rules).ruleSet,
        .stored name e :: ((rs.store name e).addRules rules).log,
        ((rs.store name e).addRules rules).error⟩ := by
  rw [addRules, rs.addRule_of_ok h]
  rfl

theorem addRules_cons_of_error {name text : String} {error : SyntaxError}
    (h : Expr.parse text = .error error) (rules : List (String × String)) :
    rs.addRules ((name, text) :: rules) = ⟨rs, [], some ⟨name, error⟩⟩ := by
  rw [addRules, rs.addRule_of_error h]

/-- One rule is stored as a list of one is. -/
theorem addRules_single (name text : String) :
    rs.addRules [(name, text)] = rs.addRule name text := by
  cases h : Expr.parse text with
  | ok e => rw [rs.addRules_cons_of_ok h, rs.addRule_of_ok h]; rfl
  | error error => rw [rs.addRules_cons_of_error h, rs.addRule_of_error h]

/-- The error is that of the first rule that is wrong. -/
theorem addRules_error (rules : List (String × String)) :
    (rs.addRules rules).error = rules.findSome? ruleError? := by
  induction rules generalizing rs with
  | nil => rfl
  | cons rule rules ih =>
    obtain ⟨name, text⟩ := rule
    rw [List.findSome?_cons]
    cases h : Expr.parse text with
    | ok e =>
      rw [rs.addRules_cons_of_ok h, ruleError?_eq_none_iff.mpr ⟨e, h⟩]
      exact ih (rs.store name e)
    | error error =>
      have hsome : ruleError? (name, text) = some ⟨name, error⟩ :=
        ruleError?_eq_some_iff.mpr ⟨rfl, h⟩
      rw [rs.addRules_cons_of_error h, hsome]

/-- Every rule that is applied is reported, and nothing else. -/
theorem addRules_log (rules : List (String × String)) :
    (rs.addRules rules).log = (applicable rules).filterMap ruleReport? := by
  induction rules generalizing rs with
  | nil => rfl
  | cons rule rules ih =>
    obtain ⟨name, text⟩ := rule
    cases h : Expr.parse text with
    | ok e =>
      have hentry : ruleReport? (name, text) = some (.stored name e) := by
        rw [ruleReport?, parse?_eq_some_iff.mpr h, Option.map_some]
      rw [rs.addRules_cons_of_ok h, applicable_cons_of_ok h, List.filterMap_cons_some hentry, ih]
    | error error =>
      rw [rs.addRules_cons_of_error h, applicable_cons_of_error h]
      rfl

theorem checkers_addRules (rules : List (String × String)) :
    (rs.addRules rules).ruleSet.checkers = rs.checkers := by
  induction rules generalizing rs with
  | nil => rfl
  | cons rule rules ih =>
    obtain ⟨name, text⟩ := rule
    cases h : Expr.parse text with
    | ok e =>
      rw [rs.addRules_cons_of_ok h]
      exact ih (rs.store name e)
    | error error => rw [rs.addRules_cons_of_error h]

/-- A name has the rule that is applied last, or the one that it had. -/
theorem rule?_addRules (rules : List (String × String)) (n : String) :
    (rs.addRules rules).ruleSet.rule? n =
      ((lastEntry n (applicable rules)).bind Expr.parse?).or (rs.rule? n) := by
  induction rules generalizing rs with
  | nil => rfl
  | cons rule rules ih =>
    obtain ⟨name, text⟩ := rule
    cases h : Expr.parse text with
    | error error =>
      rw [rs.addRules_cons_of_error h, applicable_cons_of_error h]
      rfl
    | ok e =>
      rw [rs.addRules_cons_of_ok h, applicable_cons_of_ok h, lastEntry, ih, rule?_store]
      cases hlast : lastEntry n (applicable rules) with
      | some text' =>
        -- a text that is applied is a rule, so nothing in front of it counts
        obtain ⟨e', he'⟩ := exists_parse_of_mem_applicable (mem_of_lastEntry hlast)
        simp [parse?_eq_some_iff.mpr he']
      | none =>
        by_cases hn : n = name
        · simp [hn, parse?_eq_some_iff.mpr h]
        · simp [hn, Ne.symm hn]

end RuleSet
end AccessPolicy
