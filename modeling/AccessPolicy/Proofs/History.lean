import AccessPolicy.Proofs.Stored
import AccessPolicy.Proofs.Updates
import Mathlib.Data.List.DropRight
import Mathlib.Data.List.Dedup

/-!
# The history of a rule set

What a rule set holds is told by what was done to it since it was created, and of that by the rules
that were applied and the checkers that were registered: main statement `ruleSet_replays`. An action
may apply several rules, or some of those that it was to apply (`Action.updates`), and under each
name the last one counts.

One action adds what it applies to the history of its rule set (`RuleSet.Replays.perform`), or begins
a new history, and it touches no other rule set (`Session.ruleSet_perform`). So a session carries
along the history of each of its rule sets (`Session.replays_run`).
-/

namespace AccessPolicy

namespace Action

/-- The rules that an action applies, in order. -/
def updates (L : Loader) : Action → List (String × String)
  | .addRule name text => applicable [(name, text)]
  | .addRules rules => applicable rules.entries
  | .load document =>
    match readPolicy L document with
    | .ok rules => applicable rules.entries
    | .error _ => []
  | _ => []

/-- The checkers that an action registers. -/
def registrations : Action → List (String × Checker)
  | .addChecker name checker => [(name, checker)]
  | _ => []

/-- Whether an action begins a new history. -/
def isCreate : Action → Bool
  | .create => true
  | _ => false

/-- Whether an action only asks something. -/
def isQuestion : Action → Bool
  | .evaluate _ _ | .check _ _ _ | .inspectRule _ | .inspect => true
  | _ => false

end Action

/-! ## Rule sets and their histories -/

/-- The checkers that every rule set has to begin with. -/
def builtinCheckers : List (String × Checker) := [("rule", .rule), ("role", .role)]

namespace RuleSet

/-- A rule set holds what was applied last under each name, and nothing else. -/
structure Replays (rs : RuleSet) (updates : List (String × String))
    (registered : List (String × Checker)) : Prop where
  parsed : ∀ name text, (name, text) ∈ updates → ∃ e, Expr.parse text = .ok e
  rule : ∀ name, rs.rule? name = (lastEntry name updates).bind Expr.parse?
  checker : ∀ name, rs.checkers.find? name = lastEntry name (builtinCheckers ++ registered)

theorem replays_fresh : fresh.Replays [] [] where
  parsed := nofun
  rule := fun _ => rfl
  checker := by
    intro name
    rw [List.append_nil, ← Dict.lastEntry_entries]
    rfl

variable {rs : RuleSet} {updates : List (String × String)} {registered : List (String × Checker)}

theorem Replays.addRules (h : rs.Replays updates registered) (rules : List (String × String)) :
    (rs.addRules rules).ruleSet.Replays (updates ++ applicable rules) registered where
  parsed := by
    intro name text hmem
    rcases List.mem_append.mp hmem with hmem | hmem
    · exact h.parsed name text hmem
    · exact exists_parse_of_mem_applicable hmem
  rule := by
    intro name
    rw [rule?_addRules, h.rule, lastEntry_append]
    cases hlast : lastEntry name (applicable rules) with
    | none => rfl
    | some text =>
      obtain ⟨e, he⟩ := exists_parse_of_mem_applicable (mem_of_lastEntry hlast)
      simp [parse?_eq_some_iff.mpr he]
  checker := by
    rw [checkers_addRules]
    exact h.checker

theorem Replays.addChecker (h : rs.Replays updates registered) (name : String)
    (checker : Checker) :
    (rs.addChecker name checker).Replays updates (registered ++ [(name, checker)]) where
  parsed := h.parsed
  rule := h.rule
  checker := by
    intro n
    rw [← List.append_assoc, lastEntry_append, ← h.checker]
    change (rs.checkers.insert name checker).find? n = _
    rw [Dict.find?_insert]
    by_cases hn : n = name
    · simp [lastEntry, hn]
    · simp [lastEntry, hn, Ne.symm hn]

/-- What an action applies and registers comes at the end of the history. -/
theorem Replays.perform (h : rs.Replays updates registered) (L : Loader) {action : Action}
    (hcreate : action.isCreate = false) :
    (rs.perform L action).1.Replays (updates ++ action.updates L)
      (registered ++ action.registrations) := by
  cases action with
  | create => cases hcreate
  | addRule name text =>
    have hadd := h.addRules [(name, text)]
    rw [addRules_single] at hadd
    simp only [Action.updates, Action.registrations, List.append_nil]
    exact hadd
  | addRules rules =>
    simp only [Action.updates, Action.registrations, List.append_nil]
    exact h.addRules rules.entries
  | load document =>
    unfold RuleSet.perform
    simp only [Action.updates, Action.registrations, List.append_nil]
    cases readPolicy L document with
    | ok rules => exact h.addRules rules.entries
    | error =>
      rw [List.append_nil]
      exact h
  | addChecker name checker =>
    simp only [Action.updates, Action.registrations, List.append_nil]
    exact h.addChecker name checker
  | evaluate | check | inspectRule | inspect =>
    simp only [Action.updates, Action.registrations, List.append_nil]
    exact h

/-- The names of the rules are those that something was applied under. -/
theorem Replays.mem_ruleNames (h : rs.Replays updates registered) {name : String} :
    name ∈ rs.ruleNames ↔ name ∈ updates.map Prod.fst := by
  rw [ruleNames, Dict.mem_sortedKeys, ← Dict.find?_isSome_iff]
  change (rs.rule? name).isSome ↔ _
  rw [h.rule]
  by_cases hname : name ∈ updates.map Prod.fst
  · obtain ⟨text, hlast⟩ := exists_lastEntry hname
    obtain ⟨e, he⟩ := h.parsed name text (mem_of_lastEntry hlast)
    simp [hlast, parse?_eq_some_iff.mpr he, hname]
  · simp [lastEntry_eq_none_iff.mpr hname, hname]

theorem Replays.size_eq (h : rs.Replays updates registered) :
    rs.size = (updates.map Prod.fst).dedup.length := by
  have hnames : rs.rules.keys.Perm (updates.map Prod.fst).dedup := by
    refine (List.perm_ext_iff_of_nodup rs.rules.distinct (List.nodup_dedup _)).mpr fun name => ?_
    rw [List.mem_dedup, ← h.mem_ruleNames, ruleNames, Dict.mem_sortedKeys]
    rfl
  rw [← hnames.length_eq]
  exact (List.length_map _).symm

end RuleSet

/-! ## Sessions -/

/-- What was done to a rule set since it was created. -/
def sinceCreation (set : String) (steps : List SessionStep) : List Action :=
  ((steps.filter (·.ruleSet = set)).map (·.action)).rtakeWhile fun action => !action.isCreate

/-- The rules applied to a rule set since it was created, in order. -/
def appliedUpdates (L : Loader) (set : String) (steps : List SessionStep) :
    List (String × String) :=
  (sinceCreation set steps).flatMap (Action.updates L)

/-- The checkers registered in a rule set since it was created, in order. -/
def registeredCheckers (set : String) (steps : List SessionStep) : List (String × Checker) :=
  (sinceCreation set steps).flatMap Action.registrations

theorem sinceCreation_other {set : String} {step : SessionStep} (h : set ≠ step.ruleSet)
    (steps : List SessionStep) : sinceCreation set (steps ++ [step]) = sinceCreation set steps := by
  simp [sinceCreation, List.filter_append, Ne.symm h]

theorem sinceCreation_own (steps : List SessionStep) (step : SessionStep) :
    sinceCreation step.ruleSet (steps ++ [step]) =
      if step.action.isCreate then [] else sinceCreation step.ruleSet steps ++ [step.action] := by
  simp only [sinceCreation, List.filter_append, List.map_append, List.filter_singleton,
    decide_true, cond_true, List.map_cons, List.map_nil, List.rtakeWhile_concat]
  cases step.action.isCreate <;> rfl

namespace Session

/-- A step acts on its own rule set only. -/
theorem ruleSet_perform (s : Session) (L : Loader) (step : SessionStep) (set : String) :
    (s.perform L step).1.ruleSet set =
      if set = step.ruleSet then ((s.ruleSet set).perform L step.action).1 else s.ruleSet set := by
  unfold perform
  dsimp only
  rw [ruleSet_insert]
  by_cases h : set = step.ruleSet
  · rw [if_pos h, if_pos h, h]
  · rw [if_neg h, if_neg h]

theorem ruleSet_perform_question {s : Session} {L : Loader} {step : SessionStep}
    (h : step.action.isQuestion = true) (set : String) :
    (s.perform L step).1.ruleSet set = s.ruleSet set := by
  have hsame : ((s.ruleSet set).perform L step.action).1 = s.ruleSet set := by
    cases haction : step.action <;> rw [haction] at h <;> first | rfl | cases h
  rw [ruleSet_perform, hsame, ite_self]

theorem run_concat (s : Session) (L : Loader) (steps : List SessionStep) (step : SessionStep) :
    (s.run L (steps ++ [step])).1 = ((s.run L steps).1.perform L step).1 := by
  induction steps generalizing s with
  | nil => rfl
  | cons first steps ih => exact ih (s.perform L first).1

/-- Through a whole session, every rule set replays its history. -/
theorem replays_run (L : Loader) (steps : List SessionStep) (set : String) :
    ((start.run L steps).1.ruleSet set).Replays (appliedUpdates L set steps)
      (registeredCheckers set steps) := by
  induction steps using List.reverseRecOn with
  | nil =>
    change (start.ruleSet set).Replays [] []
    rw [ruleSet_start]
    exact RuleSet.replays_fresh
  | append_singleton steps step ih =>
    rw [run_concat, ruleSet_perform]
    unfold appliedUpdates registeredCheckers
    by_cases hset : set = step.ruleSet
    · subst hset
      rw [if_pos rfl, sinceCreation_own]
      cases hcreate : step.action.isCreate with
      | false =>
        have hstep := ih.perform L hcreate
        simpa [appliedUpdates, registeredCheckers] using hstep
      | true =>
        have haction : step.action = .create := by
          cases haction : step.action <;> rw [haction] at hcreate <;> first | rfl | cases hcreate
        rw [haction]
        exact RuleSet.replays_fresh
    · rw [if_neg hset, sinceCreation_other hset]
      exact ih

end Session

/-- **A rule set replays its updates.** After any steps, with any loader, a rule set holds under each
name the rule that was applied last since it was created, and no rule under a name that none was
applied under. Its checkers are the built-in ones with those registered since then on top. It counts
each name once and lists the names in order. A question changes no rule set, whatever comes of it,
and no step changes another rule set than its own. -/
theorem ruleSet_replays (L : Loader) (steps : List SessionStep) (set : String) :
    (∀ name text, lastEntry name (appliedUpdates L set steps) = some text →
      ∃ e, Expr.parse text = .ok e ∧
        ((Session.start.run L steps).1.ruleSet set).rule? name = some e) ∧
    (∀ name, name ∉ (appliedUpdates L set steps).map Prod.fst →
      ((Session.start.run L steps).1.ruleSet set).rule? name = none) ∧
    (∀ name, ((Session.start.run L steps).1.ruleSet set).checkers.find? name =
      lastEntry name (builtinCheckers ++ registeredCheckers set steps)) ∧
    ((Session.start.run L steps).1.ruleSet set).size =
      ((appliedUpdates L set steps).map Prod.fst).dedup.length ∧
    (∀ name, name ∈ ((Session.start.run L steps).1.ruleSet set).ruleNames ↔
      name ∈ (appliedUpdates L set steps).map Prod.fst) ∧
    ((Session.start.run L steps).1.ruleSet set).ruleNames.Pairwise (· < ·) ∧
    (∀ (s : Session) (step : SessionStep), step.action.isQuestion = true →
      ∀ other, (s.perform L step).1.ruleSet other = s.ruleSet other) ∧
    ∀ (s : Session) (step : SessionStep) (other : String), other ≠ step.ruleSet →
      (s.perform L step).1.ruleSet other = s.ruleSet other := by
  have hreplays := Session.replays_run L steps set
  refine ⟨?_, ?_, hreplays.checker, hreplays.size_eq, fun _ => hreplays.mem_ruleNames,
    Dict.sortedKeys_pairwise _, fun s step h => Session.ruleSet_perform_question h, ?_⟩
  · intro name text hlast
    obtain ⟨e, he⟩ := hreplays.parsed name text (mem_of_lastEntry hlast)
    refine ⟨e, he, ?_⟩
    rw [hreplays.rule, hlast]
    exact parse?_eq_some_iff.mpr he
  · intro name hname
    rw [hreplays.rule, lastEntry_eq_none_iff.mpr hname]
    rfl
  · intro s step other hother
    rw [Session.ruleSet_perform, if_neg hother]

/-- A question that has no answer once the checker `role` gives up. -/
def asking : SessionStep := ⟨"s", .evaluate "p" ⟨⟨[], ∅⟩, .unknown⟩⟩

/-- A rule for the other rule set. -/
def storing : SessionStep := ⟨"other", .addRule "t" "!"⟩

/-- Steps on two rule sets. One of them is created again, then a list of rules stops half-way, and
the text of a later update is no rule. -/
def interleavedSteps : List SessionStep := [
  ⟨"s", .addRule "p" "@"⟩,
  ⟨"s", .addRule "u" "@"⟩,
  ⟨"s", .create⟩,
  ⟨"s", .addRules (Dict.ofList [("p", "role:a"), ("q", "!"), ("r", "("), ("t", "@")])⟩,
  storing,
  ⟨"s", .addChecker "role" Checker.failing⟩,
  ⟨"s", .addRule "p" "role:b"⟩,
  ⟨"s", .addRule "q" "role:"⟩,
  asking]

/-- What was applied to the rule set, and what that comes to. -/
theorem ruleSet_replays_interleaved :
    appliedUpdates .standard "s" interleavedSteps =
      [("p", "role:a"), ("q", "!"), ("p", "role:b")] ∧
    lastEntry "p" (appliedUpdates .standard "s" interleavedSteps) = some "role:b" ∧
    (∃ e, Expr.parse "role:b" = .ok e ∧
      ((Session.start.run .standard interleavedSteps).1.ruleSet "s").rule? "p" = some e) ∧
    "u" ∉ (appliedUpdates .standard "s" interleavedSteps).map Prod.fst ∧
    ((Session.start.run .standard interleavedSteps).1.ruleSet "s").rule? "u" = none ∧
    asking.action.isQuestion = true ∧
    ((Session.start.run .standard interleavedSteps).1.perform .standard asking).1.ruleSet "s" =
      (Session.start.run .standard interleavedSteps).1.ruleSet "s" ∧
    "s" ≠ storing.ruleSet ∧
    ((Session.start.run .standard interleavedSteps).1.perform .standard storing).1.ruleSet "s" =
      (Session.start.run .standard interleavedSteps).1.ruleSet "s" := by
  have happlied : appliedUpdates .standard "s" interleavedSteps =
      [("p", "role:a"), ("q", "!"), ("p", "role:b")] := by decide
  have hlast : lastEntry "p" (appliedUpdates .standard "s" interleavedSteps) = some "role:b" := by
    rw [happlied]
    decide
  have hnever : "u" ∉ (appliedUpdates .standard "s" interleavedSteps).map Prod.fst := by
    rw [happlied]
    decide
  have hother : "s" ≠ storing.ruleSet := by decide
  obtain ⟨hstored, hnone, -, -, -, -, hquestion, hstep⟩ :=
    ruleSet_replays .standard interleavedSteps "s"
  exact ⟨happlied, hlast, hstored "p" "role:b" hlast, hnever, hnone "u" hnever, rfl,
    hquestion _ asking rfl "s", hother, hstep _ storing "s" hother⟩

end AccessPolicy
