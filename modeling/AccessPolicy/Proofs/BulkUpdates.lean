import AccessPolicy.Proofs.Updates
import Mathlib.Data.List.Forall2

/-!
# Storing a mapping of rules

A mapping of rules is stored entry by entry, and the first text that is no rule ends it. Main
statements: `addRules_up_to_error`, exactly the entries in front of that text are stored, and what was
there before is overwritten with them; and `addRules_reordered`, if nothing is wrong with any entry the
order of the entries makes no difference to any evaluation, and storing them again changes nothing.

Both rest on `addRules_eq`: what comes of storing rules is told from the expressions that are stored
(`parsedRules`). Reordered entries leave dictionaries that are in another order themselves, so the rule
sets are not equal. But evaluation only looks names up (`evaluateWithin_of_rule?`).
-/

namespace AccessPolicy

/-! ## Overwriting dictionaries -/

namespace Dict

variable {α : Type} {d : Dict α} {name : String} {value : α} {pairs : List (String × α)}

/-- Binds the pairs one after the other, in place of what their names were bound to. -/
def insertAll (d : Dict α) (pairs : List (String × α)) : Dict α :=
  pairs.foldl (fun d (name, value) => d.insert name value) d

theorem find?_insertAll (d : Dict α) (pairs : List (String × α)) (name : String) :
    (d.insertAll pairs).find? name = (lastEntry name pairs).or (d.find? name) := by
  induction pairs generalizing d with
  | nil => rfl
  | cons pair pairs ih =>
    obtain ⟨n, v⟩ := pair
    change ((d.insert n v).insertAll pairs).find? name = _
    rw [ih, find?_insert, lastEntry, Option.or_assoc]
    by_cases hn : name = n
    · simp [hn]
    · simp [hn, Ne.symm hn]

theorem insertEntry_of_findEntry {entries : List (String × α)}
    (h : findEntry name entries = some value) : insertEntry name value entries = entries := by
  induction entries with
  | nil => cases h
  | cons entry entries ih =>
    obtain ⟨n, v⟩ := entry
    unfold findEntry at h
    unfold insertEntry
    split at h
    next hn => rw [if_pos hn, Option.some.inj h]
    next hn => rw [if_neg hn, ih h]

/-- Binding a name to what it is bound to changes nothing. -/
theorem insert_of_find? (h : d.find? name = some value) : d.insert name value = d := by
  unfold insert
  congr
  exact insertEntry_of_findEntry h

theorem insertAll_of_find? (h : ∀ n v, (n, v) ∈ pairs → d.find? n = some v) :
    d.insertAll pairs = d := by
  induction pairs with
  | nil => rfl
  | cons pair pairs ih =>
    obtain ⟨n, v⟩ := pair
    change (d.insert n v).insertAll pairs = d
    rw [insert_of_find? (h n v List.mem_cons_self)]
    exact ih fun n' v' hmem => h n' v' (List.mem_cons_of_mem _ hmem)

theorem insertEntry_of_not_mem {entries : List (String × α)}
    (h : name ∉ entries.map Prod.fst) (value : α) :
    insertEntry name value entries = entries ++ [(name, value)] := by
  induction entries with
  | nil => rfl
  | cons entry entries ih =>
    obtain ⟨n, v⟩ := entry
    rw [List.map_cons, List.mem_cons, not_or] at h
    rw [insertEntry, if_neg (Ne.symm h.1), ih h.2, List.cons_append]

/-- Pairs under new names, each of them once, come behind what is there. -/
theorem entries_insertAll (h : ((d.entries ++ pairs).map Prod.fst).Nodup) :
    (d.insertAll pairs).entries = d.entries ++ pairs := by
  induction pairs generalizing d with
  | nil => exact (List.append_nil _).symm
  | cons pair pairs ih =>
    obtain ⟨n, v⟩ := pair
    have hnew : n ∉ d.entries.map Prod.fst := by
      rw [List.map_append, List.map_cons, List.nodup_append] at h
      exact fun hmem => h.2.2 n hmem n List.mem_cons_self rfl
    have hentries : (d.insert n v).entries = d.entries ++ [(n, v)] :=
      insertEntry_of_not_mem hnew v
    change ((d.insert n v).insertAll pairs).entries = _
    rw [ih (by rwa [hentries, List.append_assoc]), hentries, List.append_assoc]
    rfl

theorem eq_of_entries {d d' : Dict α} (h : d.entries = d'.entries) : d = d' := by
  cases d
  cases d'
  cases h
  rfl

/-- A dictionary is made of its entries. -/
theorem ofList_entries (d : Dict α) : ofList d.entries = d :=
  eq_of_entries (@entries_insertAll α empty d.entries d.distinct)

theorem find?_ofList (pairs : List (String × α)) (name : String) :
    (ofList pairs).find? name = lastEntry name pairs := by
  change (empty.insertAll pairs).find? name = _
  rw [find?_insertAll, find?_empty, Option.or_none]

/-- Dictionaries with the same entries bind the same names to the same values. -/
theorem find?_of_perm {d d' : Dict α} (h : d.entries.Perm d'.entries) (name : String) :
    d.find? name = d'.find? name := by
  ext value
  rw [find?_eq_some_iff, find?_eq_some_iff]
  exact h.mem_iff

end Dict

/-! ## The expressions that are stored -/

/-- The expressions of the rules in front of the first text that is none. -/
def parsedRules (rules : List (String × String)) : List (String × Expr) :=
  (applicable rules).filterMap fun (name, text) => (Expr.parse? text).map fun e => (name, e)

/-- The text is the rule, under the same name. -/
def Parses (rule : String × String) (parsed : String × Expr) : Prop :=
  parsed.1 = rule.1 ∧ Expr.parse rule.2 = .ok parsed.2

theorem parsedRules_cons_of_ok {name text : String} {e : Expr} (h : Expr.parse text = .ok e)
    (rules : List (String × String)) :
    parsedRules ((name, text) :: rules) = (name, e) :: parsedRules rules := by
  unfold parsedRules
  rw [applicable_cons_of_ok h]
  exact List.filterMap_cons_some (by simp [parse?_eq_some_iff.mpr h])

theorem parsedRules_cons_of_error {name text : String} {error : SyntaxError}
    (h : Expr.parse text = .error error) (rules : List (String × String)) :
    parsedRules ((name, text) :: rules) = [] := by
  unfold parsedRules
  rw [applicable_cons_of_error h, List.filterMap_nil]

theorem forall₂_parsedRules (rules : List (String × String)) :
    List.Forall₂ Parses (applicable rules) (parsedRules rules) := by
  induction rules with
  | nil => exact .nil
  | cons rule rules ih =>
    obtain ⟨name, text⟩ := rule
    cases h : Expr.parse text with
    | ok e =>
      rw [applicable_cons_of_ok h, parsedRules_cons_of_ok h]
      exact .cons ⟨rfl, h⟩ ih
    | error error =>
      rw [applicable_cons_of_error h, parsedRules_cons_of_error h]
      exact .nil

theorem map_fst_parsedRules (rules : List (String × String)) :
    (parsedRules rules).map Prod.fst = (applicable rules).map Prod.fst := by
  have h := forall₂_parsedRules rules
  generalize applicable rules = texts, parsedRules rules = exprs at h ⊢
  induction h with
  | nil => rfl
  | cons h _ ih => rw [List.map_cons, List.map_cons, h.1, ih]

/-- A text that is stored is a rule. -/
theorem exists_mem_parsedRules {rules : List (String × String)} {name text : String}
    (h : (name, text) ∈ applicable rules) :
    ∃ e, Expr.parse text = .ok e ∧ (name, e) ∈ parsedRules rules := by
  obtain ⟨e, he⟩ := exists_parse_of_mem_applicable h
  refine ⟨e, he, List.mem_filterMap.mpr ⟨_, h, ?_⟩⟩
  dsimp only
  rw [parse?_eq_some_iff.mpr he, Option.map_some]

/-- The rules that are not stored begin with the one that is wrong. -/
theorem exists_eq_applicable_append (rules : List (String × String)) :
    ∃ after, rules = applicable rules ++ after ∧
      (after = [] ∧ rules.findSome? ruleError? = none ∨
        ∃ name text error rest, after = (name, text) :: rest ∧ Expr.parse text = .error error ∧
          rules.findSome? ruleError? = some ⟨name, error⟩) := by
  induction rules with
  | nil => exact ⟨[], rfl, Or.inl ⟨rfl, rfl⟩⟩
  | cons rule rules ih =>
    obtain ⟨name, text⟩ := rule
    rw [List.findSome?_cons]
    cases h : Expr.parse text with
    | ok e =>
      obtain ⟨after, hrules, hafter⟩ := ih
      rw [applicable_cons_of_ok h, ruleError?_eq_none_iff.mpr ⟨e, h⟩]
      exact ⟨after, congrArg _ hrules, hafter⟩
    | error error =>
      have hsome : ruleError? (name, text) = some ⟨name, error⟩ :=
        ruleError?_eq_some_iff.mpr ⟨rfl, h⟩
      rw [applicable_cons_of_error h, hsome]
      exact ⟨_, rfl, Or.inr ⟨name, text, error, rules, rfl, h, rfl⟩⟩

namespace RuleSet

variable (rs : RuleSet)

/-- Stores the expressions one after the other, in place of others of their names. -/
def storeAll (exprs : List (String × Expr)) : RuleSet :=
  { rs with rules := rs.rules.insertAll exprs }

/-- What comes of storing rules: the expressions in front of the first text that is none are stored
and reported. -/
theorem addRules_eq (rules : List (String × String)) :
    rs.addRules rules = ⟨rs.storeAll (parsedRules rules),
      (parsedRules rules).map fun (name, e) => .stored name e, rules.findSome? ruleError?⟩ := by
  induction rules generalizing rs with
  | nil => rfl
  | cons rule rules ih =>
    obtain ⟨name, text⟩ := rule
    rw [List.findSome?_cons]
    cases h : Expr.parse text with
    | ok e =>
      rw [rs.addRules_cons_of_ok h, ih, parsedRules_cons_of_ok h,
        ruleError?_eq_none_iff.mpr ⟨e, h⟩]
      rfl
    | error error =>
      have hsome : ruleError? (name, text) = some ⟨name, error⟩ :=
        ruleError?_eq_some_iff.mpr ⟨rfl, h⟩
      rw [rs.addRules_cons_of_error h, parsedRules_cons_of_error h, hsome]
      rfl

theorem rule?_storeAll (exprs : List (String × Expr)) (name : String) :
    (rs.storeAll exprs).rule? name = (lastEntry name exprs).or (rs.rule? name) :=
  rs.rules.find?_insertAll exprs name

/-- Where each name comes once, it has the rule that is stored for it. -/
theorem rule?_storeAll_of_mem {exprs : List (String × Expr)} {name : String} {e : Expr}
    (hdistinct : (exprs.map Prod.fst).Nodup) (h : (name, e) ∈ exprs) :
    (rs.storeAll exprs).rule? name = some e := by
  have hlast := Dict.lastEntry_entries ⟨exprs, hdistinct⟩ name
  rw [Dict.find?_eq_some_iff.mpr h] at hlast
  rw [rule?_storeAll, hlast, Option.some_or]

/-- A name that nothing is stored for keeps its rule, or has none. -/
theorem rule?_storeAll_of_notMem {exprs : List (String × Expr)} {name : String}
    (h : name ∉ exprs.map Prod.fst) : (rs.storeAll exprs).rule? name = rs.rule? name := by
  rw [rule?_storeAll, lastEntry_eq_none_iff.mpr h, Option.none_or]

end RuleSet

/-- The update stored these rules, and nothing else: what there was before is overwritten with them in
their order. -/
structure Update.Stores (u : Update) (rs : RuleSet) (rules : List (String × String))
    (exprs : List (String × Expr)) : Prop where
  /-- The texts are these expressions. -/
  parses : List.Forall₂ Parses rules exprs
  /-- The rule set is the old one, overwritten. -/
  ruleSet : u.ruleSet = rs.storeAll exprs
  /-- Each of the names has its new rule. -/
  stored : ∀ name text, (name, text) ∈ rules →
    ∃ e, Expr.parse text = .ok e ∧ u.ruleSet.rule? name = some e
  /-- Any other name has the rule that it had, or none. -/
  kept : ∀ name, name ∉ rules.map Prod.fst → u.ruleSet.rule? name = rs.rule? name
  /-- The checkers are the same. -/
  checkers : u.ruleSet.checkers = rs.checkers
  /-- Every rule is reported, in order. -/
  log : u.log = exprs.map fun (name, e) => .stored name e
  /-- None of this is more than detail. -/
  level : ∀ entry ∈ u.log, entry.level = .debug

namespace RuleSet

variable (rs : RuleSet)

theorem addRules_stores (mapping : Dict String) :
    (rs.addRules mapping.entries).Stores rs (applicable mapping.entries)
      (parsedRules mapping.entries) := by
  have hnames := map_fst_parsedRules mapping.entries
  have hdistinct : ((parsedRules mapping.entries).map Prod.fst).Nodup := by
    rw [hnames]
    exact ((List.takeWhile_sublist _).map Prod.fst).nodup mapping.distinct
  rw [addRules_eq]
  refine ⟨forall₂_parsedRules _, rfl, ?_, ?_, rfl, rfl, ?_⟩
  · intro name text hmem
    obtain ⟨e, he, hparsed⟩ := exists_mem_parsedRules hmem
    exact ⟨e, he, rs.rule?_storeAll_of_mem hdistinct hparsed⟩
  · intro name hname
    rw [← hnames] at hname
    exact rs.rule?_storeAll_of_notMem hname
  · intro entry hentry
    obtain ⟨stored, -, rfl⟩ := List.mem_map.mp hentry
    rfl

/-- **Up to the error.** Of a mapping exactly the entries in front of the first text that is no rule are
stored. If there is such a text, its name and its syntax error are the error, and it and all names
behind it have the rules that they had. -/
theorem addRules_up_to_error (mapping : Dict String) :
    ∃ before after exprs, mapping.entries = before ++ after ∧
      (rs.addRules mapping.entries).Stores rs before exprs ∧
      (∀ name text, (name, text) ∈ after →
        (rs.addRules mapping.entries).ruleSet.rule? name = rs.rule? name) ∧
      (after = [] ∧ (rs.addRules mapping.entries).error = none ∨
        ∃ name text error rest, after = (name, text) :: rest ∧ Expr.parse text = .error error ∧
          (rs.addRules mapping.entries).error = some ⟨name, error⟩) := by
  obtain ⟨after, hentries, hafter⟩ := exists_eq_applicable_append mapping.entries
  have hstores := rs.addRules_stores mapping
  refine ⟨applicable mapping.entries, after, _, hentries, hstores, ?_, ?_⟩
  · intro name text hmem
    refine hstores.kept name fun hbefore => ?_
    -- no name is there twice
    have hdistinct := mapping.distinct
    rw [hentries, List.map_append] at hdistinct
    have hafter : name ∈ after.map Prod.fst := List.mem_map.mpr ⟨_, hmem, rfl⟩
    exact (List.nodup_append.mp hdistinct).2.2 name hbefore name hafter rfl
  · rwa [addRules_error]

/-- A text that is no rule stands between two that are, under a name that has a rule already. -/
example :
    let update := (fresh.store "edit" (.const false)).addRules
      [("read", "role:reader"), ("edit", "role:"), ("list", "@")]
    update.error = some ⟨"edit", ⟨5, 1, 6, [.rightSide]⟩⟩ ∧
      update.ruleSet.rules.entries =
        [("edit", .const false), ("read", .check (.identifier "role") "reader")] ∧
      update.log = [.stored "read" (.check (.identifier "role") "reader")] := by
  decide

/-! ## Reordering -/

/-- Rule sets in which the same names have the same rules and checkers do the same, in whatever order
they hold them. -/
theorem evaluateWithin_of_rule? {rs rs' : RuleSet} (hrules : ∀ name, rs.rule? name = rs'.rule? name)
    (hcheckers : rs.checkers = rs'.checkers) :
    ∀ bound, rs.evaluateWithin bound = rs'.evaluateWithin bound := by
  have hdefined : rs.isDefined = rs'.isDefined :=
    funext fun name => congrArg Option.isSome (hrules name)
  intro bound
  induction bound with
  | zero => rfl
  | succ bound ih =>
    funext name request
    unfold evaluateWithin
    rw [hrules name, ih]
    cases rs'.rule? name with
    | none => rfl
    | some e =>
      dsimp only
      rw [runExpr_congr hcheckers hdefined]

theorem addRules_error_eq_none_iff {rules : List (String × String)} :
    (rs.addRules rules).error = none ↔
      ∀ name text, (name, text) ∈ rules → ∃ e, Expr.parse text = .ok e := by
  rw [addRules_error, List.findSome?_eq_none_iff]
  constructor
  · exact fun h name text hmem => ruleError?_eq_none_iff.mp (h _ hmem)
  · exact fun h rule hmem => ruleError?_eq_none_iff.mpr (h rule.1 rule.2 hmem)

/-- If nothing is wrong with any entry, every name has the rule of its entry. -/
theorem rule?_addRules_mapping {mapping : Dict String}
    (h : (rs.addRules mapping.entries).error = none) (name : String) :
    (rs.addRules mapping.entries).ruleSet.rule? name =
      ((mapping.find? name).bind Expr.parse?).or (rs.rule? name) := by
  rw [addRules_error] at h
  rw [rule?_addRules, applicable_eq_self h, Dict.lastEntry_entries]

/-- Storing rules that are stored already changes nothing. -/
theorem storeAll_of_stored {rules : List (String × String)}
    (h : ∀ name text, (name, text) ∈ rules →
      ∃ e, Expr.parse text = .ok e ∧ rs.rule? name = some e) :
    rs.storeAll (parsedRules rules) = rs := by
  have hbound : ∀ name e, (name, e) ∈ parsedRules rules → rs.rules.find? name = some e := by
    intro name e hmem
    obtain ⟨⟨n, text⟩, hrule, hparsed⟩ := List.mem_filterMap.mp hmem
    obtain ⟨e', he', heq⟩ := Option.map_eq_some_iff.mp hparsed
    obtain ⟨rfl, rfl⟩ := Prod.mk.inj heq
    obtain ⟨e'', hparse, hfind⟩ := h n text ((List.takeWhile_sublist _).mem hrule)
    rw [parse?_eq_some_iff, hparse] at he'
    rwa [← Except.ok.inj he']
  unfold storeAll
  rw [Dict.insertAll_of_find? hbound]

/-- **Reordering.** A mapping is stored without an error in one order of its entries exactly if it is in
another. Then every name has the same rule after both, so every evaluation does the same, and storing
the entries once more, in either order, changes nothing. -/
theorem addRules_reordered {mapping mapping' : Dict String}
    (h : mapping.entries.Perm mapping'.entries) :
    ((rs.addRules mapping.entries).error = none ↔ (rs.addRules mapping'.entries).error = none) ∧
      ((rs.addRules mapping.entries).error = none →
        (∀ name, (rs.addRules mapping.entries).ruleSet.rule? name =
          (rs.addRules mapping'.entries).ruleSet.rule? name) ∧
        (∀ bound name request,
          (rs.addRules mapping.entries).ruleSet.evaluateWithin bound name request =
            (rs.addRules mapping'.entries).ruleSet.evaluateWithin bound name request) ∧
        (rs.addRules mapping.entries).ruleSet.addRules mapping.entries =
          rs.addRules mapping.entries ∧
        ((rs.addRules mapping.entries).ruleSet.addRules mapping'.entries).ruleSet =
          (rs.addRules mapping.entries).ruleSet) := by
  have herror : (rs.addRules mapping.entries).error = none ↔
      (rs.addRules mapping'.entries).error = none := by
    rw [addRules_error_eq_none_iff, addRules_error_eq_none_iff]
    simp only [h.mem_iff]
  refine ⟨herror, fun hok => ?_⟩
  have hrules : ∀ name, (rs.addRules mapping.entries).ruleSet.rule? name =
      (rs.addRules mapping'.entries).ruleSet.rule? name := by
    intro name
    rw [rs.rule?_addRules_mapping hok, rs.rule?_addRules_mapping (herror.mp hok),
      Dict.find?_of_perm h]
  have hcheckers : (rs.addRules mapping.entries).ruleSet.checkers =
      (rs.addRules mapping'.entries).ruleSet.checkers := by
    rw [checkers_addRules, checkers_addRules]
  have hstored : ∀ name text, (name, text) ∈ mapping.entries →
      ∃ e, Expr.parse text = .ok e ∧ (rs.addRules mapping.entries).ruleSet.rule? name = some e := by
    intro name text hmem
    obtain ⟨e, he⟩ := rs.addRules_error_eq_none_iff.mp hok name text hmem
    refine ⟨e, he, ?_⟩
    rw [rs.rule?_addRules_mapping hok, Dict.find?_eq_some_iff.mpr hmem, Option.bind_some,
      parse?_eq_some_iff.mpr he, Option.some_or]
  refine ⟨hrules, fun bound name request => ?_, ?_, ?_⟩
  · rw [evaluateWithin_of_rule? hrules hcheckers]
  · -- what is reported, and what is wrong, is told from the entries alone
    rw [addRules_eq, storeAll_of_stored _ hstored, rs.addRules_eq]
  · rw [addRules_eq]
    exact storeAll_of_stored _ fun name text hmem => hstored name text (h.mem_iff.mpr hmem)

/-- A rule and another that refers to it, stored behind an older one: the two orders leave the names in
another order, and nothing else is different. -/
theorem addRules_reordered_pair :
    let mapping : Dict String := ⟨[("read", "role:admin"), ("write", "rule:read or @")], by decide⟩
    let mapping' : Dict String := ⟨[("write", "rule:read or @"), ("read", "role:admin")], by decide⟩
    let update := (fresh.store "old" (.const true)).addRules mapping.entries
    let update' := (fresh.store "old" (.const true)).addRules mapping'.entries
    update.error = none ∧ update'.error = none ∧
      update.ruleSet.rules.keys = ["old", "read", "write"] ∧
      update'.ruleSet.rules.keys = ["old", "write", "read"] ∧
      (∀ bound name request, update.ruleSet.evaluateWithin bound name request =
        update'.ruleSet.evaluateWithin bound name request) ∧
      update.ruleSet.addRules mapping.entries = update := by
  intro mapping mapping' update update'
  have hperm : mapping.entries.Perm mapping'.entries := .swap _ _ _
  have hok : update.error = none := by decide
  obtain ⟨herror, hsame⟩ := addRules_reordered (fresh.store "old" (.const true)) hperm
  obtain ⟨-, hevaluate, hagain, -⟩ := hsame hok
  exact ⟨hok, herror.mp hok, by decide, by decide, hevaluate, hagain⟩

end RuleSet

end AccessPolicy
