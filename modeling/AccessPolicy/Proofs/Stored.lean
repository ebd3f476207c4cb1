import AccessPolicy.Loader.Standard
import AccessPolicy.Proofs.Rendering
import AccessPolicy.Proofs.Evaluation
import AccessPolicy.Session
import AccessPolicy.Sources

/-!
# Rules that are stored

A rule set holds nothing but rules that were parsed (`RuleSet.Parsed`), whatever is done to it: what
goes wrong leaves it as it was, or with some of the rules that were to be stored. One step keeps
this (`RuleSet.Parsed.perform`, `Build.addFile_parsed`), hence whole sessions and builds do.

Main statement: `render_keeps_leaves`, a stored rule may always be rendered and parsed again. What
comes back has the same leaves from left to right, but for closing parentheses at the end of right
sides. The rendered text may be grouped in another way (`render_changes_meaning`), so this is
proved for all its readings at once (`CompleteReading.sameLeaves`): they are scans with the same
symbols but for what right sides give back.
-/

namespace AccessPolicy

/-! ## Leaves -/

/-- The same leaf, but for closing parentheses at the end of the right side. -/
inductive SameLeaf : Expr → Expr → Prop
  | refl {e : Expr} : SameLeaf e e
  | closers {lhs : LeftSide} {rhs : List Char} {n m : Nat} :
      SameLeaf (.check lhs (String.ofList (rhs ++ AccessPolicy.closers n)))
        (.check lhs (String.ofList (rhs ++ AccessPolicy.closers m)))

/-- The leaf that a symbol is. -/
def Symbol.leaf? : Symbol → Option Expr
  | .const value => some (.const value)
  | .check lhs rhs => some (.check lhs (String.ofList rhs))
  | _ => none

/-- The leaf when its right side gives back whatever it can. -/
def Expr.stemmed : Expr → Expr
  | .check lhs rhs => .check lhs (String.ofList (stem rhs.toList))
  | e => e

theorem sameLeaf_of_stemmed_eq {e e' : Expr} (h : e.stemmed = e'.stemmed) : SameLeaf e e' := by
  cases e with
  | check lhs rhs =>
    cases e' with
    | check lhs' rhs' =>
      obtain ⟨rfl, hstem⟩ := Expr.check.inj h
      have hsame := @SameLeaf.closers lhs (stem rhs.toList) (spareClosers rhs.toList)
        (spareClosers rhs'.toList)
      rw [stem_append_closers, String.ofList_injective hstem, stem_append_closers,
        String.ofList_toList, String.ofList_toList] at hsame
      exact hsame
    | _ => cases h
  | _ =>
    cases e' <;> cases h
    exact .refl

/-- The leaves of a tree are those among its symbols. -/
theorem Forms.leaves_eq {phrase : Phrase} {ss : List Symbol} {e : Expr} (h : Forms phrase ss e) :
    e.leaves = ss.filterMap Symbol.leaf? := by
  induction h with
  | conjunction _ ih | unary _ ih | atom _ ih => exact ih
  | or _ _ ihleft ihright | and _ _ ihleft ihright =>
    rw [Expr.leaves, ihleft, ihright, List.filterMap_append]
    rfl
  | not _ ih =>
    rw [Expr.leaves, ih]
    rfl
  | const | check => rfl
  | group _ ih =>
    rw [ih, List.filterMap_cons, List.filterMap_append]
    exact (List.append_nil _).symm

theorem leaves_spread (ss : List Symbol) :
    (spread ss).filterMap Symbol.leaf? = (ss.filterMap Symbol.leaf?).map Expr.stemmed := by
  rw [filterMap_spread rfl, List.map_filterMap]
  refine congrArg (List.filterMap · ss) (funext fun s => ?_)
  cases s with
  | check lhs rhs => simp [Symbol.stemmed, Symbol.leaf?, Expr.stemmed]
  | _ => rfl

/-- **Leaves of one text.** All complete readings have the same leaves, but for what right sides
give back. -/
theorem CompleteReading.sameLeaves {cs : List Char} {e e' : Expr} (h : CompleteReading cs e)
    (h' : CompleteReading cs e') : List.Forall₂ SameLeaf e.leaves e'.leaves := by
  obtain ⟨ss, rest, hscan, hrest, hform⟩ := completeReading_iff.mp h
  obtain ⟨ss', rest', hscan', hrest', hform'⟩ := completeReading_iff.mp h'
  have hspread := hscan.spread_unique hrest hscan' hrest'
  have hmap := congrArg (List.filterMap Symbol.leaf?) hspread
  rw [leaves_spread, leaves_spread, ← List.forall₂_eq_eq_eq, List.forall₂_map_left_iff,
    List.forall₂_map_right_iff] at hmap
  rw [hform.leaves_eq, hform'.leaves_eq]
  exact hmap.imp fun _ _ => sameLeaf_of_stemmed_eq

theorem Regroups.leaves_eq {e e' : Expr} (h : Regroups e e') : e.leaves = e'.leaves := by
  induction h with
  | refl => rfl
  | trans _ _ ih ih' => exact ih.trans ih'
  | andAssoc | orAssoc => simp only [Expr.leaves, List.append_assoc]
  | and _ _ iha ihb | or _ _ iha ihb => rw [Expr.leaves, iha, ihb, Expr.leaves]
  | not _ ih => rw [Expr.leaves, ih, Expr.leaves]

/-- Rendered, the expression is parsed again, and its leaves come back in their order, but for
closing parentheses at the end of right sides. -/
def Expr.ReadsBack (e : Expr) : Prop :=
  ∃ e', Expr.parse e.render = .ok e' ∧ List.Forall₂ SameLeaf e.leaves e'.leaves

/-- The left-nested form of an expression is a reading of its text, and has the same leaves. -/
theorem readsBack_of_wellFormed {e : Expr} (hwf : e.WellFormed) : e.ReadsBack := by
  have hnested := completeReading_leftNested hwf
  obtain ⟨e', hparse⟩ := exists_parse hnested
  have hleaves := hnested.sameLeaves (completeReading_of_parse hparse)
  rw [← (regroups_leftNested e).leaves_eq] at hleaves
  exact ⟨e', hparse, hleaves⟩

/-! ## What rule sets hold -/

namespace RuleSet

/-- Every rule of the set is the rule of some text. -/
def Parsed (rs : RuleSet) : Prop :=
  ∀ name e, rs.rule? name = some e → ∃ text, Expr.parse text = .ok e

theorem parsed_fresh : fresh.Parsed := nofun

variable {rs : RuleSet}

theorem Parsed.addRule (h : rs.Parsed) (name text : String) :
    (rs.addRule name text).ruleSet.Parsed := by
  unfold RuleSet.addRule
  split
  next e hparse =>
    intro n e' hrule
    rw [rule?_store] at hrule
    split at hrule
    next =>
      obtain rfl := Option.some.inj hrule
      exact ⟨text, hparse⟩
    next => exact h n e' hrule
  next => exact h

/-- Of several rules, some may be stored before one goes wrong. -/
theorem Parsed.addRules (h : rs.Parsed) (rules : List (String × String)) :
    (rs.addRules rules).ruleSet.Parsed := by
  induction rules generalizing rs with
  | nil => exact h
  | cons rule rules ih =>
    obtain ⟨name, text⟩ := rule
    have hfirst := h.addRule name text
    unfold RuleSet.addRules
    dsimp only
    split
    next => exact hfirst
    next => exact ih hfirst

/-- One action leaves a rule set with parsed rules, whatever comes of it. -/
theorem Parsed.perform (h : rs.Parsed) (L : Loader) (action : Action) :
    (rs.perform L action).1.Parsed := by
  cases action with
  | create => exact parsed_fresh
  | addRule name text => exact h.addRule name text
  | addRules rules => exact h.addRules rules.entries
  | load document =>
    unfold RuleSet.perform
    dsimp only
    split
    next rules _ => exact h.addRules rules.entries
    next => exact h
  | addChecker | evaluate | check | inspectRule | inspect => exact h

end RuleSet

namespace Session

/-- Every rule set of the session holds parsed rules. -/
def Parsed (s : Session) : Prop := ∀ name, (s.ruleSet name).Parsed

theorem ruleSet_insert (s : Session) (name n : String) (rs : RuleSet) :
    (Session.mk (s.ruleSets.insert name rs)).ruleSet n = if n = name then rs else s.ruleSet n := by
  unfold ruleSet
  rw [Dict.find?_insert]
  split <;> rfl

/-- Before anything is done, the rule sets of all names are fresh. -/
theorem ruleSet_start (name : String) : start.ruleSet name = RuleSet.fresh := by
  have hinsert := ruleSet_insert ⟨∅⟩ mainName name RuleSet.fresh
  split at hinsert
  next => exact hinsert
  next => exact hinsert

theorem parsed_start : start.Parsed := by
  intro name
  rw [ruleSet_start]
  exact RuleSet.parsed_fresh

variable {s : Session}

theorem Parsed.perform (h : s.Parsed) (L : Loader) (step : SessionStep) :
    (s.perform L step).1.Parsed := by
  intro name
  have hinsert := ruleSet_insert s step.ruleSet name
    ((s.ruleSet step.ruleSet).perform L step.action).1
  unfold Session.perform
  dsimp only
  rw [hinsert]
  split
  next => exact (h step.ruleSet).perform L step.action
  next => exact h name

/-- Whatever is done in a session, all its rule sets hold parsed rules. -/
theorem Parsed.run (h : s.Parsed) (L : Loader) (steps : List SessionStep) :
    (s.run L steps).1.Parsed := by
  induction steps generalizing s with
  | nil => exact h
  | cons step steps ih => exact ih (h.perform L step)

end Session

namespace Build

variable {b : Build}

theorem addFile_parsed (h : b.ruleSet.Parsed) (L : Loader) (d : Disk) (path : Path) :
    (b.addFile L d path).ruleSet.Parsed := by
  unfold addFile
  split
  next => exact h
  next => exact h.addRules _

theorem addFiles_parsed (h : b.ruleSet.Parsed) (L : Loader) (d : Disk) (paths : List Path) :
    (b.addFiles L d paths).ruleSet.Parsed := by
  induction paths generalizing b with
  | nil => exact h
  | cons path paths ih =>
    have hfirst := addFile_parsed h L d path
    unfold addFiles
    dsimp only
    split
    next => exact hfirst
    next => exact ih hfirst

end Build

theorem Disk.build_parsed (d : Disk) (L : Loader) (c : Config) (baseDirectory : Option Path) :
    (d.build L c baseDirectory).ruleSet.Parsed := by
  have hstart : Build.start.ruleSet.Parsed := RuleSet.parsed_fresh
  have hfiles := Build.addFiles_parsed hstart L d (c.paths baseDirectory)
  unfold Disk.build
  dsimp only
  split
  next => exact hfiles
  next => exact hfiles.addRules _

/-- **Stored rules.** A rule that is stored in a rule set of a session, or comes from the files of a
config, with any loader, is rendered to a text that is parsed again, to the same leaves but for
closing parentheses at the end of right sides. So is every other well-formed expression. -/
theorem render_keeps_leaves :
    (∀ (L : Loader) (steps : List SessionStep) (ruleSet name : String) (e : Expr),
      ((Session.start.run L steps).1.ruleSet ruleSet).rule? name = some e → e.ReadsBack) ∧
    (∀ (L : Loader) (d : Disk) (c : Config) (baseDirectory : Option Path) (name : String)
      (e : Expr), (d.build L c baseDirectory).ruleSet.rule? name = some e → e.ReadsBack) ∧
    ∀ e : Expr, e.WellFormed → e.ReadsBack := by
  refine ⟨?_, ?_, fun _ => readsBack_of_wellFormed⟩
  · intro L steps ruleSet name e hrule
    obtain ⟨text, hparse⟩ := Session.parsed_start.run L steps ruleSet name e hrule
    exact readsBack_of_wellFormed (wellFormed_of_parse hparse)
  · intro L d c baseDirectory name e hrule
    obtain ⟨text, hparse⟩ := d.build_parsed L c baseDirectory name e hrule
    exact readsBack_of_wellFormed (wellFormed_of_parse hparse)

/-- A session that stores a rule under one name, then fails to store another in its place, and asks
for the rule that is there: a parenthesis has changed its place in what is read back. -/
theorem render_keeps_leaves_after_failure :
    ∃ e', Expr.parse "(a:x or b:y) and c:z)" = .ok e' ∧
      List.Forall₂ SameLeaf [.check (.identifier "a") "x", .check (.identifier "b") "y",
        .check (.identifier "c") "z)"] e'.leaves :=
  render_keeps_leaves.1 .standard
    [⟨"s", .addRule "p" "( a:x or b:y ) and c:z)"⟩, ⟨"s", .addRule "p" "a:x or"⟩] "s" "p"
    (.and (.or (.check (.identifier "a") "x") (.check (.identifier "b") "y"))
      (.check (.identifier "c") "z)")) (by decide)

end AccessPolicy
