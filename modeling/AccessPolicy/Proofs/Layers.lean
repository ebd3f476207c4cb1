import AccessPolicy.Loader.Standard
import AccessPolicy.Proofs.Updates
import AccessPolicy.Sources

/-!
# Rule sets in layers

A config is built from its sources one after the other: its policy files in order, and then the
rules that it holds itself (`Config.sources`). Main statement `build_layers`: a rule set comes of it
exactly if every source fits, with every text in it, and each name has its rule from the last source
that has the name. Otherwise the first source that does not fit says what is wrong, and of the files
those are reported that were loaded up to there.

One source is a layer on top of what is built already (`Build.addSource_error`, `Build.news_addSource`,
`Build.rule?_addSource`), and the build goes on as long as layers fit (`Build.addSources_append`).
-/

namespace AccessPolicy

/-- What rules come from. -/
inductive Source where
  /-- A policy file. -/
  | file (path : Path)
  /-- The rules that a config holds itself. -/
  | inline (rules : Dict String)

namespace Source

/-- The rules of a source, if it can be read. -/
def rules (L : Loader) (d : Disk) : Source → Except LoadError (Dict String)
  | .file path => d.readPolicy L path
  | .inline rules => .ok rules

/-- A source fits if it can be read and every text in it is a rule. -/
def Fits (L : Loader) (d : Disk) (s : Source) : Prop :=
  ∃ rules, s.rules L d = .ok rules ∧ ∀ name text, (name, text) ∈ rules.entries →
    ∃ e, Expr.parse text = .ok e

/-- What is wrong with a source: it cannot be read, or a text in it is no rule, and then the first
such text counts. -/
inductive FailsWith (L : Loader) (d : Disk) (s : Source) : LoadError → Prop
  | unread {error : LoadError} (h : s.rules L d = .error error) : FailsWith L d s error
  | rule {rules : Dict String} {before after : List (String × String)} {name text : String}
      {error : SyntaxError} (h : s.rules L d = .ok rules)
      (hentries : rules.entries = before ++ (name, text) :: after)
      (hbefore : ∀ n t, (n, t) ∈ before → ∃ e, Expr.parse t = .ok e)
      (htext : Expr.parse text = .error error) : FailsWith L d s (.rule ⟨name, error⟩)

/-- What is reported of a source: a file that is loaded. -/
def loaded? (L : Loader) (d : Disk) : Source → Option LogEntry
  | .file path =>
    match d.readPolicy L path with
    | .ok rules => some (.loaded rules.size path.text)
    | .error _ => none
  | .inline _ => none

/-- The text that a source has for a name. -/
def text? (L : Loader) (d : Disk) (name : String) (s : Source) : Option String :=
  (s.rules L d).toOption.bind (·.find? name)

/-- What is wrong with a source, if anything is. -/
def error? (L : Loader) (d : Disk) (s : Source) : Option LoadError :=
  match s.rules L d with
  | .error error => some error
  | .ok rules => (rules.entries.findSome? ruleError?).map .rule

variable {L : Loader} {d : Disk} {s : Source}

theorem error?_of_ok {rules : Dict String} (h : s.rules L d = .ok rules) :
    s.error? L d = (rules.entries.findSome? ruleError?).map .rule := by
  rw [error?, h]

theorem error?_eq_none_iff : s.error? L d = none ↔ s.Fits L d := by
  unfold Fits
  cases h : s.rules L d with
  | error error => simp [error?, h]
  | ok rules =>
    rw [error?_of_ok h, Option.map_eq_none_iff, List.findSome?_eq_none_iff]
    constructor
    · exact fun hnone => ⟨rules, rfl, fun name text hmem =>
        ruleError?_eq_none_iff.mp (hnone (name, text) hmem)⟩
    · rintro ⟨rules', heq, hparse⟩ ⟨name, text⟩ hmem
      obtain rfl := Except.ok.inj heq
      exact ruleError?_eq_none_iff.mpr (hparse name text hmem)

theorem failsWith_of_error? {error : LoadError} (h : s.error? L d = some error) :
    s.FailsWith L d error := by
  cases hrules : s.rules L d with
  | error unread =>
    rw [error?, hrules] at h
    obtain rfl := Option.some.inj h
    exact .unread hrules
  | ok rules =>
    rw [error?_of_ok hrules, Option.map_eq_some_iff] at h
    obtain ⟨ruleError, hfirst, rfl⟩ := h
    obtain ⟨before, ⟨name, text⟩, after, hentries, hwrong, hbefore⟩ :=
      List.findSome?_eq_some_iff.mp hfirst
    obtain ⟨hname, htext⟩ := ruleError?_eq_some_iff.mp hwrong
    obtain ⟨rule, syntaxError⟩ := ruleError
    obtain rfl := hname
    exact .rule hrules hentries (fun n t hmem => ruleError?_eq_none_iff.mp (hbefore (n, t) hmem))
      htext

/-- A text of a source that fits is a rule. -/
theorem Fits.exists_parse (h : s.Fits L d) {name text : String}
    (htext : s.text? L d name = some text) : ∃ e, Expr.parse text = .ok e := by
  obtain ⟨rules, hrules, hparse⟩ := h
  rw [text?, hrules] at htext
  exact hparse name text (Dict.find?_eq_some_iff.mp htext)

end Source

/-- The sources of a config: its policy files in order, and then its own rules. -/
def Config.sources (c : Config) (baseDirectory : Option Path) : List Source :=
  (c.paths baseDirectory).map .file ++ [.inline c.rules]

/-- The text that the last source which has a name has for it. -/
def lastText (L : Loader) (d : Disk) (name : String) (sources : List Source) : Option String :=
  sources.reverse.findSome? (·.text? L d name)

theorem lastText_cons (L : Loader) (d : Disk) (name : String) (s : Source) (rest : List Source) :
    lastText L d name (s :: rest) = (lastText L d name rest).or (s.text? L d name) := by
  rw [lastText, List.reverse_cons, List.findSome?_append, List.findSome?_singleton]
  rfl

theorem lastText_split {L : Loader} {d : Disk} {name text : String}
    {before after : List Source} {s : Source} (htext : s.text? L d name = some text)
    (hafter : ∀ s' ∈ after, s'.text? L d name = none) :
    lastText L d name (before ++ s :: after) = some text := by
  refine List.findSome?_eq_some_iff.mpr ⟨after.reverse, s, before.reverse, by simp, htext, ?_⟩
  exact fun s' hmem => hafter s' (List.mem_reverse.mp hmem)

/-! ## One layer -/

namespace Build

variable {L : Loader} {d : Disk} {s : Source} (b : Build)

/-- Stores the rules of a source on top. -/
def addSource (L : Loader) (d : Disk) : Source → Build
  | .file path => b.addFile L d path
  | .inline rules => b.addRules rules

/-- The news among what was reported. -/
def news : List LogEntry := b.log.filter fun entry => entry.level = .info

theorem addSource_of_error {error : LoadError} (h : s.rules L d = .error error) :
    b.addSource L d s = ⟨b.ruleSet, b.log, some error⟩ ∧ s.loaded? L d = none := by
  cases s with
  | inline rules => cases h
  | file path =>
    have hread : d.readPolicy L path = .error error := h
    simp [addSource, addFile, Disk.loadPolicy, Source.loaded?, hread]

theorem addSource_of_ok {rules : Dict String} (h : s.rules L d = .ok rules) :
    b.addSource L d s =
      ⟨(b.ruleSet.addRules rules.entries).ruleSet,
        b.log ++ (s.loaded? L d).toList ++ (b.ruleSet.addRules rules.entries).log,
        (b.ruleSet.addRules rules.entries).error.map .rule⟩ := by
  cases s with
  | inline rules' =>
    obtain rfl := Except.ok.inj h
    simp [addSource, addRules, Source.loaded?]
  | file path =>
    have hread : d.readPolicy L path = .ok rules := h
    simp [addSource, addFile, addRules, Disk.loadPolicy, Source.loaded?, hread]

theorem addSource_error : (b.addSource L d s).error = s.error? L d := by
  cases h : s.rules L d with
  | error error => rw [(b.addSource_of_error h).1, Source.error?, h]
  | ok rules => rw [b.addSource_of_ok h, Source.error?_of_ok h, RuleSet.addRules_error]

/-- To store a rule is no news. -/
theorem filter_info_addRules (rs : RuleSet) (rules : List (String × String)) :
    ((rs.addRules rules).log.filter fun entry => entry.level = .info) = [] := by
  rw [RuleSet.addRules_log, List.filter_eq_nil_iff]
  intro entry hmem
  obtain ⟨⟨name, text⟩, -, hentry⟩ := List.mem_filterMap.mp hmem
  obtain ⟨e, -, rfl⟩ := Option.map_eq_some_iff.mp hentry
  simp [LogEntry.level]

theorem level_of_loaded? {entry : LogEntry} (h : s.loaded? L d = some entry) :
    entry.level = .info := by
  cases s with
  | inline rules => cases h
  | file path =>
    cases hread : d.readPolicy L path with
    | error => simp [Source.loaded?, hread] at h
    | ok rules =>
      rw [Source.loaded?, hread] at h
      obtain rfl := Option.some.inj h
      rfl

theorem news_addSource : (b.addSource L d s).news = b.news ++ (s.loaded? L d).toList := by
  cases h : s.rules L d with
  | error error =>
    obtain ⟨hadd, hloaded⟩ := b.addSource_of_error h
    rw [hadd, hloaded]
    exact (List.append_nil _).symm
  | ok rules =>
    have hloaded : (s.loaded? L d).toList.filter (fun entry => entry.level = .info) =
        (s.loaded? L d).toList := by
      rw [List.filter_eq_self]
      intro entry hmem
      exact decide_eq_true (level_of_loaded? (Option.mem_toList.mp hmem))
    rw [b.addSource_of_ok h, news, List.filter_append, List.filter_append, hloaded,
      filter_info_addRules, List.append_nil]
    rfl

/-- A source that fits decides the rules of its names. -/
theorem rule?_addSource (h : s.Fits L d) (name : String) :
    (b.addSource L d s).ruleSet.rule? name =
      ((s.text? L d name).bind Expr.parse?).or (b.ruleSet.rule? name) := by
  have herror := Source.error?_eq_none_iff.mpr h
  obtain ⟨rules, hrules, -⟩ := h
  rw [Source.error?_of_ok hrules, Option.map_eq_none_iff] at herror
  rw [b.addSource_of_ok hrules, RuleSet.rule?_addRules, applicable_eq_self herror,
    Dict.lastEntry_entries, Source.text?, hrules]
  rfl

/-! ## All layers -/

/-- Stores the rules of sources on top, up to the first that does not fit. -/
def addSources (L : Loader) (d : Disk) (b : Build) : List Source → Build
  | [] => b
  | s :: rest =>
    let next := b.addSource L d s
    match next.error with
    | some _ => next
    | none => addSources L d next rest

theorem addSources_cons_of_fits (h : s.Fits L d) (rest : List Source) :
    addSources L d b (s :: rest) = addSources L d (b.addSource L d s) rest := by
  rw [addSources, addSource_error, Source.error?_eq_none_iff.mpr h]

theorem addSources_cons_of_error {error : LoadError} (h : s.error? L d = some error)
    (rest : List Source) : addSources L d b (s :: rest) = b.addSource L d s := by
  rw [addSources, addSource_error, h]

/-- Where sources fit, the build goes on with the next. -/
theorem addSources_append {before : List Source} (h : ∀ s ∈ before, s.Fits L d)
    (after : List Source) :
    addSources L d b (before ++ after) = addSources L d (addSources L d b before) after := by
  induction before generalizing b with
  | nil => rfl
  | cons s before ih =>
    have hfits := h s List.mem_cons_self
    rw [List.cons_append, b.addSources_cons_of_fits hfits, b.addSources_cons_of_fits hfits]
    exact ih _ fun s' hmem => h s' (List.mem_cons_of_mem _ hmem)

theorem addSources_error {sources : List Source} (hb : b.error = none)
    (h : ∀ s ∈ sources, s.Fits L d) : (addSources L d b sources).error = none := by
  induction sources generalizing b with
  | nil => exact hb
  | cons s rest ih =>
    have hfits := h s List.mem_cons_self
    rw [b.addSources_cons_of_fits hfits]
    refine ih _ ?_ fun s' hmem => h s' (List.mem_cons_of_mem _ hmem)
    rw [addSource_error, Source.error?_eq_none_iff.mpr hfits]

theorem news_addSources {sources : List Source} (h : ∀ s ∈ sources, s.Fits L d) :
    (addSources L d b sources).news = b.news ++ sources.filterMap (·.loaded? L d) := by
  induction sources generalizing b with
  | nil => exact (List.append_nil _).symm
  | cons s rest ih =>
    rw [b.addSources_cons_of_fits (h s List.mem_cons_self),
      ih _ fun s' hmem => h s' (List.mem_cons_of_mem _ hmem), news_addSource, List.append_assoc]
    cases hloaded : s.loaded? L d with
    | none => rw [List.filterMap_cons_none hloaded]; rfl
    | some entry => rw [List.filterMap_cons_some hloaded]; rfl

/-- The last source that has a name decides its rule. -/
theorem rule?_addSources {sources : List Source} (h : ∀ s ∈ sources, s.Fits L d)
    (name : String) :
    (addSources L d b sources).ruleSet.rule? name =
      ((lastText L d name sources).bind Expr.parse?).or (b.ruleSet.rule? name) := by
  induction sources generalizing b with
  | nil => rfl
  | cons s rest ih =>
    have hrest : ∀ s' ∈ rest, s'.Fits L d := fun s' hmem => h s' (List.mem_cons_of_mem _ hmem)
    have hfits := h s List.mem_cons_self
    rw [b.addSources_cons_of_fits hfits, ih _ hrest, b.rule?_addSource hfits, lastText_cons]
    cases hlast : lastText L d name rest with
    | none => rfl
    | some text =>
      -- the text is one of a later source, hence a rule
      obtain ⟨s', hmem, htext⟩ := List.exists_of_findSome?_eq_some hlast
      obtain ⟨e, he⟩ := (hrest s' (List.mem_reverse.mp hmem)).exists_parse htext
      simp [parse?_eq_some_iff.mpr he]

/-- Files and then rules are added as the sources that they are. -/
theorem addSources_files (hb : b.error = none) (paths : List Path) (rules : Dict String) :
    addSources L d b (paths.map .file ++ [.inline rules]) =
      match (b.addFiles L d paths).error with
      | some _ => b.addFiles L d paths
      | none => (b.addFiles L d paths).addRules rules := by
  induction paths generalizing b with
  | nil =>
    rw [addFiles, hb, List.map_nil, List.nil_append, addSources]
    dsimp only
    split
    next => rfl
    next => rfl
  | cons path paths ih =>
    rw [addFiles, List.map_cons, List.cons_append, addSources]
    dsimp only [addSource]
    cases herror : (b.addFile L d path).error with
    | some error => simp only [herror]
    | none => exact ih _ herror

end Build

theorem Disk.build_eq_addSources (d : Disk) (L : Loader) (c : Config)
    (baseDirectory : Option Path) :
    d.build L c baseDirectory = Build.start.addSources L d (c.sources baseDirectory) :=
  (Build.start.addSources_files rfl (c.paths baseDirectory) c.rules).symm

/-! ## Success and failure -/

/-- A policy file can be read if it is there, holds a text, and that is a policy. -/
theorem Disk.readPolicy_eq_ok_iff {L : Loader} {d : Disk} {path : Path} {rules : Dict String} :
    d.readPolicy L path = .ok rules ↔ ∃ bytes text, d.find? path.text = some (.file bytes) ∧
      textOfBytes? bytes = some text ∧ AccessPolicy.readPolicy L text = .ok rules := by
  unfold Disk.readPolicy Disk.readText
  cases hfind : d.find? path.text with
  | none => simp
  | some entry =>
    cases entry with
    | directory => simp
    | file bytes =>
      cases htext : textOfBytes? bytes with
      | none => simp [htext]
      | some text =>
        cases hread : AccessPolicy.readPolicy L text <;> simp [htext, hread, Except.mapError]

/-- Either all sources fit, or there is a first that does not. -/
theorem fits_or_first_failure (L : Loader) (d : Disk) (sources : List Source) :
    (∀ s ∈ sources, s.Fits L d) ∨ ∃ before s after error, sources = before ++ s :: after ∧
      (∀ s' ∈ before, s'.Fits L d) ∧ s.error? L d = some error := by
  cases h : sources.findSome? (·.error? L d) with
  | none =>
    rw [List.findSome?_eq_none_iff] at h
    exact Or.inl fun s hmem => Source.error?_eq_none_iff.mp (h s hmem)
  | some error =>
    obtain ⟨before, s, after, hsources, herror, hbefore⟩ := List.findSome?_eq_some_iff.mp h
    exact Or.inr ⟨before, s, after, error, hsources,
      fun s' hmem => Source.error?_eq_none_iff.mp (hbefore s' hmem), herror⟩

namespace Disk

variable {L : Loader} {d : Disk} {c : Config} {baseDirectory : Option Path}

theorem build_of_fits (h : ∀ s ∈ c.sources baseDirectory, s.Fits L d) :
    (d.build L c baseDirectory).error = none ∧
    (d.build L c baseDirectory).news = (c.sources baseDirectory).filterMap (·.loaded? L d) ∧
    ∀ name, (d.build L c baseDirectory).ruleSet.rule? name =
      (lastText L d name (c.sources baseDirectory)).bind Expr.parse? := by
  rw [build_eq_addSources]
  refine ⟨Build.start.addSources_error rfl h, Build.start.news_addSources h, fun name => ?_⟩
  rw [Build.start.rule?_addSources h]
  exact Option.or_none

theorem build_of_failure {before after : List Source} {s : Source} {error : LoadError}
    (hsources : c.sources baseDirectory = before ++ s :: after)
    (hbefore : ∀ s' ∈ before, s'.Fits L d) (herror : s.error? L d = some error) :
    (d.build L c baseDirectory).error = some error ∧
    (d.build L c baseDirectory).news =
      before.filterMap (·.loaded? L d) ++ (s.loaded? L d).toList := by
  rw [build_eq_addSources, hsources, Build.addSources_append _ hbefore,
    Build.addSources_cons_of_error _ herror, Build.addSource_error, Build.news_addSource,
    Build.news_addSources _ hbefore]
  exact ⟨herror, rfl⟩

/-- A rule set comes of a config exactly if all of its sources fit. -/
theorem build_error_eq_none_iff :
    (d.build L c baseDirectory).error = none ↔ ∀ s ∈ c.sources baseDirectory, s.Fits L d := by
  refine ⟨fun hnone => ?_, fun h => (build_of_fits h).1⟩
  rcases fits_or_first_failure L d (c.sources baseDirectory) with h |
    ⟨before, s, after, error, hsources, hbefore, herror⟩
  · exact h
  · rw [(build_of_failure hsources hbefore herror).1] at hnone
    cases hnone

/-- All sources fit if all files do, as they are read, and the rules of the config itself. -/
theorem sources_fit_iff : (∀ s ∈ c.sources baseDirectory, s.Fits L d) ↔
    (∀ path ∈ c.paths baseDirectory, ∃ bytes text rules,
      d.find? path.text = some (.file bytes) ∧ textOfBytes? bytes = some text ∧
      AccessPolicy.readPolicy L text = .ok rules ∧
      ∀ name text, (name, text) ∈ rules.entries → ∃ e, Expr.parse text = .ok e) ∧
    ∀ name text, (name, text) ∈ c.rules.entries → ∃ e, Expr.parse text = .ok e := by
  unfold Config.sources
  rw [List.forall_mem_append, List.forall_mem_map, List.forall_mem_singleton]
  refine and_congr (forall₂_congr fun path _ => ?_) ?_
  · constructor
    · rintro ⟨rules, hrules, hparse⟩
      obtain ⟨bytes, text, hfind, htext, hread⟩ := readPolicy_eq_ok_iff.mp hrules
      exact ⟨bytes, text, rules, hfind, htext, hread, hparse⟩
    · rintro ⟨bytes, text, rules, hfind, htext, hread, hparse⟩
      exact ⟨rules, readPolicy_eq_ok_iff.mpr ⟨bytes, text, hfind, htext, hread⟩, hparse⟩
  · constructor
    · rintro ⟨rules, hrules, hparse⟩
      exact Except.ok.inj hrules ▸ hparse
    · exact fun hparse => ⟨c.rules, rfl, hparse⟩

/-- The names that have a rule are those that some source has. -/
theorem mem_ruleNames_build (h : ∀ s ∈ c.sources baseDirectory, s.Fits L d) (name : String) :
    name ∈ (d.build L c baseDirectory).ruleSet.ruleNames ↔
      ∃ s ∈ c.sources baseDirectory, ∃ text, s.text? L d name = some text := by
  rw [RuleSet.ruleNames, Dict.mem_sortedKeys, ← Dict.find?_isSome_iff]
  change ((d.build L c baseDirectory).ruleSet.rule? name).isSome ↔ _
  rw [(build_of_fits h).2.2 name]
  cases hlast : lastText L d name (c.sources baseDirectory) with
  | none =>
    have hnone : ∀ s ∈ c.sources baseDirectory, s.text? L d name = none := fun s hmem =>
      List.findSome?_eq_none_iff.mp hlast s (List.mem_reverse.mpr hmem)
    simp +contextual [hnone]
  | some text =>
    obtain ⟨s, hmem, htext⟩ := List.exists_of_findSome?_eq_some hlast
    have hsource := List.mem_reverse.mp hmem
    obtain ⟨e, he⟩ := (h s hsource).exists_parse htext
    refine ⟨fun _ => ⟨s, hsource, text, htext⟩, fun _ => ?_⟩
    rw [Option.bind_some, parse?_eq_some_iff.mpr he]
    rfl

end Disk

/-- **Layers.** With any loader, a rule set comes of a config exactly if each of its policy files is
there, holds a text that is a policy, and every text in it and in the config itself is a rule, also
those that are stored over later. Then the names are those of all sources, each with the rule of the
last source that has it, and all files are reported. Otherwise the first source that does not fit
says what is wrong, and reported are the files in front of it, and itself if only a text in it is no
rule. -/
theorem build_layers (L : Loader) (d : Disk) (c : Config) (baseDirectory : Option Path) :
    ((d.build L c baseDirectory).error = none ↔
      (∀ path ∈ c.paths baseDirectory, ∃ bytes text rules,
        d.find? path.text = some (.file bytes) ∧ textOfBytes? bytes = some text ∧
        readPolicy L text = .ok rules ∧
        ∀ name text, (name, text) ∈ rules.entries → ∃ e, Expr.parse text = .ok e) ∧
      ∀ name text, (name, text) ∈ c.rules.entries → ∃ e, Expr.parse text = .ok e) ∧
    ((d.build L c baseDirectory).error = none →
      (∀ name, name ∈ (d.build L c baseDirectory).ruleSet.ruleNames ↔
        ∃ s ∈ c.sources baseDirectory, ∃ text, s.text? L d name = some text) ∧
      (∀ before s after name text, c.sources baseDirectory = before ++ s :: after →
        s.text? L d name = some text → (∀ s' ∈ after, s'.text? L d name = none) →
        ∃ e, Expr.parse text = .ok e ∧
          (d.build L c baseDirectory).ruleSet.rule? name = some e) ∧
      (d.build L c baseDirectory).news = (c.sources baseDirectory).filterMap (·.loaded? L d)) ∧
    ∀ error, (d.build L c baseDirectory).error = some error →
      ∃ before s after, c.sources baseDirectory = before ++ s :: after ∧
        (∀ s' ∈ before, s'.Fits L d) ∧ s.FailsWith L d error ∧
        (d.build L c baseDirectory).news =
          before.filterMap (·.loaded? L d) ++ (s.loaded? L d).toList := by
  refine ⟨Disk.build_error_eq_none_iff.trans Disk.sources_fit_iff, fun hnone => ?_, ?_⟩
  · have hfits := Disk.build_error_eq_none_iff.mp hnone
    obtain ⟨-, hnews, hrule⟩ := Disk.build_of_fits hfits
    refine ⟨Disk.mem_ruleNames_build hfits, ?_, hnews⟩
    intro before s after name text hsources htext hafter
    have hmem : s ∈ c.sources baseDirectory := by
      rw [hsources]
      exact List.mem_append_right _ List.mem_cons_self
    obtain ⟨e, he⟩ := (hfits s hmem).exists_parse htext
    refine ⟨e, he, ?_⟩
    rw [hrule, hsources, lastText_split htext hafter]
    exact parse?_eq_some_iff.mpr he
  · intro error herror
    rcases fits_or_first_failure L d (c.sources baseDirectory) with hfits |
      ⟨before, s, after, error', hsources, hbefore, herror'⟩
    · rw [Disk.build_error_eq_none_iff.mpr hfits] at herror
      cases herror
    · obtain ⟨hfirst, hnews⟩ := Disk.build_of_failure hsources hbefore herror'
      obtain rfl := Option.some.inj (hfirst.symm.trans herror)
      exact ⟨before, s, after, hsources, hbefore, Source.failsWith_of_error? herror', hnews⟩

/-- Two policy files; in the second one a text is no rule. -/
def twoFiles : Disk := FileTree.disk ⟨["home"], [
  (["etc", "base.yaml"], "a: role:x\nb: '!'\n".toUTF8),
  (["etc", "bad.yaml"], "c: '@'\na: '('\nd: '@'\n".toUTF8)]⟩

/-- The same file twice, and a rule on top of it. -/
def overriding : Config := ⟨"1", ["base.yaml", "/etc/./base.yaml"], Dict.ofList [("b", "@")], []⟩

/-- A file with a text that is no rule, in front of one that is not there. -/
def stopping : Config := ⟨"1", ["base.yaml", "bad.yaml", "none.yaml"], ∅, []⟩

/-- The config that overrides comes to a rule set, with the rule of the second file under `a`; the
other one ends in an error of the first source that does not fit. -/
theorem build_layers_twice :
    (twoFiles.build .standard overriding (some (Path.ofString "/etc"))).error = none ∧
    (Source.file (Path.ofString "/etc/./base.yaml")).text? .standard twoFiles "a" = some "role:x" ∧
    (∃ e, Expr.parse "role:x" = .ok e ∧
      (twoFiles.build .standard overriding (some (Path.ofString "/etc"))).ruleSet.rule? "a" =
        some e) ∧
    ∃ error, (twoFiles.build .standard stopping (some (Path.ofString "/etc"))).error = some error ∧
      ∃ before s after, stopping.sources (some (Path.ofString "/etc")) = before ++ s :: after ∧
        (∀ s' ∈ before, s'.Fits .standard twoFiles) ∧ s.FailsWith .standard twoFiles error ∧
        (twoFiles.build .standard stopping (some (Path.ofString "/etc"))).news =
          before.filterMap (·.loaded? .standard twoFiles) ++
            (s.loaded? .standard twoFiles).toList := by
  have hbuilt :
      (twoFiles.build .standard overriding (some (Path.ofString "/etc"))).error = none := by
    decide +kernel
  have htext : (Source.file (Path.ofString "/etc/./base.yaml")).text? .standard twoFiles "a" =
      some "role:x" := by decide +kernel
  have hsources : overriding.sources (some (Path.ofString "/etc")) =
      [.file ((Path.ofString "base.yaml").under (Path.ofString "/etc"))] ++
        .file (Path.ofString "/etc/./base.yaml") :: [.inline overriding.rules] := rfl
  have hafter :
      ∀ s' ∈ [Source.inline overriding.rules], s'.text? .standard twoFiles "a" = none := by
    rw [List.forall_mem_singleton]
    decide +kernel
  have hstopped :
      (twoFiles.build .standard stopping (some (Path.ofString "/etc"))).error.isSome = true := by
    decide +kernel
  obtain ⟨error, herror⟩ := Option.isSome_iff_exists.mp hstopped
  have hrule :=
    (build_layers .standard twoFiles overriding (some (Path.ofString "/etc"))).2.1 hbuilt
  have hfailure :=
    (build_layers .standard twoFiles stopping (some (Path.ofString "/etc"))).2.2 error herror
  exact ⟨hbuilt, htext, hrule.2.1 _ _ _ _ _ hsources htext hafter, error, herror, hfailure⟩

end AccessPolicy
