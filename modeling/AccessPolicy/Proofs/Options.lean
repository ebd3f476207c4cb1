import AccessPolicy.Proofs.Commands
import AccessPolicy.Proofs.Independence

/-!
# What options describe

`check` asks a policy about a request that is written as options: the roles of the caller, and
attributes of the caller and of the target as pairs. Main statement `check_of_options`: the answer
depends on what these options describe (`Describes`), and not on how they are spelled. The request
has the roles that are given and, under each name, the value that is given last. So it makes no
difference in which order roles come and how often, nor in which order attributes come as long as
those under the same name keep theirs.

Two lists of values that describe a request in this sense describe requests that may still be
different data: the roles are a list, and the attributes have an order. No rule sees that, because
evaluation asks for single roles and attributes only (`SameReferences`).
-/

namespace AccessPolicy.CommandLine

/-- The request has the given roles, and the attributes that are given last under each name. -/
structure Describes (roles attributes target : List String) (q : Request) : Prop where
  roles : ∀ role, q.token.hasRole role = true ↔ role ∈ roles
  attributes : ∀ name, q.token.attribute? name = lastEntry name (attributes.filterMap pair?)
  target : ∀ name, q.target.attribute? name = lastEntry name (target.filterMap pair?)

/-- The same values, where those under the same name come in the same order. -/
structure Reordered (texts texts' : List String) : Prop where
  perm : texts.Perm texts'
  order : ∀ name, underName name texts = underName name texts'

section

variable {roles roles' attributes attributes' target target' : List String} {q q' : Request}

theorem describes_requestOf (roles attributes target : List String) :
    Describes roles attributes target (requestOf roles attributes target) where
  roles _ := List.contains_iff_mem
  attributes name := Dict.find?_ofList _ name
  target name := Dict.find?_ofList _ name

/-- No rule set tells apart two requests that the same values describe. -/
theorem Describes.sameReferences (h : Describes roles attributes target q)
    (h' : Describes roles attributes target q') (rs : RuleSet) : rs.SameReferences q q' where
  roles role := Bool.eq_iff_iff.mpr ((h.roles role).trans (h'.roles role).symm)
  attributes name _ _ _ := (h.attributes name).trans (h'.attributes name).symm
  target _ name _ := (h.target name).trans (h'.target name).symm

theorem Reordered.lastEntry_eq (h : Reordered attributes attributes') (name : String) :
    lastEntry name (attributes.filterMap pair?) = lastEntry name (attributes'.filterMap pair?) := by
  rw [← lastEntry_underName, h.order, lastEntry_underName]

/-- Values that are reordered, and roles that are the same, describe the same requests. -/
theorem Describes.of_reordered (h : Describes roles attributes target q)
    (hroles : ∀ role, role ∈ roles ↔ role ∈ roles') (hattributes : Reordered attributes attributes')
    (htarget : Reordered target target') : Describes roles' attributes' target' q where
  roles role := (h.roles role).trans (hroles role)
  attributes name := (h.attributes name).trans (hattributes.lastEntry_eq name)
  target name := (h.target name).trans (htarget.lastEntry_eq name)

end

/-! ## Runs of `check` -/

section

variable {p : Packages} {t : FileTree} {file rule : String} {bytes : ByteArray}
  {rules : Dict String} (hp : p.ReadsWords) (hfile : t.find? file = some (.file bytes))
  (hpolicy : policyOfBytes p.toLoader bytes = .ok rules)

include hp hfile

theorem run_check_of_delivers {flags words : List String}
    (hflags : ∀ flag ∈ flags, flag = "-v" ∨ flag = "--verbose")
    {roles attributes target : List String}
    (h : Delivers p words file rule roles attributes target)
    (hpairs : ∀ text ∈ attributes ++ target, ¬ NoPair text) :
    run p t.disk (flags ++ "check" :: words) =
      check p.toLoader t.disk (!flags.isEmpty) file rule (requestOf roles attributes target) := by
  have hcommand (verbose : Bool) : runCommand p t.disk verbose "check" words =
      .ok (check p.toLoader t.disk verbose file rule (requestOf roles attributes target)) :=
    runCheck_of_delivers h hfile hpairs verbose
  rw [run_flags hp hflags (by decide), hcommand]
  rfl

omit hp
include hpolicy

/-- Requests that the same values describe have the same answer. -/
theorem check_of_describes {roles attributes target : List String} {q q' : Request}
    (h : Describes roles attributes target q) (h' : Describes roles attributes target q')
    (verbose : Bool) : check p.toLoader t.disk verbose file rule q =
      check p.toLoader t.disk verbose file rule q' :=
  check_of_evaluate_eq verbose ((t.readPolicy_of_find? p.toLoader hfile).trans hpolicy)
    ((h.sameReferences h' _).evaluateWithin_eq (RuleSet.everyChecker_addRules_fresh _) _ _)

end

/-- A run that a value is to blame for which is no pair. -/
theorem run_check_of_noPair {p : Packages} (hp : p.ReadsWords) {flags words : List String}
    (hflags : ∀ flag ∈ flags, flag = "-v" ∨ flag = "--verbose") {file rule : String}
    {roles attributes target : List String}
    (h : Delivers p words file rule roles attributes target) {text : String}
    (hmem : text ∈ attributes ++ target) (hwrong : NoPair text) (d : Disk) :
    ∃ option text', IsWrong attributes target option text' ∧
      run p d (flags ++ "check" :: words) = .ok (.ofUsageError (.notPair option text')) := by
  obtain ⟨option, text', hIsWrong, herror⟩ := runCheck_of_noPair h hmem hwrong
  have hcommand (verbose : Bool) :
      runCommand p d verbose "check" words = .error (.notPair option text') := herror d verbose
  refine ⟨option, text', hIsWrong, ?_⟩
  rw [run_flags hp hflags (by decide), hcommand]
  rfl

theorem EndsAs.not_exits_two {run : Except Breakdown Outcome} {outcome : Except Fault Bool}
    (h : EndsAs run outcome) : ¬ Exits run 2 := by
  unfold EndsAs at h
  split at h
  next => exact h.not_exits (by decide)
  next => exact h.not_exits (by decide)
  next =>
    rintro ⟨rows, notes, heq⟩
    rw [h.2] at heq
    cases heq

/-- **The options of `check`.** For a policy all of whose texts are rules:

* a value is split at its first equals sign;
* the words make no sense exactly if the value of an attribute is no pair, and then one of these
  values is the reason that is given;
* otherwise the run ends as the rule evaluates, for any request with the given roles and the
  attributes that are given last;
* roles may be given in any order and more than once, and attributes in any order that keeps those
  under the same name in theirs;
* attributes with names that can be written in front of an equals sign are exactly what comes of
  giving them as options;
* there are words for all values. -/
theorem check_of_options {p : Packages} (hp : p.ReadsWords) (t : FileTree)
    {file rule : String} {bytes : ByteArray} {rules : Dict String}
    (hfile : t.find? file = some (.file bytes))
    (hpolicy : policyOfBytes p.toLoader bytes = .ok rules)
    (hrules : ∀ name text, (name, text) ∈ rules.entries → ∃ e, Expr.parse text = .ok e)
    {flags : List String} (hflags : ∀ flag ∈ flags, flag = "-v" ∨ flag = "--verbose") :
    (∀ text name value, pair? text = some (name, value) ↔
      text = name ++ "=" ++ value ∧ name ≠ "" ∧ '=' ∉ name.toList) ∧
    (∀ words roles attributes target, Delivers p words file rule roles attributes target →
      (Exits (run p t.disk (flags ++ "check" :: words)) 2 ↔
        ∃ text ∈ attributes ++ target, NoPair text) ∧
      (∀ text ∈ attributes ++ target, NoPair text →
        ∃ option text', IsWrong attributes target option text' ∧
          run p t.disk (flags ++ "check" :: words) =
            .ok (.ofUsageError (.notPair option text'))) ∧
      ((∀ text ∈ attributes ++ target, ¬ NoPair text) →
        (∃ q, Describes roles attributes target q) ∧
        ∀ q, Describes roles attributes target q →
          EndsAs (run p t.disk (flags ++ "check" :: words))
            ((RuleSet.fresh.addRules rules.entries).ruleSet.evaluate rule q).outcome)) ∧
    (∀ words words' roles roles' attributes attributes' target target',
      Delivers p words file rule roles attributes target →
      Delivers p words' file rule roles' attributes' target' →
      (∀ text ∈ attributes ++ target, ¬ NoPair text) →
      (∀ role, role ∈ roles ↔ role ∈ roles') →
      Reordered attributes attributes' → Reordered target target' →
      run p t.disk (flags ++ "check" :: words) = run p t.disk (flags ++ "check" :: words')) ∧
    (∀ roles attributes target, Spellable attributes → Spellable target →
      described roles (spelled attributes) (spelled target) =
        .ok ⟨⟨roles, attributes⟩, .known target⟩ ∧
      ∀ words, Delivers p words file rule roles (spelled attributes) (spelled target) →
        run p t.disk (flags ++ "check" :: words) =
          check p.toLoader t.disk (!flags.isEmpty) file rule ⟨⟨roles, attributes⟩, .known target⟩) ∧
    (file.toList.head? ≠ some '-' → rule.toList.head? ≠ some '-' →
      ∀ roles attributes target, ∃ words, Delivers p words file rule roles attributes target) := by
  have hread := (t.readPolicy_of_find? p.toLoader hfile).trans hpolicy
  have hfine : rules.entries.filterMap ruleError? = [] := by
    by_contra hne
    obtain ⟨name, text, hmem, hwrong⟩ := filterMap_ruleError?_ne_nil_iff.mp hne
    obtain ⟨e, he⟩ := hrules name text hmem
    exact hwrong e he
  have hends : ∀ words roles attributes target, Delivers p words file rule roles attributes target →
      (∀ text ∈ attributes ++ target, ¬ NoPair text) → ∀ q, Describes roles attributes target q →
      EndsAs (run p t.disk (flags ++ "check" :: words))
        ((RuleSet.fresh.addRules rules.entries).ruleSet.evaluate rule q).outcome := by
    intro words roles attributes target h hpairs q hq
    rw [run_check_of_delivers hp hfile hflags h hpairs,
      check_of_describes hfile hpolicy (describes_requestOf roles attributes target) hq]
    exact check_of_ok _ hread hfine rule q
  refine ⟨fun _ _ _ => pair?_eq_some_iff, ?_, ?_, ?_, ?_⟩
  · intro words roles attributes target h
    refine ⟨⟨fun htwo => ?_, ?_⟩,
      fun text hmem hwrong => run_check_of_noPair hp hflags h hmem hwrong _,
      fun hpairs => ⟨⟨_, describes_requestOf roles attributes target⟩,
        hends words roles attributes target h hpairs⟩⟩
    · by_contra hnone
      have hpairs : ∀ text ∈ attributes ++ target, ¬ NoPair text :=
        fun text hmem hwrong => hnone ⟨text, hmem, hwrong⟩
      exact (hends words roles attributes target h hpairs _
        (describes_requestOf roles attributes target)).not_exits_two htwo
    · rintro ⟨text, hmem, hwrong⟩
      obtain ⟨option, text', -, hrun⟩ := run_check_of_noPair hp hflags h hmem hwrong t.disk
      exact ⟨_, _, hrun⟩
  · intro words words' roles roles' attributes attributes' target target' h h' hpairs hroles
      hattributes htarget
    have hpairs' : ∀ text ∈ attributes' ++ target', ¬ NoPair text := fun text hmem =>
      hpairs text ((hattributes.perm.append htarget.perm).mem_iff.mpr hmem)
    have hdescribes := (describes_requestOf roles attributes target).of_reordered hroles
      hattributes htarget
    rw [run_check_of_delivers hp hfile hflags h hpairs,
      run_check_of_delivers hp hfile hflags h' hpairs']
    exact check_of_describes hfile hpolicy hdescribes (describes_requestOf _ _ _) _
  · intro roles attributes target hattributes htarget
    have hpairs : ∀ text ∈ spelled attributes ++ spelled target, ¬ NoPair text :=
      List.forall_mem_append.mpr
        ⟨not_noPair_of_mem_spelled hattributes, not_noPair_of_mem_spelled htarget⟩
    rw [← requestOf_spelled roles hattributes htarget]
    exact ⟨described_eq_ok roles hpairs,
      fun words h => run_check_of_delivers hp hfile hflags h hpairs⟩
  · exact fun hfileName hruleName roles attributes target =>
      ⟨_, delivers_options hp hfileName hruleName roles attributes target⟩

/-- Whoever has the role that the target names may read what is new. -/
def readerPolicy : ByteArray := "read: 'role:%(needed)s and status:new'\n".toUTF8

/-- The policy in a tree of files. -/
def readers : FileTree := ⟨["home"], [(["home", "p.yaml"], readerPolicy)]⟩

/-- Words for an administrator who reads what was old and is new. -/
def readerWords : List String :=
  ["--role", "guest", "-radmin", "--attr=status=old", "p.yaml", "--attr", "note=a=b",
    "-a", "status=new", "--target", "needed=admin", "read"]

/-- The same options in another order, one of them twice. -/
def reorderedWords : List String :=
  ["-r", "admin", "p.yaml", "read", "-tneeded=admin", "-astatus=old", "-a", "status=new",
    "--role=guest", "--attr", "note=a=b", "-radmin"]

theorem policyOfBytes_readerPolicy : ∃ rules, policyOfBytes .standard readerPolicy = .ok rules ∧
    rules.entries = [("read", "role:%(needed)s and status:new")] :=
  exists_of_map_entries (by decide +kernel)

theorem reordered_status : Reordered ["status=old", "note=a=b", "status=new"]
    ["status=old", "status=new", "note=a=b"] where
  perm := by decide
  order name := by
    have hold : pair? "status=old" = some ("status", "old") := by decide
    have hnote : pair? "note=a=b" = some ("note", "a=b") := by decide
    have hnew : pair? "status=new" = some ("status", "new") := by decide
    by_cases h : "status" = name
    · simp [underName, hold, hnote, hnew, ← h]
    · by_cases h' : "note" = name
      · simp [underName, hold, hnote, hnew, h, h']
      · simp [underName, hold, hnote, hnew, h, h']

/-- What a reading comes to can be decided from its fields. -/
theorem delivers_of_fields {words : List String} {file rule : String} {options : List Given}
    {roles attributes target : List String}
    (hread : (readWords checkSpecs false words).map (fun r => (r.options, r.arguments)) =
      .ok (options, [file, rule]))
    (hhelp : Reading.has ⟨options, [file, rule]⟩ helpOption = false)
    (hroles : Reading.values ⟨options, [file, rule]⟩ roleOption = roles)
    (hattributes : Reading.values ⟨options, [file, rule]⟩ attributeOption = attributes)
    (htarget : Reading.values ⟨options, [file, rule]⟩ targetOption = target) :
    Delivers .standard words file rule roles attributes target := by
  cases h : readWords checkSpecs false words with
  | error e =>
    rw [h] at hread
    cases hread
  | ok r =>
    obtain ⟨options', arguments⟩ := r
    rw [h] at hread
    cases hread
    exact ⟨_, h, rfl, hhelp, hroles, hattributes, htarget⟩

theorem delivers_readerWords : Delivers .standard readerWords "p.yaml" "read" ["guest", "admin"]
    ["status=old", "note=a=b", "status=new"] ["needed=admin"] :=
  @delivers_of_fields _ _ _
    [⟨roleOption, "guest"⟩, ⟨roleOption, "admin"⟩, ⟨attributeOption, "status=old"⟩,
      ⟨attributeOption, "note=a=b"⟩, ⟨attributeOption, "status=new"⟩,
      ⟨targetOption, "needed=admin"⟩] _ _ _
    (by decide +kernel) (by decide) (by decide) (by decide) (by decide)

theorem delivers_reorderedWords : Delivers .standard reorderedWords "p.yaml" "read"
    ["admin", "guest", "admin"] ["status=old", "status=new", "note=a=b"] ["needed=admin"] :=
  @delivers_of_fields _ _ _
    [⟨roleOption, "admin"⟩, ⟨targetOption, "needed=admin"⟩, ⟨attributeOption, "status=old"⟩,
      ⟨attributeOption, "status=new"⟩, ⟨roleOption, "guest"⟩, ⟨attributeOption, "note=a=b"⟩,
      ⟨roleOption, "admin"⟩] _ _ _
    (by decide +kernel) (by decide) (by decide) (by decide) (by decide)

/-- The last status counts, in both orders; a value without a name in front makes no sense. -/
theorem check_of_options_readers :
    Exits (run .standard readers.disk (["-v"] ++ "check" :: readerWords)) 0 ∧
    run .standard readers.disk (["-v"] ++ "check" :: readerWords) =
      run .standard readers.disk (["-v"] ++ "check" :: reorderedWords) ∧
    Exits (run .standard readers.disk
      (["-v"] ++ "check" :: ["p.yaml", "read", "--attr==new"])) 2 := by
  obtain ⟨rules, hpolicy, hentries⟩ := policyOfBytes_readerPolicy
  have hrules : ∀ name text, (name, text) ∈ rules.entries → ∃ e, Expr.parse text = .ok e := by
    intro name text hmem
    rw [hentries, List.mem_singleton] at hmem
    cases hmem
    exact ⟨.and (.check (.identifier "role") "%(needed)s") (.check (.identifier "status") "new"),
      by decide +kernel⟩
  have hfile : readers.find? "p.yaml" = some (.file readerPolicy) := rfl
  have hflags : ∀ flag ∈ ["-v"], flag = "-v" ∨ flag = "--verbose" := by decide
  obtain ⟨-, hdecides, hreorder, -, -⟩ :=
    @check_of_options _ readsWords_standard readers "p.yaml" "read" _ rules hfile hpolicy hrules _
      hflags
  have hwrong : Delivers .standard ["p.yaml", "read", "--attr==new"] "p.yaml" "read"
      [] ["=new"] [] :=
    @delivers_of_fields _ _ _ [⟨attributeOption, "=new"⟩] _ _ _ (by decide +kernel) (by decide)
      (by decide) (by decide) (by decide)
  have hpairs : ∀ text ∈ ["status=old", "note=a=b", "status=new"] ++ ["needed=admin"],
      ¬ NoPair text := by
    intro text hmem
    rw [← pair?_eq_none_iff]
    revert text
    decide
  obtain ⟨-, -, hfine⟩ := hdecides _ _ _ _ delivers_readerWords
  have hends := (hfine hpairs).2 _ (describes_requestOf _ _ _)
  have hevaluate : ((RuleSet.fresh.addRules rules.entries).ruleSet.evaluate "read"
      (requestOf ["guest", "admin"] ["status=old", "note=a=b", "status=new"]
        ["needed=admin"])).outcome = .ok true := by
    rw [hentries]
    decide +kernel
  rw [hevaluate] at hends
  have hroles : ∀ role, role ∈ ["guest", "admin"] ↔ role ∈ ["admin", "guest", "admin"] := by
    intro role
    simp [or_comm]
  have hreordered := hreorder _ _ _ _ _ _ _ _ delivers_readerWords delivers_reorderedWords hpairs
    hroles reordered_status ⟨.rfl, fun _ => rfl⟩
  have hnew : NoPair "=new" := Or.inr ⟨"new", rfl⟩
  have htwo := (hdecides _ _ _ _ hwrong).1.mpr ⟨"=new", List.mem_singleton_self _, hnew⟩
  exact ⟨hends, hreordered, htwo⟩

end AccessPolicy.CommandLine
