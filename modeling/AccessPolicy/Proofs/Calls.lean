import AccessPolicy.Proofs.Pairs
import Mathlib.Data.List.Basic

/-!
# Words that call a command

Words are read with any reader that does what readers of words have in common
(`Packages.ReadsWords`). In front of a command they may ask for the log, and do not matter otherwise
(`run_of_calls`). Behind its name, `validate` and `show` take a file (`runOnFile_of_find?`); `check`
takes a file and a rule, among options that may be written in more than one way (`Delivers`,
`AsksFor`). Where these words make sense, the command is run on what they name: `check` on the
request that the values of its options describe (`runCheck_of_delivers`), unless one of these values
should be a pair and is none (`runCheck_of_noPair`).
-/

namespace AccessPolicy.CommandLine

/-- Words for a command, with `rest` behind its name. In front of it they may ask for the log. -/
def Calls (words : List String) (name : String) (rest : List String) : Prop :=
  ∃ flags, (∀ flag ∈ flags, flag = "-v" ∨ flag = "--verbose") ∧ words = flags ++ name :: rest

/-- Words behind `check` that name a file and a rule, and give these values to its options. -/
def Delivers (p : Packages) (words : List String) (file rule : String)
    (roles attributes target : List String) : Prop :=
  ∃ r, p.readWords checkSpecs false words = .ok r ∧ r.arguments = [file, rule] ∧
    r.has helpOption = false ∧ r.values roleOption = roles ∧
    r.values attributeOption = attributes ∧ r.values targetOption = target

/-- Words behind `check` that name a file and a rule, with options that make sense. -/
def AsksFor (p : Packages) (words : List String) (file rule : String) : Prop :=
  ∃ r, p.readWords checkSpecs false words = .ok r ∧ r.arguments = [file, rule] ∧
    r.has helpOption = false ∧
    ∀ text ∈ r.values attributeOption ++ r.values targetOption, (pair? text).isSome = true

/-! ## Reading words -/

theorem not_isOptionWord {word : String} (h : word.toList.head? ≠ some '-') :
    word ≠ "--" ∧ isOptionWord word = false := by
  constructor
  · rintro rfl
    exact h rfl
  · rw [isOptionWord, decide_eq_false h, Bool.false_and]

namespace Packages.ReadsWords

variable {p : Packages} (hp : p.ReadsWords)
include hp

theorem arguments {words : List String} (h : ∀ word ∈ words, word.toList.head? ≠ some '-')
    (specs : List OptionSpec) : p.readWords specs false words = .ok ⟨[], words⟩ := by
  induction words with
  | nil => exact hp.nothing specs false
  | cons word words ih =>
    rw [List.forall_mem_cons] at h
    rw [hp.argument specs h.1, ih h.2]
    rfl

/-- Options in front of arguments, each with its value behind its long name. -/
theorem options {options : List Given} (hoptions : ∀ g ∈ options, g.option ∈ valueSpecs)
    {words : List String} (hwords : ∀ word ∈ words, word.toList.head? ≠ some '-') :
    p.readWords checkSpecs false (options.flatMap (fun g => [g.option.long, g.value]) ++ words) =
      .ok ⟨options, words⟩ := by
  induction options with
  | nil => exact hp.arguments hwords checkSpecs
  | cons g options ih =>
    rw [List.forall_mem_cons] at hoptions
    rw [List.flatMap_cons, List.append_assoc, List.cons_append, List.cons_append, List.nil_append,
      hp.option hoptions.1, ih hoptions.2]
    rfl

/-- In front of the command, every word that asks for the log is read as that. -/
theorem flags {flags : List String} (h : ∀ flag ∈ flags, flag = "-v" ∨ flag = "--verbose")
    {name : String} (hname : name.toList.head? ≠ some '-') (rest : List String) :
    p.readWords programOptions true (flags ++ name :: rest) =
      .ok ⟨flags.map fun _ => ⟨verboseOption, ""⟩, name :: rest⟩ := by
  induction flags with
  | nil => exact hp.command programOptions hname rest
  | cons flag flags ih =>
    rw [List.forall_mem_cons] at h
    rw [List.cons_append, hp.verbose h.1, ih h.2]
    rfl

end Packages.ReadsWords

theorem has_helpOption {options : List Given} (hoptions : ∀ g ∈ options, g.option ∈ valueSpecs)
    {arguments : List String} : Reading.has ⟨options, arguments⟩ helpOption = false := by
  rw [Reading.has, List.any_eq_false]
  intro g hg hhelp
  have hspec := hoptions g hg
  rw [of_decide_eq_true hhelp] at hspec
  exact absurd hspec (by decide)

theorem asksFor_options {p : Packages} (hp : p.ReadsWords) {options : List Given}
    (hoptions : ∀ g ∈ options, g.option ∈ valueSpecs)
    (hpairs : ∀ g ∈ options, g.option ≠ roleOption → (pair? g.value).isSome = true)
    {file rule : String} (hfile : file.toList.head? ≠ some '-')
    (hrule : rule.toList.head? ≠ some '-') :
    AsksFor p (options.flatMap (fun g => [g.option.long, g.value]) ++ [file, rule]) file rule := by
  refine ⟨⟨options, [file, rule]⟩, hp.options hoptions (by simp [hfile, hrule]), rfl,
    has_helpOption hoptions, fun text htext => ?_⟩
  rw [Reading.values, Reading.values, ← List.map_append] at htext
  obtain ⟨g, hg, rfl⟩ := List.mem_map.mp htext
  rw [List.mem_append, List.mem_filter, List.mem_filter, decide_eq_true_iff,
    decide_eq_true_iff] at hg
  rcases hg with ⟨hmem, hoption⟩ | ⟨hmem, hoption⟩
  · exact hpairs g hmem (by rw [hoption]; decide)
  · exact hpairs g hmem (by rw [hoption]; decide)

/-- Options of `check` with these values. -/
def optionsOf (roles attributes target : List String) : List Given :=
  roles.map (⟨roleOption, ·⟩) ++ attributes.map (⟨attributeOption, ·⟩) ++
    target.map (⟨targetOption, ·⟩)

theorem option_mem_valueSpecs (roles attributes target : List String) :
    ∀ g ∈ optionsOf roles attributes target, g.option ∈ valueSpecs := by
  intro g hg
  rw [optionsOf, List.mem_append, List.mem_append, List.mem_map, List.mem_map, List.mem_map] at hg
  rcases hg with (⟨text, -, rfl⟩ | ⟨text, -, rfl⟩) | ⟨text, -, rfl⟩
  all_goals
    dsimp only
    decide

theorem values_map (texts arguments : List String) (option option' : OptionSpec) :
    Reading.values ⟨texts.map (⟨option, ·⟩), arguments⟩ option' =
      if option = option' then texts else [] := by
  unfold Reading.values
  by_cases h : option = option'
  · simp [h, List.filter_map, Function.comp_def]
  · simp [h, List.filter_map, Function.comp_def]

theorem values_append (options others : List Given) (arguments : List String)
    (option : OptionSpec) : Reading.values ⟨options ++ others, arguments⟩ option =
      Reading.values ⟨options, arguments⟩ option ++ Reading.values ⟨others, arguments⟩ option := by
  unfold Reading.values
  rw [List.filter_append, List.map_append]

/-- There are words for all values of the options. -/
theorem delivers_options {p : Packages} (hp : p.ReadsWords) {file rule : String}
    (hfile : file.toList.head? ≠ some '-')
    (hrule : rule.toList.head? ≠ some '-') (roles attributes target : List String) :
    Delivers p ((optionsOf roles attributes target).flatMap (fun g => [g.option.long, g.value]) ++
      [file, rule]) file rule roles attributes target := by
  have hoptions := option_mem_valueSpecs roles attributes target
  have harguments : ∀ word ∈ [file, rule], word.toList.head? ≠ some '-' := by
    simp [hfile, hrule]
  have hvalues (option : OptionSpec) :
      Reading.values ⟨optionsOf roles attributes target, [file, rule]⟩ option =
        (if roleOption = option then roles else []) ++
          (if attributeOption = option then attributes else []) ++
          (if targetOption = option then target else []) := by
    rw [optionsOf, values_append, values_append, values_map, values_map, values_map]
  refine ⟨_, hp.options hoptions harguments, rfl, has_helpOption hoptions, ?_, ?_, ?_⟩
  · rw [hvalues, if_pos rfl, if_neg (by decide), if_neg (by decide), List.append_nil,
      List.append_nil]
  · rw [hvalues, if_neg (by decide), if_pos rfl, if_neg (by decide), List.append_nil,
      List.nil_append]
  · rw [hvalues, if_neg (by decide), if_neg (by decide), if_pos rfl, List.append_nil,
      List.nil_append]

/-- How a run ends with the answer of a command. -/
def ending : Except UsageError (Except Breakdown Outcome) → Except Breakdown Outcome
  | .ok outcome => outcome
  | .error e => .ok (.ofUsageError e)

/-- Behind words that ask for the log, the command of the name is run. -/
theorem run_flags {p : Packages} (hp : p.ReadsWords) {flags : List String}
    (h : ∀ flag ∈ flags, flag = "-v" ∨ flag = "--verbose")
    {name : String} (hname : name.toList.head? ≠ some '-') (d : Disk) (rest : List String) :
    run p d (flags ++ name :: rest) = ending (runCommand p d (!flags.isEmpty) name rest) := by
  let r : Reading := ⟨flags.map fun _ => ⟨verboseOption, ""⟩, name :: rest⟩
  have hread : p.readWords programOptions true (flags ++ name :: rest) = .ok r :=
    hp.flags h hname rest
  have hinstead : insteadOfCommand? r = none := by
    have hfind :
        r.options.find? (fun g => g.option = versionOption ∨ g.option = helpOption) = none := by
      rw [List.find?_eq_none, List.forall_mem_map]
      intro _ _
      decide
    rw [insteadOfCommand?, hfind]
  have hverbose : r.has verboseOption = !flags.isEmpty := by
    cases flags <;> rfl
  have hnamed : runNamed p d r = runCommand p d (!flags.isEmpty) name rest := by
    rw [runNamed, ← hverbose]
    dsimp only [r]
    rw [(not_isOptionWord hname).2]
    rfl
  rw [run, if_neg (by simp), hread]
  simp only [bind, Except.bind, hinstead, hnamed]
  cases runCommand p d (!flags.isEmpty) name rest <;> rfl

theorem run_of_calls {p : Packages} (hp : p.ReadsWords) {words rest : List String} {name : String}
    (h : Calls words name rest)
    (hname : name.toList.head? ≠ some '-') :
    ∃ verbose, ∀ d outcome, runCommand p d verbose name rest = .ok outcome →
      run p d words = outcome := by
  obtain ⟨flags, hflags, rfl⟩ := h
  refine ⟨!flags.isEmpty, fun d outcome houtcome => ?_⟩
  rw [run_flags hp hflags hname, houtcome]
  rfl

/-! ## Commands -/

section

variable {d : Disk} {file : String} {bytes : ByteArray} (hfile : d.find? file = some (.file bytes))
include hfile

theorem policyFile_of_find? (rest : List String) :
    policyFile d (file :: rest) = .ok (file, rest) := by
  rw [policyFile, hfile]

theorem runOnFile_of_find? {p : Packages} (hp : p.ReadsWords) (hname : file.toList.head? ≠ some '-')
    (command : String → Except Breakdown Outcome) :
    runOnFile p d [file] command = .ok (command file) := by
  have hwords : p.readWords [helpOption] false [file] = .ok ⟨[], [file]⟩ :=
    hp.arguments (by simpa using hname) _
  have hfound := policyFile_of_find? hfile []
  rw [runOnFile, hwords]
  simp only [bind, Except.bind, hfound]
  rfl

end

/-! ## The values of options -/

theorem AsksFor.exists_delivers {p : Packages} {words : List String} {file rule : String}
    (h : AsksFor p words file rule) : ∃ roles attributes target,
      Delivers p words file rule roles attributes target ∧
        ∀ text ∈ attributes ++ target, ¬ NoPair text := by
  obtain ⟨r, hread, harguments, hhelp, hpairs⟩ := h
  refine ⟨_, _, _, ⟨r, hread, harguments, hhelp, rfl, rfl, rfl⟩, fun text hmem hwrong => ?_⟩
  have hsome := hpairs text hmem
  rw [pair?_eq_none_iff.mpr hwrong] at hsome
  cases hsome

theorem checkPairs_eq_ok {r : Reading}
    (h : ∀ text ∈ r.values attributeOption ++ r.values targetOption, ¬ NoPair text)
    (option : OptionSpec) : checkPairs r option = .ok () := by
  unfold checkPairs
  split
  next hoption =>
    have hvalues : ∀ text ∈ r.values option, ¬ NoPair text := by
      rcases hoption with rfl | rfl
      · exact fun text hmem => h text (List.mem_append_left _ hmem)
      · exact fun text hmem => h text (List.mem_append_right _ hmem)
    rw [pairs_eq_ok option hvalues]
    rfl
  next => rfl

theorem checkOptions_eq_ok {r : Reading}
    (h : ∀ text ∈ r.values attributeOption ++ r.values targetOption, ¬ NoPair text) :
    checkOptions r = .ok () := by
  unfold checkOptions
  generalize (r.options.map (·.option)).eraseDups = options
  induction options with
  | nil => rfl
  | cons option options ih =>
    change (do checkPairs r option; options.forM (checkPairs r)) = _
    rw [checkPairs_eq_ok h]
    exact ih

/-- A value of this option should be a pair, and is none. -/
def IsWrong (attributes target : List String) (option : OptionSpec) (text : String) : Prop :=
  (option = attributeOption ∧ text ∈ attributes ∨ option = targetOption ∧ text ∈ target) ∧
    NoPair text

theorem isWrong_of_checkPairs {r : Reading} {option : OptionSpec} {e : UsageError}
    (h : checkPairs r option = .error e) :
    ∃ text, IsWrong (r.values attributeOption) (r.values targetOption) option text ∧
      e = .notPair option text := by
  unfold checkPairs at h
  split at h
  next hoption =>
    by_cases hwrong : ∃ text ∈ r.values option, NoPair text
    · obtain ⟨wrong, hmem, hwrong⟩ := hwrong
      obtain ⟨text, htext, hno, herror⟩ := pairs_eq_error option hmem hwrong
      rw [herror] at h
      refine ⟨text, ⟨?_, hno⟩, (Except.error.inj h).symm⟩
      rcases hoption with rfl | rfl
      · exact Or.inl ⟨rfl, htext⟩
      · exact Or.inr ⟨rfl, htext⟩
    · rw [pairs_eq_ok option fun text hmem hno => hwrong ⟨text, hmem, hno⟩] at h
      cases h
  next => cases h

theorem checkPairs_ne_ok {r : Reading} {option : OptionSpec} {text : String}
    (h : IsWrong (r.values attributeOption) (r.values targetOption) option text) :
    ∃ e, checkPairs r option = .error e := by
  obtain ⟨hoption, hwrong⟩ := h
  have hpair : option = attributeOption ∨ option = targetOption := by
    rcases hoption with ⟨h, -⟩ | ⟨h, -⟩
    · exact Or.inl h
    · exact Or.inr h
  have hmem : text ∈ r.values option := by
    rcases hoption with ⟨rfl, hmem⟩ | ⟨rfl, hmem⟩
    · exact hmem
    · exact hmem
  obtain ⟨first, -, -, herror⟩ := pairs_eq_error option hmem hwrong
  rw [checkPairs, if_pos hpair, herror]
  exact ⟨_, rfl⟩

/-- Of checks in a row, one that fails stops the row, unless one in front of it has. -/
theorem exists_forM_error {ε α : Type} {f : α → Except ε Unit} {as : List α} {a : α} {e : ε}
    (hmem : a ∈ as) (ha : f a = .error e) :
    ∃ a' ∈ as, ∃ e', f a' = .error e' ∧ as.forM f = .error e' := by
  induction as with
  | nil => cases hmem
  | cons b as ih =>
    change ∃ a' ∈ b :: as, ∃ e', f a' = .error e' ∧ (do f b; as.forM f) = .error e'
    cases hb : f b with
    | error e' => exact ⟨b, List.mem_cons_self, e', hb, rfl⟩
    | ok =>
      rcases List.mem_cons.mp hmem with rfl | hmem
      · rw [ha] at hb
        cases hb
      · obtain ⟨a', hmem', e', ha', herror⟩ := ih hmem
        exact ⟨a', List.mem_cons_of_mem _ hmem', e', ha', herror⟩

theorem mem_options_of_mem_values {r : Reading} {option : OptionSpec} {text : String}
    (h : text ∈ r.values option) : option ∈ r.options.map (·.option) := by
  obtain ⟨g, hg, -⟩ := List.mem_map.mp h
  obtain ⟨hmem, hoption⟩ := List.mem_filter.mp hg
  exact List.mem_map.mpr ⟨g, hmem, of_decide_eq_true hoption⟩

theorem checkOptions_eq_error {r : Reading} {option : OptionSpec} {text : String}
    (h : IsWrong (r.values attributeOption) (r.values targetOption) option text) :
    ∃ option' text', IsWrong (r.values attributeOption) (r.values targetOption) option' text' ∧
      checkOptions r = .error (.notPair option' text') := by
  have hmem : option ∈ (r.options.map (·.option)).eraseDups := by
    rw [List.mem_eraseDups]
    rcases h.1 with ⟨rfl, hmem⟩ | ⟨rfl, hmem⟩
    · exact mem_options_of_mem_values hmem
    · exact mem_options_of_mem_values hmem
  obtain ⟨e, he⟩ := checkPairs_ne_ok h
  obtain ⟨option', -, e', he', herror⟩ := exists_forM_error hmem he
  obtain ⟨text', hwrong, rfl⟩ := isWrong_of_checkPairs he'
  exact ⟨option', text', hwrong, herror⟩

section

variable {p : Packages} {d : Disk} {words : List String} {file rule : String}
  {roles attributes target : List String}

/-- Words that ask for a rule of a file are answered by `check`, for the request that the values of
the options describe. -/
theorem runCheck_of_delivers (h : Delivers p words file rule roles attributes target)
    {bytes : ByteArray} (hfile : d.find? file = some (.file bytes))
    (hpairs : ∀ text ∈ attributes ++ target, ¬ NoPair text) (verbose : Bool) :
    runCheck p d verbose words =
      .ok (check p.toLoader d verbose file rule (requestOf roles attributes target)) := by
  obtain ⟨r, hread, harguments, hhelp, rfl, rfl, rfl⟩ := h
  have hfound := policyFile_of_find? hfile [rule]
  have hoptions := checkOptions_eq_ok hpairs
  have hdescribed := described_eq_ok (r.values roleOption) hpairs
  rw [runCheck, hread]
  simp only [bind, Except.bind, hhelp, hoptions, harguments, hfound, noMore, checkDescribed,
    hdescribed]
  rfl

/-- A value that should be a pair and is none is what is wrong with the words, or another one is. -/
theorem runCheck_of_noPair (h : Delivers p words file rule roles attributes target) {text : String}
    (hmem : text ∈ attributes ++ target) (hwrong : NoPair text) :
    ∃ option text', IsWrong attributes target option text' ∧
      ∀ d verbose, runCheck p d verbose words = .error (.notPair option text') := by
  obtain ⟨r, hread, harguments, hhelp, rfl, rfl, rfl⟩ := h
  have hIsWrong : ∃ option,
      IsWrong (r.values attributeOption) (r.values targetOption) option text := by
    rcases List.mem_append.mp hmem with hmem | hmem
    · exact ⟨attributeOption, Or.inl ⟨rfl, hmem⟩, hwrong⟩
    · exact ⟨targetOption, Or.inr ⟨rfl, hmem⟩, hwrong⟩
  obtain ⟨option, hoption⟩ := hIsWrong
  obtain ⟨option', text', hwrong', herror⟩ := checkOptions_eq_error hoption
  refine ⟨option', text', hwrong', fun d verbose => ?_⟩
  rw [runCheck, hread]
  simp only [bind, Except.bind, hhelp, herror]
  rfl

theorem runCheck_of_asksFor (h : AsksFor p words file rule) {bytes : ByteArray}
    (hfile : d.find? file = some (.file bytes)) :
    ∃ request, ∀ verbose,
      runCheck p d verbose words = .ok (check p.toLoader d verbose file rule request) := by
  obtain ⟨roles, attributes, target, hdelivers, hpairs⟩ := h.exists_delivers
  exact ⟨_, runCheck_of_delivers hdelivers hfile hpairs⟩

end

end AccessPolicy.CommandLine
