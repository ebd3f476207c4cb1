import AccessPolicy.Proofs.Shapes
import AccessPolicy.Proofs.Standard

/-!
# Policies and configs

What reading a policy or a config comes to, told from the value of the document. Main statement
`answers_of_document`: a value is accepted exactly if it has the shape that is due, and everything
that is wrong with it is reported otherwise, each thing once and in order. This holds with any
loader that does what loaders have in common, of any document in which it converts nothing.

A policy is one shape. A config is a record of sections, any of which may be left out: fields are
reported in the order of their declaration, wherever they stand in the document
(`Loader.Documented.reports_checkWith`), and each of them once, because its name is bound once
(`valuesUnder_eq`).
-/

namespace AccessPolicy

open Document (Value BindsOnce BindsOnceWithin)

/-! ## Finding a field -/

/-- The values that are bound to a name. -/
def valuesUnder (entries : List (Value × Value)) (name : String) : List Value :=
  entries.filterMap fun (key, x) => if key.text? = some name then some x else none

theorem text?_eq_some_iff {v : Value} {s : String} : v.text? = some s ↔ v = .text s := by
  cases v <;> simp [Value.text?]

theorem mem_valuesUnder {entries : List (Value × Value)} {name : String} {x : Value} :
    x ∈ valuesUnder entries name ↔ (.text name, x) ∈ entries := by
  rw [valuesUnder, List.mem_filterMap]
  constructor
  · rintro ⟨⟨key, y⟩, hmem, h⟩
    dsimp only at h
    split at h
    next hkey =>
      rw [text?_eq_some_iff.mp hkey] at hmem
      rwa [← Option.some.inj h]
    next => cases h
  · exact fun hmem => ⟨_, hmem, if_pos rfl⟩

theorem valuesUnder_cons (key x : Value) (entries : List (Value × Value)) (name : String) :
    valuesUnder ((key, x) :: entries) name =
      if key.text? = some name then x :: valuesUnder entries name
      else valuesUnder entries name := by
  by_cases h : key.text? = some name <;> simp [valuesUnder, h]

theorem field?_cons (key x : Value) (entries : List (Value × Value)) (name : String) :
    field? ((key, x) :: entries) name =
      if key.text? = some name then some x else field? entries name := by
  by_cases h : key.text? = some name <;> simp [field?, h]

/-- A name that is bound once is bound to what is found under it. -/
theorem valuesUnder_eq {entries : List (Value × Value)} (h : BindsOnce entries) (name : String) :
    valuesUnder entries name = (field? entries name).toList := by
  induction entries with
  | nil => rfl
  | cons entry entries ih =>
    obtain ⟨key, x⟩ := entry
    obtain ⟨hhead, htail⟩ := List.pairwise_cons.mp h
    rw [valuesUnder_cons, field?_cons]
    by_cases hkey : key.text? = some name
    · have hrest : valuesUnder entries name = [] := by
        rw [List.eq_nil_iff_forall_not_mem]
        intro y hy
        have hsame := hhead _ (mem_valuesUnder.mp hy)
        rw [text?_eq_some_iff.mp hkey] at hsame
        simp [Value.sameKey] at hsame
      rw [if_pos hkey, if_pos hkey, hrest]
      rfl
    · rw [if_neg hkey, if_neg hkey]
      exact ih htail

theorem mem_of_field? {entries : List (Value × Value)} {name : String} {x : Value}
    (h : field? entries name = some x) : (.text name, x) ∈ entries := by
  obtain ⟨⟨key, y⟩, hfind, rfl⟩ := Option.map_eq_some_iff.mp h
  have hkey : key.text? = some name := by simpa using List.find?_some hfind
  rw [← text?_eq_some_iff.mp hkey]
  exact List.mem_of_find?_eq_some hfind

/-! ## Fields -/

namespace Fields

/-- Everything that is wrong with the fields, one after the other. -/
def report : {α : Type} → Fields α → List (Value × Value) → List Violation
  | _, .nil, _ => []
  | _, .field name shape _ rest, entries =>
    (valuesUnder entries name).flatMap (fun x =>
      (shape.report x).map (Violation.within [.name name])) ++ rest.report entries

/-- Each field is written as it is under its name, and it is the usual where it is left out. -/
def Follows : {α : Type} → Fields α → List (Value × Value) → α → Prop
  | _, .nil, _, _ => True
  | _, .field name shape absent rest, entries, (a, b) =>
    ((∀ x, (.text name, x) ∈ entries → x = shape.written a) ∧
      ((∀ x, (.text name, x) ∉ entries) → a = absent)) ∧ rest.Follows entries b

end Fields

namespace Loader.Documented

variable {L : Loader} (hL : L.Documented) {entries : List (Value × Value)}
  (hverbatim : L.Verbatim (.mapping entries)) (honce : BindsOnceWithin (.mapping entries))
include hL hverbatim honce

theorem reports_checkWith {α : Type} (fields : Fields α) :
    Reports (fields.checkWith L.validate entries) (fields.report entries) := by
  induction fields with
  | nil => exact .fine ()
  | field name shape absent rest ih =>
    rw [Fields.checkWith, Fields.report, valuesUnder_eq (honce _ .here)]
    refine Reports.both ?_ ih Prod.mk
    -- the name is bound once or not at all, so there is one value to report on, or none
    cases hfield : field? entries name with
    | none => exact .fine absent
    | some x =>
      have hx := (hverbatim.of_mem_mapping (mem_of_field? hfield)).2
      rw [Option.toList_some, List.flatMap_singleton]
      exact (hL.reports_validate shape hx).within _

theorem checkWith_eq_ok_iff {α : Type} (fields : Fields α) {a : α} :
    fields.checkWith L.validate entries = .ok a ↔ fields.Follows entries a := by
  induction fields with
  | nil => exact iff_of_true rfl trivial
  | field name shape absent rest ih =>
    obtain ⟨a, b⟩ := a
    rw [Fields.checkWith, Fields.Follows, both_eq_ok_iff]
    simp only [← mem_valuesUnder, valuesUnder_eq (honce _ .here), ← ih]
    cases hfield : field? entries name with
    | none => simp [eq_comm, and_comm]
    | some x =>
      have hmem := mem_of_field? hfield
      have hx := @validate_eq_ok_iff _ _ hL shape x (hverbatim.of_mem_mapping hmem).2
        fun _ hwithin => honce _ (.value hmem hwithin)
      simp [within_eq_ok_iff, hx]

end Loader.Documented

/-! ## Reading documents -/

theorem readDocument_eq {L : Loader} {text : String} {v : Value}
    (hdocument : L.document text = .ok v) {α : Type} (ofValue : Value → Checked α) :
    readDocument L ofValue text = (ofValue v).mapError .invalid := by
  rw [readDocument, hdocument]
  dsimp only
  cases ofValue v <;> rfl

/-- The value is a text. -/
def IsText (v : Value) : Prop := ∃ s, v = .text s

theorem textReport_eq_nil_iff {v : Value} : textReport v = [] ↔ IsText v := by
  cases v <;> simp [textReport, IsText]

theorem pathReport_eq_nil_iff {v : Value} : pathReport v = [] ↔ IsText v := by
  cases v <;> simp [pathReport, IsText]

/-! ## Policies -/

/-- The keys and the values are texts. -/
def MapsTexts (entries : List (Value × Value)) : Prop :=
  ∀ key x, (key, x) ∈ entries → IsText key ∧ IsText x

/-- A value that maps texts to texts. -/
def IsPolicy (v : Value) : Prop := ∃ entries, v = .mapping entries ∧ MapsTexts entries

/-- Entries of a document that bind the names of rules to their texts. -/
def entriesOf (rules : Dict String) : List (Value × Value) :=
  rules.entries.map fun (name, text) => (.text name, .text text)

/-- Everything that is wrong with a value that should map texts to texts: of each entry the key, and
behind it the value. -/
def policyReport : Value → List Violation
  | .mapping entries => entries.flatMap fun (key, x) =>
      (textReport key).map (Violation.within [PlaceStep.ofKey key, .key]) ++
        (textReport x).map (Violation.within [PlaceStep.ofKey key])
  | _ => [⟨.notMapping, []⟩]

theorem report_rulesShape (v : Value) : rulesShape.report v = policyReport v := by
  cases v <;> rfl

theorem policyReport_eq_nil_iff {v : Value} : policyReport v = [] ↔ IsPolicy v := by
  cases v with
  | mapping entries =>
    simp [policyReport, IsPolicy, MapsTexts, List.flatMap_eq_nil_iff, textReport_eq_nil_iff]
  | _ => simp [policyReport, IsPolicy]

/-- What reading a text as a policy comes to, where the document has this value. -/
structure PolicyAnswer (L : Loader) (text : String) (v : Value) : Prop where
  /-- A document that says nothing is a policy without rules. -/
  empty : v = .null → readPolicy L text = .ok ∅
  accepted : v ≠ .null → ((∃ rules, readPolicy L text = .ok rules) ↔ IsPolicy v)
  /-- The rules are the entries of the document in their order. -/
  inOrder : v ≠ .null → ∀ rules, readPolicy L text = .ok rules ↔ v = .mapping (entriesOf rules)
  refused : v ≠ .null → ¬ IsPolicy v → readPolicy L text = .error (.invalid (policyReport v))

theorem policyAnswer_of_document {L : Loader} (hL : L.Documented) {text : String} {v : Value}
    (hdocument : L.document text = .ok v) (hverbatim : L.Verbatim v) : PolicyAnswer L text v := by
  have hread : readPolicy L text = (policyOfValue L v).mapError .invalid :=
    readDocument_eq hdocument _
  have hvalue : v ≠ .null → policyOfValue L v = L.validate rulesShape v := by
    intro hnull
    cases v with
    | null => exact absurd rfl hnull
    | _ => rfl
  have hreports : Reports (L.validate rulesShape v) (policyReport v) := by
    rw [← report_rulesShape]
    exact hL.reports_validate rulesShape hverbatim
  refine ⟨?_, fun hnull => ?_, fun hnull rules => ?_, fun hnull h => ?_⟩
  · rintro rfl
    rw [hread]
    rfl
  · simp only [hread, hvalue hnull, mapError_eq_ok_iff]
    rw [hreports.exists_ok_iff, policyReport_eq_nil_iff]
  · rw [hread, hvalue hnull, mapError_eq_ok_iff]
    exact hL.validate_eq_ok_iff rulesShape hverbatim (hL.bindsOnce hdocument)
  · rw [hread, hvalue hnull, hreports.eq_error (mt policyReport_eq_nil_iff.mp h)]
    rfl

/-! ## Configs -/

namespace Config

/-- A sequence of texts. -/
def ListsTexts (v : Value) : Prop := ∃ items, v = .sequence items ∧ ∀ item ∈ items, IsText item

/-- The entries have the shape of a config. -/
structure Fits (entries : List (Value × Value)) : Prop where
  keys : ∀ key x, (key, x) ∈ entries → IsText key
  version : ∀ x, (.text "version", x) ∈ entries → IsText x
  policyFiles : ∀ x, (.text "policy_files", x) ∈ entries → ListsTexts x
  rules : ∀ x, (.text "rules", x) ∈ entries → IsPolicy x

/-- The config says what the sections of the entries say, and the usual where one is left out. -/
structure Follows (config : Config) (entries : List (Value × Value)) : Prop where
  version : ∀ x, (.text "version", x) ∈ entries → x = .text config.version
  usualVersion : (∀ x, (.text "version", x) ∉ entries) → config.version = "1"
  policyFiles : ∀ x, (.text "policy_files", x) ∈ entries →
    x = .sequence (config.policyFiles.map .text)
  usualPolicyFiles : (∀ x, (.text "policy_files", x) ∉ entries) → config.policyFiles = []
  rules : ∀ x, (.text "rules", x) ∈ entries → x = .mapping (entriesOf config.rules)
  usualRules : (∀ x, (.text "rules", x) ∉ entries) → config.rules = ∅

/-- Everything that is wrong with a value that should list policy files, by index. -/
def filesReport : Value → List Violation
  | .sequence items => items.zipIdx.flatMap fun (x, index) =>
      (pathReport x).map (Violation.within [.number index])
  | _ => [⟨.notSequence, []⟩]

/-- Everything that is wrong with the sections of a config. -/
def report (entries : List (Value × Value)) : List Violation :=
  ((valuesUnder entries "version").flatMap fun x =>
    (textReport x).map (Violation.within [.name "version"])) ++
  ((valuesUnder entries "policy_files").flatMap fun x =>
    (filesReport x).map (Violation.within [.name "policy_files"])) ++
  (valuesUnder entries "rules").flatMap fun x =>
    (policyReport x).map (Violation.within [.name "rules"])

theorem filesReport_eq_nil_iff {v : Value} : filesReport v = [] ↔ ListsTexts v := by
  cases v with
  | sequence items =>
    have hitems := @List.forall_mem_map _ _ Prod.fst items.zipIdx IsText
    rw [List.zipIdx_map_fst] at hitems
    simp [filesReport, ListsTexts, hitems, List.flatMap_eq_nil_iff, pathReport_eq_nil_iff]
  | _ => simp [filesReport, ListsTexts]

theorem report_sections (entries : List (Value × Value)) :
    sections.report entries = report entries := by
  have hversion (x : Value) : Shape.text.report x = textReport x := rfl
  have hfiles (x : Value) : (Shape.list .path).report x = filesReport x := by
    cases x <;> rfl
  simp [sections, Fields.report, report, hversion, hfiles, report_rulesShape]

theorem report_eq_nil_iff {entries : List (Value × Value)}
    (hkeys : ∀ key x, (key, x) ∈ entries → IsText key) : report entries = [] ↔ Fits entries := by
  simp only [report, List.append_eq_nil_iff, List.flatMap_eq_nil_iff, List.map_eq_nil_iff,
    textReport_eq_nil_iff, filesReport_eq_nil_iff, policyReport_eq_nil_iff, mem_valuesUnder]
  constructor
  · rintro ⟨⟨hversion, hfiles⟩, hrules⟩
    exact ⟨hkeys, hversion, hfiles, hrules⟩
  · exact fun h => ⟨⟨h.version, h.policyFiles⟩, h.rules⟩

section

variable {L : Loader} (hL : L.Documented)
include hL

theorem ofValue_void {v : Value} (h : isVoid v = true) : ofValue L v = .ok default := by
  rw [ofValue, if_pos h, hL.record]
  · simp [sections, Fields.checkWith, field?, both, extraNames, Except.map, ofRecord, default]
  · intro key x hmem
    cases hmem

theorem ofValue_notMapping {v : Value} (hvoid : isVoid v = false)
    (h : ∀ entries, v ≠ .mapping entries) : ofValue L v = .error [⟨.notRecord, []⟩] := by
  rw [ofValue, hvoid, if_neg Bool.false_ne_true, hL.notRecord sections h]
  rfl

variable {entries : List (Value × Value)} (hverbatim : L.Verbatim (.mapping entries))
include hverbatim

theorem exists_text_iff : (∀ key x, (key, x) ∈ entries → ∃ s, L.validate .text key = .ok s) ↔
    ∀ key x, (key, x) ∈ entries → IsText key := by
  refine forall₂_congr fun key x => imp_congr_right fun hmem => ?_
  simp only [hL.text_eq_ok_iff (hverbatim.of_mem_mapping hmem).1, IsText]

/-- A key that is no text is reason enough to refuse a config. -/
theorem ofValue_badKey (h : ∃ key x, (key, x) ∈ entries ∧ ¬ IsText key) :
    ∃ found, ofValue L (.mapping entries) = .error found := by
  obtain ⟨key, x, hmem, hwrong⟩ := h
  have hkeys : ¬ ∀ key x, (key, x) ∈ entries → ∃ s, L.validate .text key = .ok s := by
    rw [exists_text_iff hL hverbatim]
    exact fun hkeys => hwrong (hkeys key x hmem)
  have hvoid : isVoid (.mapping entries) = false := by
    cases entries with
    | nil => cases hmem
    | cons => rfl
  obtain ⟨found, hfound⟩ := hL.badKey sections hkeys
  rw [ofValue, hvoid, if_neg Bool.false_ne_true, hfound]
  exact ⟨found, rfl⟩

theorem isText_of_ofValue {config : Config} (h : ofValue L (.mapping entries) = .ok config) :
    ∀ key x, (key, x) ∈ entries → IsText key := by
  intro key x hmem
  by_contra hwrong
  obtain ⟨found, hfound⟩ := ofValue_badKey hL hverbatim ⟨key, x, hmem, hwrong⟩
  rw [hfound] at h
  cases h

/-- A mapping is read section by section as soon as its keys are texts. -/
theorem ofValue_mapping (hkeys : ∀ key x, (key, x) ∈ entries → IsText key) :
    ofValue L (.mapping entries) = ((sections.checkWith L.validate entries).map
      (⟨·, extraNames (L.validate .text) sections.names entries⟩)).map ofRecord := by
  -- without entries it is void, and then a mapping without entries is what is read
  have hvoid : (if isVoid (.mapping entries) then .mapping [] else .mapping entries) =
      Value.mapping entries := by
    cases entries <;> rfl
  rw [ofValue, hvoid, hL.record sections ((exists_text_iff hL hverbatim).mpr hkeys)]

variable (honce : BindsOnceWithin (.mapping entries))
include honce

theorem reports_ofValue (hkeys : ∀ key x, (key, x) ∈ entries → IsText key) :
    Reports (ofValue L (.mapping entries)) (report entries) := by
  rw [ofValue_mapping hL hverbatim hkeys, ← report_sections]
  exact ((hL.reports_checkWith hverbatim honce sections).map _).map _

theorem follows_of_ofValue {config : Config} (h : ofValue L (.mapping entries) = .ok config) :
    config.Follows entries := by
  rw [ofValue_mapping hL hverbatim (isText_of_ofValue hL hverbatim h), map_eq_ok_iff] at h
  obtain ⟨record, hrecord, rfl⟩ := h
  obtain ⟨⟨version, files, rules, ⟨⟩⟩, hcheck, rfl⟩ := map_eq_ok_iff.mp hrecord
  rw [hL.checkWith_eq_ok_iff hverbatim honce] at hcheck
  obtain ⟨⟨hversion, hnoVersion⟩, ⟨hfiles, hnoFiles⟩, ⟨hrules, hnoRules⟩, -⟩ := hcheck
  exact ⟨hversion, hnoVersion, hfiles, hnoFiles, hrules, hnoRules⟩

theorem exists_ofValue_mapping_iff :
    (∃ config, ofValue L (.mapping entries) = .ok config) ↔ Fits entries := by
  by_cases hkeys : ∀ key x, (key, x) ∈ entries → IsText key
  · rw [(reports_ofValue hL hverbatim honce hkeys).exists_ok_iff, report_eq_nil_iff hkeys]
  · refine iff_of_false ?_ fun h => hkeys h.keys
    rintro ⟨config, hconfig⟩
    exact hkeys (isText_of_ofValue hL hverbatim hconfig)

end

theorem exists_ofValue_iff {L : Loader} (hL : L.Documented) {v : Value} (hverbatim : L.Verbatim v)
    (honce : BindsOnceWithin v) (hvoid : isVoid v = false) :
    (∃ config, ofValue L v = .ok config) ↔ ∃ entries, v = .mapping entries ∧ Fits entries := by
  by_cases h : ∃ entries, v = .mapping entries
  · obtain ⟨entries, rfl⟩ := h
    simp [exists_ofValue_mapping_iff hL hverbatim honce]
  · rw [ofValue_notMapping hL hvoid fun entries hv => h ⟨entries, hv⟩]
    refine iff_of_false (by simp) ?_
    rintro ⟨entries, hv, -⟩
    exact h ⟨entries, hv⟩

end Config

/-- What reading a text as a config comes to, where the document has this value. -/
structure ConfigAnswer (L : Loader) (text : String) (v : Value) : Prop where
  /-- A document that says nothing, or as good as nothing, is the usual config. -/
  void : Config.isVoid v = true → readConfig L text = .ok .default
  accepted : Config.isVoid v = false → ((∃ config, readConfig L text = .ok config) ↔
    ∃ entries, v = .mapping entries ∧ Config.Fits entries)
  follows : ∀ entries config, v = .mapping entries → readConfig L text = .ok config →
    config.Follows entries
  notMapping : Config.isVoid v = false → (∀ entries, v ≠ .mapping entries) →
    readConfig L text = .error (.invalid [⟨.notRecord, []⟩])
  badKey : ∀ entries, v = .mapping entries → (∃ key x, (key, x) ∈ entries ∧ ¬ IsText key) →
    ∃ found, readConfig L text = .error (.invalid found)
  refused : ∀ entries, v = .mapping entries → (∀ key x, (key, x) ∈ entries → IsText key) →
    ¬ Config.Fits entries → readConfig L text = .error (.invalid (Config.report entries))

theorem configAnswer_of_document {L : Loader} (hL : L.Documented) {text : String} {v : Value}
    (hdocument : L.document text = .ok v) (hverbatim : L.Verbatim v) : ConfigAnswer L text v := by
  have hread : readConfig L text = (Config.ofValue L v).mapError .invalid :=
    readDocument_eq hdocument _
  have honce := hL.bindsOnce hdocument
  have hok (config : Config) :
      readConfig L text = .ok config ↔ Config.ofValue L v = .ok config := by
    rw [hread, mapError_eq_ok_iff]
  have herror {found : List Violation} (h : Config.ofValue L v = .error found) :
      readConfig L text = .error (.invalid found) := by
    rw [hread, h]
    rfl
  refine ⟨fun hvoid => (hok _).mpr (Config.ofValue_void hL hvoid), fun hvoid => ?_, ?_,
    fun hvoid h => herror (Config.ofValue_notMapping hL hvoid h), ?_, ?_⟩
  · simp only [hok]
    exact Config.exists_ofValue_iff hL hverbatim honce hvoid
  · rintro entries config rfl hconfig
    exact Config.follows_of_ofValue hL hverbatim honce ((hok _).mp hconfig)
  · rintro entries rfl h
    obtain ⟨found, hfound⟩ := Config.ofValue_badKey hL hverbatim h
    exact ⟨found, herror hfound⟩
  · rintro entries rfl hkeys h
    have hreports := Config.reports_ofValue hL hverbatim honce hkeys
    exact herror (hreports.eq_error (mt (Config.report_eq_nil_iff hkeys).mp h))

/-- A config with something wrong in each of its sections, which stand in another order. -/
def wrongConfig : String := "rules: {a: 1, 2: x}\npolicy_files: [x, 4]\nversion: 3\n"

/-- The entries of a mapping. -/
def entriesIn : Value → List (Value × Value)
  | .mapping entries => entries
  | _ => []

/-- What is wrong with it as a config. -/
def wrongSections : List Violation :=
  [⟨.notText, [.name "version"]⟩, ⟨.notPath, [.name "policy_files", .number 1]⟩,
    ⟨.notText, [.name "rules", .name "a"]⟩, ⟨.notText, [.name "rules", .number 2, .key]⟩]

/-- What is wrong with it as a policy. -/
def wrongTexts : List Violation :=
  [⟨.notText, [.name "rules"]⟩, ⟨.notText, [.name "policy_files"]⟩, ⟨.notText, [.name "version"]⟩]

theorem document_wrongConfig : ∃ entries,
    Loader.standard.document wrongConfig = .ok (.mapping entries) ∧
      Value.hasBytes (.mapping entries) = false ∧
      (∀ key x, (key, x) ∈ entries → IsText key) ∧
      policyReport (.mapping entries) = wrongTexts ∧ Config.report entries = wrongSections := by
  have hlook : (Loader.standard.document wrongConfig).map (fun v => (v.hasBytes, policyReport v,
      Config.report (entriesIn v), (entriesIn v).all fun entry => entry.1.text?.isSome)) =
      .ok (false, wrongTexts, wrongSections, true) := by
    decide +kernel
  obtain ⟨v, hv, hfacts⟩ := map_eq_ok_iff.mp hlook
  rw [Prod.mk.injEq, Prod.mk.injEq, Prod.mk.injEq, List.all_eq_true] at hfacts
  obtain ⟨hbytes, hpolicy, hconfig, hkeys⟩ := hfacts
  cases v with
  | mapping entries =>
    refine ⟨entries, hv, hbytes, fun key x hmem => ?_, hpolicy, hconfig⟩
    obtain ⟨s, hs⟩ := Option.isSome_iff_exists.mp (hkeys _ hmem)
    exact ⟨s, text?_eq_some_iff.mp hs⟩
  | _ => cases hpolicy

end AccessPolicy
