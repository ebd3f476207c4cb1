import AccessPolicy.CommandLine
import AccessPolicy.Proofs.BulkUpdates

/-!
# Values that are pairs

Attributes are described on the command line by values that are a name and a value with an equals
sign between them. The first equals sign of a text is the one that counts (`pair?_eq_some_iff`), and
a text without one, or without a name in front of it, is no pair (`pair?_eq_none_iff`).

The values of an option are read one after the other, up to the first that is no pair (`pairs_eq`).
They become a dictionary, in which of several values under one name the last one stays
(`Dict.find?_ofList`). So only the order of the values under the same name matters
(`lastEntry_underName`); and a dictionary is the one that its own entries describe, as long as its
names can be written (`requestOf_spelled`).
-/

namespace AccessPolicy

namespace CommandLine

/-! ## One value -/

/-- A text that is no pair: it has no equals sign, or nothing in front of it. -/
def NoPair (text : String) : Prop := '=' ∉ text.toList ∨ ∃ value, text = "=" ++ value

theorem splitAtEquals_of_not_mem {text : String} (h : '=' ∉ text.toList) :
    splitAtEquals text = (text, none) := by
  have hrest : text.toList.dropWhile (· ≠ '=') = [] := by
    rw [List.dropWhile_eq_nil_iff]
    exact fun c hc => decide_eq_true fun heq => h (heq ▸ hc)
  unfold splitAtEquals
  simp only [hrest]

theorem splitAtEquals_append {name : String} (h : '=' ∉ name.toList) (value : String) :
    splitAtEquals (name ++ "=" ++ value) = (name, some value) := by
  have hname : ∀ c ∈ name.toList, decide (c ≠ '=') = true :=
    fun c hc => decide_eq_true fun heq => h (heq ▸ hc)
  have htext : (name ++ "=" ++ value).toList = name.toList ++ '=' :: value.toList := by simp
  unfold splitAtEquals
  simp only [htext, List.dropWhile_append_of_pos hname, List.takeWhile_append_of_pos hname]
  simp

/-- A text has no equals sign, or it has a first one. -/
theorem exists_first_equals (text : String) : '=' ∉ text.toList ∨
    ∃ name value : String, text = name ++ "=" ++ value ∧ '=' ∉ name.toList := by
  by_cases h : '=' ∈ text.toList
  · obtain ⟨name, value, htext, hname⟩ := List.eq_append_cons_of_mem h
    refine Or.inr ⟨String.ofList name, String.ofList value, ?_, by simpa using hname⟩
    rw [← String.toList_inj, htext]
    simp
  · exact Or.inl h

theorem pair?_of_not_mem {text : String} (h : '=' ∉ text.toList) : pair? text = none := by
  unfold pair?
  rw [splitAtEquals_of_not_mem h]
  split
  next => rfl
  next => rfl
  next heq => cases congrArg Prod.snd heq

theorem pair?_append {name : String} (h : '=' ∉ name.toList) (value : String) :
    pair? (name ++ "=" ++ value) = if name = "" then none else some (name, value) := by
  unfold pair?
  rw [splitAtEquals_append h]
  split
  next heq => rw [if_pos (congrArg Prod.fst heq)]
  next heq => cases congrArg Prod.snd heq
  next hne heq =>
    obtain ⟨rfl, hvalue⟩ := Prod.mk.inj heq
    rw [if_neg hne, Option.some.inj hvalue]

/-- A pair is split at its first equals sign, so the value may have more of them. -/
theorem pair?_eq_some_iff {text name value : String} : pair? text = some (name, value) ↔
    text = name ++ "=" ++ value ∧ name ≠ "" ∧ '=' ∉ name.toList := by
  constructor
  · intro h
    rcases exists_first_equals text with hnone | ⟨name', value', rfl, hname'⟩
    · rw [pair?_of_not_mem hnone] at h
      cases h
    · rw [pair?_append hname'] at h
      split at h
      next => cases h
      next hne =>
        cases h
        exact ⟨rfl, hne, hname'⟩
  · rintro ⟨rfl, hne, hname⟩
    rw [pair?_append hname, if_neg hne]

theorem pair?_eq_none_iff {text : String} : pair? text = none ↔ NoPair text := by
  constructor
  · intro h
    rcases exists_first_equals text with hnone | ⟨name, value, rfl, hname⟩
    · exact Or.inl hnone
    · rw [pair?_append hname] at h
      split at h
      next heq => exact Or.inr ⟨value, by rw [heq]; rfl⟩
      next => cases h
  · rintro (h | ⟨value, rfl⟩)
    · exact pair?_of_not_mem h
    · have hempty : '=' ∉ "".toList := by decide
      exact pair?_append hempty value

/-! ## The values of an option -/

/-- The pairs of an option, unless a value is none: then the first such value is the error. -/
theorem pairs_eq (option : OptionSpec) (texts : List String) :
    pairs option texts =
      match texts.find? fun text => (pair? text).isNone with
      | none => .ok (texts.filterMap pair?)
      | some text => .error (.notPair option text) := by
  induction texts with
  | nil => rfl
  | cons text texts ih =>
    rw [pairs, List.find?_cons]
    cases h : pair? text with
    | none => rfl
    | some p =>
      rw [ih, List.filterMap_cons_some h]
      dsimp only [Option.isNone_some]
      cases texts.find? fun text => (pair? text).isNone <;> rfl

theorem pairs_eq_ok (option : OptionSpec) {texts : List String}
    (h : ∀ text ∈ texts, ¬ NoPair text) : pairs option texts = .ok (texts.filterMap pair?) := by
  have hnone : texts.find? (fun text => (pair? text).isNone) = none := by
    rw [List.find?_eq_none]
    intro text hmem hwrong
    exact h text hmem (pair?_eq_none_iff.mp (Option.isNone_iff_eq_none.mp hwrong))
  rw [pairs_eq, hnone]

theorem pairs_eq_error (option : OptionSpec) {texts : List String} {wrong : String}
    (hmem : wrong ∈ texts) (hwrong : NoPair wrong) :
    ∃ text ∈ texts, NoPair text ∧ pairs option texts = .error (.notPair option text) := by
  rw [pairs_eq]
  cases h : texts.find? fun text => (pair? text).isNone with
  | none =>
    have hsome := List.find?_eq_none.mp h wrong hmem
    rw [pair?_eq_none_iff.mpr hwrong] at hsome
    exact absurd rfl hsome
  | some text =>
    have hnone : (pair? text).isNone = true := by simpa using List.find?_some h
    exact ⟨text, List.mem_of_find?_eq_some h,
      pair?_eq_none_iff.mp (Option.isNone_iff_eq_none.mp hnone), rfl⟩

/-- The values under a name, in their order. -/
def underName (name : String) (texts : List String) : List String :=
  texts.filter fun text => (pair? text).map Prod.fst = some name

/-- What is last under a name is a matter of the values under it. -/
theorem lastEntry_underName (name : String) (texts : List String) :
    lastEntry name ((underName name texts).filterMap pair?) =
      lastEntry name (texts.filterMap pair?) := by
  induction texts with
  | nil => rfl
  | cons text texts ih =>
    cases h : pair? text with
    | none =>
      have hunder : underName name (text :: texts) = underName name texts :=
        List.filter_cons_of_neg (by simp [h])
      rw [hunder, List.filterMap_cons_none h, ih]
    | some p =>
      obtain ⟨n, value⟩ := p
      rw [List.filterMap_cons_some h, lastEntry, ← ih]
      by_cases hn : n = name
      · have hunder : underName name (text :: texts) = text :: underName name texts :=
          List.filter_cons_of_pos (by simp [h, hn])
        rw [hunder, List.filterMap_cons_some h, lastEntry]
      · have hunder : underName name (text :: texts) = underName name texts :=
          List.filter_cons_of_neg (by simp [h, hn])
        rw [hunder, if_neg hn, Option.or_none]

/-! ## The request that is described -/

/-- The request that the values of the options describe, where these are pairs. -/
def requestOf (roles attributes target : List String) : Request :=
  ⟨⟨roles, Dict.ofList (attributes.filterMap pair?)⟩,
    .known (Dict.ofList (target.filterMap pair?))⟩

theorem described_eq_ok (roles : List String) {attributes target : List String}
    (h : ∀ text ∈ attributes ++ target, ¬ NoPair text) :
    described roles attributes target = .ok (requestOf roles attributes target) := by
  rw [List.forall_mem_append] at h
  rw [described, pairs_eq_ok _ h.1, pairs_eq_ok _ h.2]
  rfl

/-- Names that can be written in front of an equals sign. -/
def Spellable (d : Dict String) : Prop := ∀ name ∈ d.keys, name ≠ "" ∧ '=' ∉ name.toList

/-- Values that describe a dictionary, entry by entry. -/
def spelled (d : Dict String) : List String :=
  d.entries.map fun (name, value) => name ++ "=" ++ value

theorem pair?_spelled {d : Dict String} (hd : Spellable d) {name value : String}
    (h : (name, value) ∈ d.entries) : pair? (name ++ "=" ++ value) = some (name, value) := by
  obtain ⟨hne, hname⟩ := hd name (List.mem_map.mpr ⟨_, h, rfl⟩)
  exact pair?_eq_some_iff.mpr ⟨rfl, hne, hname⟩

theorem not_noPair_of_mem_spelled {d : Dict String} (hd : Spellable d) :
    ∀ text ∈ spelled d, ¬ NoPair text := by
  intro text htext
  obtain ⟨⟨name, value⟩, hmem, rfl⟩ := List.mem_map.mp htext
  rw [← pair?_eq_none_iff, pair?_spelled hd hmem]
  exact Option.some_ne_none _

theorem filterMap_spelled {d : Dict String} (hd : Spellable d) :
    (spelled d).filterMap pair? = d.entries := by
  have hid : ∀ entry ∈ d.entries,
      (pair? ∘ fun (name, value) => name ++ "=" ++ value) entry = some entry :=
    fun _ hmem => pair?_spelled hd hmem
  rw [spelled, List.filterMap_map, List.filterMap_congr hid, List.filterMap_some]

/-- Dictionaries are what their entries describe. -/
theorem requestOf_spelled (roles : List String) {attributes target : Dict String}
    (hattributes : Spellable attributes) (htarget : Spellable target) :
    requestOf roles (spelled attributes) (spelled target) =
      ⟨⟨roles, attributes⟩, .known target⟩ := by
  rw [requestOf, filterMap_spelled hattributes, filterMap_spelled htarget, Dict.ofList_entries,
    Dict.ofList_entries]

end CommandLine
end AccessPolicy
