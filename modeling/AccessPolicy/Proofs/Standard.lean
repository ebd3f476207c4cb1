import AccessPolicy.CommandLine.Standard
import AccessPolicy.Proofs.Calls
import AccessPolicy.Proofs.Keys

/-!
# What the program comes with

What is stated about any loader and any reader of words holds of those that the program comes with:
its loader does what loaders have in common (`Loader.documented_standard`), and so does its reader
of words (`CommandLine.readsWords_standard`).

Its loader makes texts of bytes that encode one, and of nothing else. So a document is taken as it
stands unless it has such bytes (`Loader.verbatim_standard`), and whether it has any can be computed
(`Document.Value.hasBytes`).
-/

namespace AccessPolicy

open Document (Value Within)

/-! ## Bytes in documents -/

namespace Document.Value

mutual

/-- Whether some part of a value is bytes. -/
def hasBytes : Value → Bool
  | .bytes _ => true
  | .sequence items => itemsHaveBytes items
  | .mapping entries => entriesHaveBytes entries
  | _ => false

/-- Whether some part of some item is bytes. -/
def itemsHaveBytes : List Value → Bool
  | [] => false
  | x :: items => hasBytes x || itemsHaveBytes items

/-- Whether some part of some key or value is bytes. -/
def entriesHaveBytes : List (Value × Value) → Bool
  | [] => false
  | (key, x) :: entries => hasBytes key || hasBytes x || entriesHaveBytes entries

end

theorem itemsHaveBytes_of_mem {items : List Value} {x : Value} (hmem : x ∈ items)
    (h : x.hasBytes = true) : itemsHaveBytes items = true := by
  induction items with
  | nil => cases hmem
  | cons y items ih =>
    rw [itemsHaveBytes, Bool.or_eq_true]
    rcases List.mem_cons.mp hmem with rfl | hmem
    · exact Or.inl h
    · exact Or.inr (ih hmem)

theorem entriesHaveBytes_of_mem {entries : List (Value × Value)} {key x : Value}
    (hmem : (key, x) ∈ entries) (h : key.hasBytes = true ∨ x.hasBytes = true) :
    entriesHaveBytes entries = true := by
  induction entries with
  | nil => cases hmem
  | cons entry entries ih =>
    obtain ⟨k, y⟩ := entry
    rw [entriesHaveBytes, Bool.or_eq_true, Bool.or_eq_true]
    rcases List.mem_cons.mp hmem with heq | hmem
    · obtain ⟨rfl, rfl⟩ := Prod.mk.inj heq
      exact Or.inl h
    · exact Or.inr (ih hmem)

theorem hasBytes_of_within {bs : List UInt8} {v : Value} (h : Within (.bytes bs) v) :
    v.hasBytes = true := by
  induction h with
  | here => rfl
  | item hmem _ ih => exact itemsHaveBytes_of_mem hmem ih
  | key hmem _ ih => exact entriesHaveBytes_of_mem hmem (Or.inl ih)
  | value hmem _ ih => exact entriesHaveBytes_of_mem hmem (Or.inr ih)

end Document.Value

/-! ## The loader -/

namespace Loader

theorem document_standard_eq_ok_iff {text : String} {v : Value} :
    standard.document text = .ok v ↔ Document.load documentDepth text = .ok v := by
  change (Document.load documentDepth text).mapError _ = _ ↔ _
  cases Document.load documentDepth text <;> simp [Except.mapError]

theorem isNone_toOption_iff {key : Value} :
    (checkText key).toOption.isNone = true ↔ ¬ ∃ s, checkText key = .ok s := by
  cases checkText key <;> simp [Except.toOption]

/-- The loader of the program does what loaders have in common. -/
theorem documented_standard : standard.Documented where
  bindsOnce h := Document.bindsOnceWithin_of_load (document_standard_eq_ok_iff.mp h)
  text _ := rfl
  path _ := rfl
  list _ _ := rfl
  notList {_} _ {v} h := by
    cases v with
    | sequence items => exact absurd rfl (h items)
    | _ => rfl
  mapping _ _ := rfl
  notMapping {_} _ {v} h := by
    cases v with
    | mapping entries => exact absurd rfl (h entries)
    | _ => rfl
  record {_} fields {entries} h := by
    change Fields.check fields (.mapping entries) = (fields.checkWith Shape.check entries).map _
    unfold Fields.check
    dsimp only
    split
    next key x hfind =>
      -- all keys are texts, and this one would be none
      have hwrong := List.find?_some hfind
      exact absurd (h key x (List.mem_of_find?_eq_some hfind)) (isNone_toOption_iff.mp hwrong)
    next => rfl
  badKey {_} fields {entries} h := by
    change ∃ found, Fields.check fields (.mapping entries) = .error found
    unfold Fields.check
    dsimp only
    split
    next key x _ => exact ⟨_, rfl⟩
    next hnone =>
      rw [List.find?_eq_none] at hnone
      refine absurd (fun key x hmem => ?_) h
      by_contra hwrong
      exact hnone _ hmem (isNone_toOption_iff.mpr hwrong)
  notRecord {_} _ {v} h := by
    cases v with
    | mapping entries => exact absurd rfl (h entries)
    | _ => rfl

/-- A document is taken as it stands unless bytes in it encode a text. -/
theorem verbatim_standard {v : Value}
    (h : ∀ bs s, Within (.bytes bs) v → String.fromUTF8? ⟨bs.toArray⟩ ≠ some s) :
    standard.Verbatim v := by
  intro x hwithin htext
  have hx : textOfValue x = .error (.ofNoText x) := by
    cases x with
    | text s => exact absurd rfl (htext s)
    | bytes bs =>
      rw [textOfValue]
      split
      next s hs => exact absurd hs (h bs s hwithin)
      next => rfl
    | _ => rfl
  change checkText x = _ ∧ (textOfValue x).mapError _ = _
  rw [checkText, hx]
  exact ⟨rfl, rfl⟩

theorem verbatim_of_hasBytes_eq_false {v : Value} (h : v.hasBytes = false) :
    standard.Verbatim v := by
  refine verbatim_standard fun bs s hwithin => ?_
  rw [Document.Value.hasBytes_of_within hwithin] at h
  cases h

end Loader

/-! ## The reader of words -/

namespace CommandLine

/-- The reader of words of the program does what readers of words have in common. -/
theorem readsWords_standard : Packages.standard.ReadsWords where
  nothing _ _ := rfl
  argument specs {word} h rest := by
    obtain ⟨hdashes, hoption⟩ := not_isOptionWord h
    change readWords specs false _ = (readWords specs false rest).map _
    rw [readWords, if_neg hdashes, hoption, if_neg Bool.false_ne_true]
    cases readWords specs false rest <;> rfl
  command specs {word} h rest := by
    obtain ⟨hdashes, hoption⟩ := not_isOptionWord h
    change readWords specs true _ = _
    rw [readWords, if_neg hdashes, hoption, if_neg Bool.false_ne_true]
    rfl
  verbose {word} h rest := by
    change readWords programOptions true _ = (readWords programOptions true rest).map _
    rcases h with rfl | rfl
    all_goals
      rw [readWords, if_neg (by decide), if_pos (by decide)]
      cases readWords programOptions true rest <;> rfl
  option {o} h value rest := by
    -- the long name stands for the option alone, which goes on to the next word for its value
    have hword : o.long ≠ "--" ∧ isOptionWord o.long = true ∧
        wordOptions checkSpecs o.long = .ok ⟨[], some (o.long, o)⟩ := by
      simp only [valueSpecs, List.mem_cons, List.not_mem_nil, or_false] at h
      rcases h with rfl | rfl | rfl
      all_goals exact ⟨by decide, by decide, rfl⟩
    change readWords checkSpecs false _ = (readWords checkSpecs false rest).map _
    rw [readWords, if_neg hword.1, if_pos hword.2.1, hword.2.2]
    cases h : readWords checkSpecs false rest <;>
      simp [h, bind, Except.bind, pure, Except.pure, Except.map]

end CommandLine
end AccessPolicy
