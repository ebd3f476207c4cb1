import AccessPolicy.Proofs.Completion
import AccessPolicy.Proofs.Lookahead

/-!
# The place of an error

Main statement: `parse_error_located`. The text in front of an error can be completed to a rule, and
nothing that stands more than four characters behind it can make the text a rule: every text with the
same beginning has the same error.

The error is at the farthest failure. What is in front of a failure can be completed
(`failure_completable`), and where all failures are in front of the last four characters the text
settles them all (`settled_ruleReadings`).
-/

namespace AccessPolicy

variable {before behind cs : List Char} {error : SyntaxError}

/-! ## The farthest failure -/

theorem exists_farthest {bound : Nat} {fs : List Failure} (hne : fs ≠ [])
    (hbound : ∀ f ∈ fs, f.rest.length ≤ bound) :
    ∃ f ∈ fs, f.rest.length = leastRest bound fs := by
  obtain ⟨f, hf⟩ := List.exists_mem_of_ne_nil fs hne
  obtain ⟨-, hleast⟩ := le_leastRest_iff.mp (Nat.le_refl (leastRest bound fs))
  by_contra hnone
  push Not at hnone
  -- otherwise all of them are nearer than the farthest
  have hlt : ∀ g ∈ fs, leastRest bound fs + 1 ≤ g.rest.length := fun g hg =>
    Nat.lt_of_le_of_ne (hleast g hg) (hnone g hg).symm
  have hfirst := Nat.le_trans (hlt f hf) (hbound f hf)
  exact Nat.not_succ_le_self _ (le_leastRest_iff.mpr ⟨hfirst, hlt⟩)

theorem ruleReadings_ne_nil (cs : List Char) : ruleReadings cs ≠ [] :=
  Trace.andThen_ne_nil (readings_ne_nil _ _) fun e rest _ => (finishRule_advances e rest).1

/-- A text is no rule where nothing complete is found in it, and then all that happens are failures. -/
theorem parseChars_eq_error_iff {error : SyntaxError} :
    parseChars cs = .error error ↔
      (∀ s ∈ ruleReadings cs, ∃ f, s = .failed f) ∧
        error = SyntaxError.ofFailures cs (ruleReadings cs).failures := by
  have hnone : completeReading? cs = none ↔ ∀ s ∈ ruleReadings cs, ∃ f, s = .failed f := by
    rw [completeReading?_eq_first, Trace.first, List.findSome?_eq_none_iff]
    refine forall₂_congr fun s _ => ?_
    cases s <;> simp
  rw [← hnone, parseChars]
  cases completeReading? cs with
  | some e => simp
  | none => simp [eq_comm]

/-- An error is where one of the failures is. -/
theorem exists_failure_of_error (h : parseChars cs = .error error) :
    ∃ f ∈ (ruleReadings cs).failures, cs = cs.take error.offset ++ f.rest := by
  obtain ⟨hfailed, rfl⟩ := parseChars_eq_error_iff.mp h
  have hne : (ruleReadings cs).failures ≠ [] := by
    obtain ⟨s, hs⟩ := List.exists_mem_of_ne_nil _ (ruleReadings_ne_nil cs)
    obtain ⟨f, rfl⟩ := hfailed s hs
    exact List.ne_nil_of_mem (List.mem_filterMap.mpr ⟨_, hs, rfl⟩)
  obtain ⟨f, hf, hleast⟩ := exists_farthest hne fun f hf => (failure_suffix hf).length_le
  obtain ⟨front, hcs⟩ := failure_suffix hf
  refine ⟨f, hf, ?_⟩
  have hoffset : (SyntaxError.ofFailures cs (ruleReadings cs).failures).offset = front.length := by
    rw [SyntaxError.offset_ofFailures, ← hleast, ← hcs, List.length_append, Nat.add_sub_cancel]
  rw [hoffset, ← hcs, List.take_left]

/-- What stands in front of an error is the beginning of a rule. -/
theorem parseChars_completable (h : parseChars cs = .error error) :
    ∃ more e, CompleteReading (cs.take error.offset ++ more) e := by
  obtain ⟨f, hf, hcs⟩ := exists_failure_of_error h
  obtain ⟨front, more, e, hfront, hread⟩ := failure_completable hf
  have hoffset : front = cs.take error.offset := List.append_cancel_right (hfront.symm.trans hcs)
  rw [← hoffset]
  exact ⟨more, e, hread⟩

/-! ## What is behind an error -/

theorem leastRest_extended (more : List Char) (bound : Nat) (fs : List Failure) :
    leastRest (bound + more.length) (fs.map (Failure.extended more)) =
      leastRest bound fs + more.length := by
  induction fs generalizing bound with
  | nil => rfl
  | cons f fs ih =>
    have hmin : min (bound + more.length) (f.extended more).rest.length =
        min bound f.rest.length + more.length := by
      rw [Failure.extended, List.length_append, Nat.add_min_add_right]
    unfold leastRest at ih ⊢
    rw [List.map_cons, List.foldl_cons, List.foldl_cons, hmin, ih]

theorem farthestOffset?_extended (cs more : List Char) (fs : List Failure) :
    farthestOffset? (cs ++ more) (fs.map (Failure.extended more)) = farthestOffset? cs fs := by
  cases fs with
  | nil => rfl
  | cons f fs =>
    have hleast := leastRest_extended more cs.length (f :: fs)
    rw [← List.length_append] at hleast
    refine congrArg some ?_
    rw [hleast, List.length_append, Nat.add_sub_add_right]

/-- What stands behind an error has no part in it. -/
theorem SyntaxError.ofFailures_extended (cs more : List Char) (fs : List Failure) :
    ofFailures (cs ++ more) (fs.map (Failure.extended more)) = ofFailures cs fs := by
  have hoffset : (farthestOffset? cs fs).getD 0 ≤ cs.length := by
    rw [getD_farthestOffset?]
    exact Nat.sub_le _ _
  have hfarthest : ((fs.map (Failure.extended more)).filter fun f =>
      f.rest.length = leastRest cs.length fs + more.length).map (·.expected) =
      (fs.filter fun f => f.rest.length = leastRest cs.length fs).map (·.expected) := by
    rw [List.filter_map, List.map_map]
    simp only [Function.comp_def, Failure.extended, List.length_append, Nat.add_right_cancel_iff]
  unfold ofFailures
  dsimp only
  rw [farthestOffset?_extended, List.length_append, leastRest_extended, hfarthest,
    List.take_append_of_le_length hoffset]

/-- An error with four characters behind it does not depend on the rest of the text. -/
theorem parseChars_append {error : SyntaxError} (h : parseChars (before ++ behind) = .error error)
    (hlen : error.offset + 4 ≤ before.length) (more : List Char) :
    parseChars (before ++ more) = .error error := by
  obtain ⟨hfailed, herror⟩ := parseChars_eq_error_iff.mp h
  have hleaves : (ruleReadings (before ++ behind)).Leaves (behind.length + 4) := by
    intro s hs
    obtain ⟨f, rfl⟩ := hfailed s hs
    have hmem : f ∈ (ruleReadings (before ++ behind)).failures := List.mem_filterMap.mpr ⟨_, hs, rfl⟩
    obtain ⟨hbound, hleast⟩ := le_leastRest_iff.mp
      (Nat.le_refl (leastRest (before ++ behind).length (ruleReadings (before ++ behind)).failures))
    have hle := hleast f hmem
    have hoffset : error.offset = (before ++ behind).length -
        leastRest (before ++ behind).length (ruleReadings (before ++ behind)).failures := by
      rw [herror, SyntaxError.offset_ofFailures]
    have hsum : (before ++ behind).length = before.length + behind.length := List.length_append
    change _ ≤ f.rest.length
    omega
  have hsettled := settled_ruleReadings hleaves
  rw [parseChars_eq_error_iff]
  constructor
  · intro s hs
    rw [hsettled more] at hs
    obtain ⟨s, hmem, rfl⟩ := List.mem_map.mp hs
    have hbehind : s.extended behind ∈ ruleReadings (before ++ behind) := by
      rw [hsettled behind]
      exact List.mem_map.mpr ⟨s, hmem, rfl⟩
    obtain ⟨f, hf⟩ := hfailed _ hbehind
    cases s with
    | found => cases hf
    | failed f => exact ⟨_, rfl⟩
  · rw [herror, hsettled behind, hsettled more, Trace.failures_extended, Trace.failures_extended,
      SyntaxError.ofFailures_extended, SyntaxError.ofFailures_extended]

/-! ## Errors -/

/-- **The place of an error.** What stands in front of it can be completed to a rule. With four more
characters the error is settled: every text that begins so has the same error, whatever it goes on
with. -/
theorem parse_error_located {text : String} (h : Expr.parse text = .error error) :
    (∃ more e, Expr.parse (String.ofList (text.toList.take error.offset) ++ more) = .ok e) ∧
      (error.offset + 4 ≤ text.toList.length → ∀ text' : String,
        text'.toList.take (error.offset + 4) = text.toList.take (error.offset + 4) →
          Expr.parse text' = .error error) := by
  refine ⟨?_, fun hlen text' hsame => ?_⟩
  · obtain ⟨more, e, hread⟩ := parseChars_completable h
    refine ⟨String.ofList more, exists_parse (e := e) ?_⟩
    rwa [String.toList_append, String.toList_ofList, String.toList_ofList]
  · have hbefore : error.offset + 4 ≤ (text.toList.take (error.offset + 4)).length := by
      rw [List.length_take]
      omega
    unfold Expr.parse at h ⊢
    rw [← List.take_append_drop (error.offset + 4) text.toList] at h
    rw [← List.take_append_drop (error.offset + 4) text'.toList, hsame]
    exact parseChars_append h hbefore _

/-- Behind `(role:admin) ` the group may be closed or still open; `xor` goes on with neither. -/
theorem parse_error_located_group :
    Expr.parse "(role:admin) xor @" = .error ⟨13, 1, 14, [.closingParenthesis, .operatorOrEnd]⟩ ∧
      (∃ more e, Expr.parse ("(role:admin) " ++ more) = .ok e) ∧
      Expr.parse "(role:admin) xor role:owner" =
        .error ⟨13, 1, 14, [.closingParenthesis, .operatorOrEnd]⟩ := by
  have herror : Expr.parse "(role:admin) xor @" =
    .error ⟨13, 1, 14, [.closingParenthesis, .operatorOrEnd]⟩ := by decide
  obtain ⟨hcompletable, hsettled⟩ := parse_error_located herror
  exact ⟨herror, hcompletable, hsettled (by decide) _ (by decide)⟩

end AccessPolicy
