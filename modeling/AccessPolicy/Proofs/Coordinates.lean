import AccessPolicy.Proofs.ErrorPlace
import Mathlib.Algebra.BigOperators.Group.List.Basic
import Mathlib.Algebra.Order.Ring.Nat
import Mathlib.Data.List.Nodup

/-!
# The coordinates of an error

An error is reported by its offset, by a line and a column, and with what was expected there. Main
statement: `parse_error_coordinates`. Some reading has failed at the offset and none has failed
further on, what is expected are the expectations of the failures there, each once, and the line and
the column lead back to the offset.

Line and column come from the text in front of the error alone, the one by counting and the other by
looking back. `exists_lines` says what both are: the lines that are finished in front of a place,
and what the line of the place begins with.
-/

namespace AccessPolicy

variable {cs : List Char} {error : SyntaxError}

/-! ## Lines -/

theorem splitOn_newline_cons (cs : List Char) :
    ('\n' :: cs).splitOn '\n' = [] :: cs.splitOn '\n' := by
  rw [List.splitOn_eq_splitOnP, List.splitOn_eq_splitOnP, List.splitOnP_cons_eq_if_modifyHead]
  rfl

theorem splitOn_cons_of_ne {c : Char} (hc : c ≠ '\n') {first : List Char} {more : List (List Char)}
    (h : cs.splitOn '\n' = first :: more) : (c :: cs).splitOn '\n' = (c :: first) :: more := by
  rw [List.splitOn_eq_splitOnP] at h ⊢
  rw [List.splitOnP_cons_eq_if_modifyHead, if_neg (by simpa using hc), h]
  rfl

/-- The lines of a text, cut at a place: those that end in front of it, then the line of the place,
of which `current` is in front, and the lines behind. -/
theorem exists_lines (before : List Char) :
    ∃ finished current, finished.length + 1 = lineAfter before ∧
      current.length + 1 = columnAfter before ∧
      (finished.map fun line => line.length + 1).sum + current.length = before.length ∧
      ∀ behind first more, behind.splitOn '\n' = first :: more →
        (before ++ behind).splitOn '\n' = finished ++ (current ++ first) :: more := by
  induction before using List.reverseRecOn with
  | nil => exact ⟨[], [], rfl, rfl, rfl, fun _ _ _ h => h⟩
  | append_singleton before c ih =>
    obtain ⟨finished, current, hline, hcolumn, hlength, hsplit⟩ := ih
    by_cases hc : c = '\n'
    · -- the line is finished, and the next one begins
      subst hc
      refine ⟨finished ++ [current], [], ?_, ?_, ?_, fun behind first more h => ?_⟩
      · simp [lineAfter] at hline ⊢
        omega
      · simp [columnAfter]
      · rw [List.map_append, List.sum_append, List.length_append, ← hlength]
        rfl
      · rw [List.append_assoc, List.singleton_append,
          hsplit _ _ _ ((splitOn_newline_cons behind).trans (congrArg _ h))]
        simp
    · refine ⟨finished, current ++ [c], ?_, ?_, ?_, fun behind first more h => ?_⟩
      · simpa [lineAfter, hc] using hline
      · simp [columnAfter, hc] at hcolumn ⊢
        omega
      · rw [List.length_append, List.length_append, ← hlength]
        rfl
      · rw [List.append_assoc, List.singleton_append, hsplit _ _ _ (splitOn_cons_of_ne hc h)]
        simp

/-! ## Expectations -/

theorem nodup_eraseDups {α : Type} [BEq α] [LawfulBEq α] (as : List α) : as.eraseDups.Nodup := by
  induction hlength : as.length using Nat.strongRecOn generalizing as with
  | ind n ih =>
    subst hlength
    cases as with
    | nil => simp
    | cons a as =>
      rw [List.eraseDups_cons, List.nodup_cons, List.mem_eraseDups]
      have hle := List.length_filter_le (fun b => !b == a) as
      exact ⟨by simp, ih _ (Nat.lt_succ_of_le hle) _ rfl⟩

/-- Different expectations are told in different words. -/
theorem Expectation.text_injective : Function.Injective Expectation.text := by
  intro x y h
  rw [← String.toList_inj] at h
  cases x <;> cases y <;> simp_all [text]

/-! ## Errors -/

theorem offset_le_of_error (h : parseChars cs = .error error) : error.offset ≤ cs.length := by
  rw [(parseChars_eq_error_iff.mp h).2, SyntaxError.offset_ofFailures]
  exact Nat.sub_le _ _

/-- The failure is at the place of the error exactly if it leaves least. -/
theorem rest_eq_drop_iff {f : Failure} (hf : f ∈ (ruleReadings cs).failures) :
    f.rest = cs.drop (cs.length - leastRest cs.length (ruleReadings cs).failures) ↔
      f.rest.length = leastRest cs.length (ruleReadings cs).failures := by
  obtain ⟨hbound, -⟩ := le_leastRest_iff.mp
    (Nat.le_refl (leastRest cs.length (ruleReadings cs).failures))
  constructor
  · intro h
    rw [h, List.length_drop]
    omega
  · intro h
    rw [← h]
    exact List.suffix_iff_eq_drop.mp (failure_suffix hf)

/-- An error is where some reading has failed, and none has failed further on. -/
theorem exists_farthest_of_error (h : parseChars cs = .error error) :
    (∃ f ∈ (ruleReadings cs).failures, f.rest = cs.drop error.offset) ∧
      ∀ f ∈ (ruleReadings cs).failures, ∃ place, place ≤ error.offset ∧ f.rest = cs.drop place := by
  obtain ⟨f, hf, hcs⟩ := exists_failure_of_error h
  obtain ⟨-, rfl⟩ := parseChars_eq_error_iff.mp h
  refine ⟨⟨f, hf, ?_⟩, fun g hg => ⟨cs.length - g.rest.length, ?_, ?_⟩⟩
  · exact List.append_cancel_left (hcs.symm.trans (List.take_append_drop _ cs).symm)
  · obtain ⟨-, hleast⟩ := le_leastRest_iff.mp
      (Nat.le_refl (leastRest cs.length (ruleReadings cs).failures))
    rw [SyntaxError.offset_ofFailures]
    exact Nat.sub_le_sub_left (hleast g hg) cs.length
  · exact List.suffix_iff_eq_drop.mp (failure_suffix hg)

/-- What is expected is what the failures at the place of the error expect. -/
theorem mem_expected_iff (h : parseChars cs = .error error) (x : Expectation) :
    x ∈ error.expected ↔ ⟨cs.drop error.offset, x⟩ ∈ (ruleReadings cs).failures := by
  obtain ⟨-, rfl⟩ := parseChars_eq_error_iff.mp h
  unfold SyntaxError.ofFailures
  dsimp only
  rw [List.mem_eraseDups, List.mem_map, getD_farthestOffset?]
  constructor
  · rintro ⟨f, hf, rfl⟩
    obtain ⟨hmem, hleast⟩ := List.mem_filter.mp hf
    rwa [← (rest_eq_drop_iff hmem).mpr (of_decide_eq_true hleast)]
  · intro hmem
    have hleast := (rest_eq_drop_iff hmem).mp rfl
    exact ⟨_, List.mem_filter.mpr ⟨hmem, decide_eq_true hleast⟩, rfl⟩

/-- The error does not stand at the beginning for want of a failure. -/
theorem farthestOffset?_of_error (h : parseChars cs = .error error) :
    farthestOffset? cs (ruleReadings cs).failures = some error.offset := by
  obtain ⟨f, hf, -⟩ := exists_failure_of_error h
  obtain ⟨-, rfl⟩ := parseChars_eq_error_iff.mp h
  rw [SyntaxError.offset_ofFailures]
  cases hfailures : (ruleReadings cs).failures with
  | nil =>
    rw [hfailures] at hf
    cases hf
  | cons => rfl

theorem SyntaxError.expectedText_of_ne_nil {e : SyntaxError} (h : e.expected ≠ []) :
    e.expectedText = " or ".intercalate (e.expected.map Expectation.text) := by
  unfold expectedText
  split
  next hnil => exact absurd hnil h
  next => rfl

theorem nodup_expected (h : parseChars cs = .error error) : error.expected.Nodup := by
  obtain ⟨-, rfl⟩ := parseChars_eq_error_iff.mp h
  exact nodup_eraseDups _

/-- **The coordinates of an error.** A reading has failed at the place of the error, and none has
failed further on, so the place is that of a failure and not the beginning for want of one. It is
inside of the text or at its end. What was expected is something, and not an expression for want of
anything: in words and each once, the expectations of the failures there. The line is one of the
text, the column one of the line or the place behind it, and with the lines in front of it, each with
its newline, they come to the offset. -/
theorem parse_error_coordinates {text : String} (h : Expr.parse text = .error error) :
    (farthestOffset? text.toList (ruleReadings text.toList).failures = some error.offset ∧
      (∃ f ∈ (ruleReadings text.toList).failures, f.rest = text.toList.drop error.offset) ∧
      ∀ f ∈ (ruleReadings text.toList).failures,
        ∃ place, place ≤ error.offset ∧ f.rest = text.toList.drop place) ∧
    error.offset ≤ text.toList.length ∧
    (error.expectedText = " or ".intercalate (error.expected.map Expectation.text) ∧
      error.expected ≠ [] ∧ (error.expected.map Expectation.text).Nodup ∧
      ∀ x, x ∈ error.expected ↔
        ⟨text.toList.drop error.offset, x⟩ ∈ (ruleReadings text.toList).failures) ∧
    ∃ before line behind, text.toList.splitOn '\n' = before ++ line :: behind ∧
      error.line = before.length + 1 ∧ 1 ≤ error.column ∧ error.column - 1 ≤ line.length ∧
      (before.map fun line => line.length + 1).sum + (error.column - 1) = error.offset := by
  have hfarthest := exists_farthest_of_error h
  have hoffset := offset_le_of_error h
  have hexpected := mem_expected_iff h
  have hne : error.expected ≠ [] := by
    obtain ⟨⟨f, hf, hrest⟩, -⟩ := hfarthest
    refine List.ne_nil_of_mem ((hexpected f.expected).mpr ?_)
    rwa [← hrest]
  refine ⟨⟨farthestOffset?_of_error h, hfarthest⟩, hoffset,
    ⟨SyntaxError.expectedText_of_ne_nil hne, hne, ?_, hexpected⟩, ?_⟩
  · exact List.Nodup.map Expectation.text_injective (nodup_expected h)
  · obtain ⟨finished, current, hline, hcolumn, hlength, hsplit⟩ :=
      exists_lines (text.toList.take error.offset)
    obtain ⟨first, more, hbehind⟩ := List.exists_cons_of_ne_nil
      (List.splitOn_ne_nil '\n' (text.toList.drop error.offset))
    have hlines := hsplit _ _ _ hbehind
    rw [List.take_append_drop] at hlines
    rw [List.length_take, Nat.min_eq_left hoffset] at hlength
    obtain ⟨-, herror⟩ := parseChars_eq_error_iff.mp h
    have hline' : error.line = lineAfter (text.toList.take error.offset) := by
      rw [herror]
      rfl
    have hcolumn' : error.column = columnAfter (text.toList.take error.offset) := by
      rw [herror]
      rfl
    rw [← hline] at hline'
    rw [← hcolumn] at hcolumn'
    refine ⟨finished, _, more, hlines, hline', ?_, ?_, ?_⟩
    · omega
    · rw [hcolumn', List.length_append]
      omega
    · rw [hcolumn']
      exact hlength

/-- At the beginning of the third line, the group of the second may be closed or still open. -/
theorem parse_error_coordinates_third :
    Expr.parse "@ and\n(a:b)\nxor" = .error ⟨12, 3, 1, [.closingParenthesis, .operatorOrEnd]⟩ ∧
    (∃ f ∈ (ruleReadings "@ and\n(a:b)\nxor".toList).failures, f.rest = ['x', 'o', 'r']) ∧
    ∃ before line behind, "@ and\n(a:b)\nxor".toList.splitOn '\n' = before ++ line :: behind ∧
      3 = before.length + 1 ∧ (before.map fun line => line.length + 1).sum + (1 - 1) = 12 := by
  have herror : Expr.parse "@ and\n(a:b)\nxor" =
      .error ⟨12, 3, 1, [.closingParenthesis, .operatorOrEnd]⟩ := by decide
  obtain ⟨⟨-, hfailure, -⟩, -, -, before, line, behind, hlines, hline, -, -, hoffset⟩ :=
    parse_error_coordinates herror
  exact ⟨herror, hfailure, before, line, behind, hlines, hline, hoffset⟩

end AccessPolicy
