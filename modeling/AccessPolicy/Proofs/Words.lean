import AccessPolicy.RuleSet
import AccessPolicy.Proofs.Squeezing

/-!
# The words of a rule

Only its words make a rule: main statement `parse_words`, two texts with the same words are the
same rule, or neither is one and the same things were expected.

Texts with the same words are squeezed to one text (`squeeze_skipBlanks_eq`), so the same
expressions are found in them. The place of an error is another in each, and of the failures that
decide on it some may come to be at one place when the blanks at the end are gone. But no two
failures of one text are only blanks apart (`rest_eq_of_failures`). How far one of them lies can
therefore be told by the characters behind it that are no blanks (`expected_ofFailures`), and these
are the same in both texts.
-/

namespace AccessPolicy

variable {cs : List Char}

/-- The words of a text: what stands between its runs of blanks. -/
def words (cs : List Char) : List (List Char) := (cs.splitOnP isBlank).filter fun w => !w.isEmpty

/-- The words with a blank between any two of them. -/
def unwords (ws : List (List Char)) : List Char := [' '].intercalate ws

theorem unwords_cons (w : List Char) {ws : List (List Char)} (h : ∀ w ∈ ws, w ≠ []) :
    unwords (w :: ws) = w ++ behindBlank (unwords ws) := by
  cases ws with
  | nil => simp [unwords, behindBlank]
  | cons w' ws =>
    obtain ⟨c, cs, rfl⟩ := List.exists_cons_of_ne_nil (h _ (List.mem_cons_self ..))
    have hrest : ∃ more, unwords ((c :: cs) :: ws) = c :: more := by
      cases ws <;> simp [unwords, List.intercalate]
    obtain ⟨more, hmore⟩ := hrest
    rw [hmore, behindBlank, ← hmore]
    simp [unwords, List.intercalate]

theorem ne_nil_of_mem_filter {w : List Char} {ws : List (List Char)}
    (h : w ∈ ws.filter fun w => !w.isEmpty) : w ≠ [] := by
  rintro rfl
  exact absurd (List.mem_filter.mp h).2 (by simp)

/-- A squeezed text is made of the words: the first may be cut off from the text in front of it, and
the others stand behind a blank. -/
theorem squeeze_eq (cs : List Char) : ∃ w ws, cs.splitOnP isBlank = w :: ws ∧
    squeeze cs = w ++ behindBlank (unwords (ws.filter fun w => !w.isEmpty)) ∧
    skipBlanks (squeeze cs) = unwords (words cs) := by
  induction cs with
  | nil => exact ⟨[], [], rfl, rfl, rfl⟩
  | cons c cs ih =>
    obtain ⟨w, ws, hsplit, hsqueeze, hskip⟩ := ih
    unfold words
    rw [List.splitOnP_cons_eq_if_modifyHead]
    by_cases h : isBlank c = true
    · -- the words of the rest stand behind a blank now
      rw [if_pos h, squeeze_blank h, hskip]
      refine ⟨[], cs.splitOnP isBlank, rfl, rfl, ?_⟩
      rw [← hskip, skipBlanks_behindBlank, skipBlanks_skipBlanks, hskip]
      rfl
    · have hc : isBlank c = false := eq_false_of_ne_true h
      have hcons : squeeze (c :: cs) =
          (c :: w) ++ behindBlank (unwords (ws.filter fun w => !w.isEmpty)) := by
        rw [squeeze_cons hc, hsqueeze, List.cons_append]
      rw [if_neg h, hsplit, List.modifyHead_cons]
      refine ⟨c :: w, ws, rfl, hcons, ?_⟩
      rw [squeeze_cons hc, skipBlanks_cons hc, ← squeeze_cons hc, hcons,
        List.filter_cons_of_pos rfl, unwords_cons _ fun _ => ne_nil_of_mem_filter]

/-- A text without the blanks around it is squeezed to its words. -/
theorem squeeze_skipBlanks_eq (cs : List Char) : squeeze (skipBlanks cs) = unwords (words cs) := by
  obtain ⟨w, ws, -, -, hskip⟩ := squeeze_eq cs
  rw [squeeze_skipBlanks, hskip]

/-- Texts with the same words fail, and are read, alike. -/
theorem ruleReadings_words {ds : List Char} (h : words cs = words ds) :
    (ruleReadings cs).squeezed = (ruleReadings ds).squeezed := by
  rw [← ruleReadings_squeeze, ← ruleReadings_squeeze, squeeze_skipBlanks_eq,
    squeeze_skipBlanks_eq, h]

/-! ## What is found -/

theorem Trace.first_squeezed (t : Trace) :
    (t.squeezed.first fun e _ => some e) = t.first fun e _ => some e := by
  induction t with
  | nil => rfl
  | cons s t ih =>
    cases s with
    | found e rest => rfl
    | failed f => exact ih

theorem Trace.failures_squeezed (t : Trace) :
    t.squeezed.failures = t.failures.map Failure.squeezed := by
  unfold squeezed failures
  rw [List.filterMap_map, List.map_filterMap]
  refine congrArg (List.filterMap · t) (funext fun s => ?_)
  cases s <;> rfl

/-! ## What was expected -/

/-- The number of characters that are no blanks. -/
def ink (cs : List Char) : Nat := cs.countP fun c => !isBlank c

theorem ink_append (cs ds : List Char) : ink (cs ++ ds) = ink cs + ink ds :=
  List.countP_append

theorem ink_eq_zero_iff : ink cs = 0 ↔ Blanks cs := by
  simp [ink, Blanks]

theorem ink_skipBlanks (cs : List Char) : ink (skipBlanks cs) = ink cs := by
  obtain ⟨blanks, hb, hcs⟩ := exists_skipBlanks cs
  have hsum := ink_append blanks (skipBlanks cs)
  rw [← hcs, ink_eq_zero_iff.mpr hb, Nat.zero_add] at hsum
  exact hsum.symm

theorem ink_behindBlank (cs : List Char) : ink (behindBlank cs) = ink cs := by
  cases cs with
  | nil => rfl
  | cons c cs => exact List.countP_cons_of_neg (by decide)

theorem ink_squeeze (cs : List Char) : ink (squeeze cs) = ink cs := by
  induction cs with
  | nil => rfl
  | cons c cs ih =>
    by_cases h : isBlank c = true
    · rw [squeeze_blank h, ink_behindBlank, ink_skipBlanks, ih]
      exact (List.countP_cons_of_neg (by simp [h])).symm
    · rw [squeeze_cons (eq_false_of_ne_true h), ink, List.countP_cons, ink, List.countP_cons]
      exact congrArg (· + _) ih

/-- The failures with the least ink behind them name what was expected. -/
def farthestExpected (fs : List Failure) : List Expectation :=
  ((fs.filter fun f => ∀ g ∈ fs, ink f.rest ≤ ink g.rest).map (·.expected)).eraseDups

theorem farthestExpected_squeezed (fs : List Failure) :
    farthestExpected (fs.map Failure.squeezed) = farthestExpected fs := by
  have hink : ∀ f : Failure, ink f.squeezed.rest = ink f.rest := fun f => ink_squeeze f.rest
  unfold farthestExpected
  rw [List.filter_map, List.map_map]
  simp only [Function.comp_def, List.forall_mem_map, hink]
  rfl

theorem le_leastRest_iff {n bound : Nat} {fs : List Failure} :
    n ≤ leastRest bound fs ↔ n ≤ bound ∧ ∀ f ∈ fs, n ≤ f.rest.length := by
  unfold leastRest
  induction fs generalizing bound with
  | nil => simp
  | cons f fs ih =>
    rw [List.foldl_cons, ih, List.forall_mem_cons, Nat.le_min, and_assoc]

/-- Of two failures of one text, the one that is farther has less ink behind it. -/
theorem length_le_iff_ink_le {f g : Failure} (hf : f ∈ (ruleReadings cs).failures)
    (hg : g ∈ (ruleReadings cs).failures) :
    f.rest.length ≤ g.rest.length ↔ ink f.rest ≤ ink g.rest := by
  constructor
  · intro hle
    obtain ⟨between, hbetween⟩ :=
      List.suffix_of_suffix_length_le (failure_suffix hf) (failure_suffix hg) hle
    rw [← hbetween, ink_append]
    exact Nat.le_add_left _ _
  · intro hink
    by_contra hlt
    obtain ⟨between, hbetween⟩ := List.suffix_of_suffix_length_le (failure_suffix hg)
      (failure_suffix hf) (Nat.le_of_not_le hlt)
    -- no ink is between them, and then they are at one place
    rw [← hbetween, ink_append] at hink
    have hblanks : Blanks between := ink_eq_zero_iff.mp (by omega)
    have hsame : f.rest = g.rest := by
      refine rest_eq_of_failures hf hg ?_
      rw [← hbetween, skipBlanks_append hblanks]
    rw [hsame] at hlt
    exact hlt (Nat.le_refl _)

theorem expected_ofFailures (cs : List Char) :
    (SyntaxError.ofFailures cs (ruleReadings cs).failures).expected =
      farthestExpected (ruleReadings cs).failures := by
  have hleast : ∀ f ∈ (ruleReadings cs).failures,
      (f.rest.length = leastRest cs.length (ruleReadings cs).failures ↔
        ∀ g ∈ (ruleReadings cs).failures, ink f.rest ≤ ink g.rest) := by
    intro f hf
    have hle := (le_leastRest_iff.mp (Nat.le_refl (leastRest cs.length _))).2 f hf
    rw [Nat.eq_iff_le_and_ge, and_iff_left hle, le_leastRest_iff,
      and_iff_right (failure_suffix hf).length_le]
    exact forall₂_congr fun g hg => length_le_iff_ink_le hf hg
  show (((ruleReadings cs).failures.filter fun f =>
    f.rest.length = leastRest cs.length (ruleReadings cs).failures).map (·.expected)).eraseDups = _
  rw [farthestExpected, List.filter_congr fun f hf => decide_eq_decide.mpr (hleast f hf)]

/-! ## Words -/

theorem completeReading?_words {ds : List Char} (h : words cs = words ds) :
    completeReading? cs = completeReading? ds := by
  rw [completeReading?_eq_first, completeReading?_eq_first, ← Trace.first_squeezed,
    ruleReadings_words h, Trace.first_squeezed]

theorem expected_words {ds : List Char} (h : words cs = words ds) :
    (SyntaxError.ofFailures cs (ruleReadings cs).failures).expected =
      (SyntaxError.ofFailures ds (ruleReadings ds).failures).expected := by
  rw [expected_ofFailures, expected_ofFailures, ← farthestExpected_squeezed,
    ← Trace.failures_squeezed, ruleReadings_words h, Trace.failures_squeezed,
    farthestExpected_squeezed]

theorem parseChars_words {ds : List Char} (h : words cs = words ds) :
    (∃ e, parseChars cs = .ok e ∧ parseChars ds = .ok e) ∨
      ∃ error error', parseChars cs = .error error ∧ parseChars ds = .error error' ∧
        error.expected = error'.expected ∧ error.expectedText = error'.expectedText := by
  unfold parseChars
  rw [← completeReading?_words h]
  cases completeReading? cs with
  | some e => exact Or.inl ⟨e, rfl, rfl⟩
  | none =>
    have hexpected := expected_words h
    refine Or.inr ⟨_, _, rfl, rfl, hexpected, ?_⟩
    rw [SyntaxError.expectedText, SyntaxError.expectedText, hexpected]

/-- **Words.** Two texts with the same words are the same rule, or neither is a rule and the same
things were expected. So it makes no difference which of them is stored. -/
theorem parse_words {text text' : String} (h : words text.toList = words text'.toList) :
    ((∃ e, Expr.parse text = .ok e ∧ Expr.parse text' = .ok e) ∨
      ∃ error error', Expr.parse text = .error error ∧ Expr.parse text' = .error error' ∧
        error.expected = error'.expected ∧ error.expectedText = error'.expectedText) ∧
      ∀ (rs : RuleSet) (name : String),
        (rs.addRule name text).ruleSet = (rs.addRule name text').ruleSet := by
  have hparse := parseChars_words h
  refine ⟨hparse, fun rs name => ?_⟩
  unfold RuleSet.addRule Expr.parse
  rcases hparse with ⟨e, htext, htext'⟩ | ⟨error, error', htext, htext', -⟩
  · rw [htext, htext']
  · rw [htext, htext']

/-- A rule over two lines, and a text that breaks off behind a name, with blanks at the end. -/
theorem parse_words_wrapped :
    (words "\trole:admin or\n\t\trole:owner\n".toList = words "role:admin or role:owner".toList ∧
      Expr.parse "\trole:admin or\n\t\trole:owner\n" = Expr.parse "role:admin or role:owner") ∧
    (words "role:admin and\n role \n".toList = words "role:admin and role".toList ∧
      ∃ error, Expr.parse "role:admin and\n role \n" = .error error ∧ error.expected = [.colon]) := by
  have haccepted : words "\trole:admin or\n\t\trole:owner\n".toList =
    words "role:admin or role:owner".toList := by decide
  have hrejected : words "role:admin and\n role \n".toList =
    words "role:admin and role".toList := by decide
  have hrule : Expr.parse "role:admin or role:owner" = .ok (.or
    (.check (.identifier "role") "admin") (.check (.identifier "role") "owner")) := by decide
  have hnone : Expr.parse "role:admin and role" = .error ⟨19, 1, 20, [.colon]⟩ := by decide
  refine ⟨⟨haccepted, ?_⟩, hrejected, ?_⟩
  · obtain ⟨e, htext, htext'⟩ | ⟨error, error', -, htext', -⟩ := (parse_words haccepted).1
    · rw [htext, htext']
    · rw [hrule] at htext'
      cases htext'
  · obtain ⟨e, -, htext'⟩ | ⟨error, error', htext, htext', hexpected, -⟩ :=
      (parse_words hrejected).1
    · rw [hnone] at htext'
      cases htext'
    · rw [hnone] at htext'
      cases htext'
      exact ⟨error, htext, hexpected⟩

end AccessPolicy
