import AccessPolicy.Expr.Parse
import AccessPolicy.Proofs.Readings

/-!
# What is accepted

The search commits itself: at `not` to a unary phrase, at `and` and `or` to another operand, at the
first character of an atom to its kind. None of these commitments loses a reading.

- `readingsWithin_sound`: whatever is found is a reading of the grammar.
- `Reads.found`: a reading of the grammar is found, or leads to what is found behind it, since every
  commitment was the only way to go on.

A complete reading has nothing but blanks after it, so `mem_completeReadings` follows: the complete
readings of the search are those of the grammar. The rule of a text is the first of them
(`parse_eq_ok_iff`).
-/

namespace AccessPolicy

/-! ## Soundness -/

/-- A reading of the grammar, but for the blanks in what is left over. -/
def ReadsTo (phrase : Phrase) (cs : List Char) (e : Expr) (rest : List Char) : Prop :=
  ∃ rest', Reads phrase cs e rest' ∧ skipBlanks rest' = rest

/-- What it means that an expression was found for a goal: the phrase was read, or, for what may
follow an operand, the whole chain from wherever the operand began. -/
def Goal.Sound (goal : Goal) (cs : List Char) (e : Expr) (rest : List Char) : Prop :=
  match goal with
  | .disjunction => ReadsTo .disjunction cs e rest
  | .conjunction => ReadsTo .conjunction cs e rest
  | .unary => ReadsTo .unary cs e rest
  | .atom => ReadsTo .atom cs e rest
  | .disjunctionAfter left =>
    ∀ start, ReadsTo .disjunction start left cs → ReadsTo .disjunction start e rest
  | .conjunctionAfter left =>
    ∀ start, ReadsTo .conjunction start left cs → ReadsTo .conjunction start e rest

theorem Keyword.At.of_skipBlanks {k : Keyword} {cs rest : List Char}
    (h : k.At (skipBlanks cs) rest) : k.At cs rest := by
  rw [← accept_eq_some_iff] at h ⊢
  rwa [accept_skipBlanks] at h

/-- Where none of the other atoms begins, a check may. -/
theorem opensAtom_head {cs : List Char} (hallow : ∀ tail, cs ≠ '@' :: tail)
    (hdeny : ∀ tail, cs ≠ '!' :: tail) (hgroup : ∀ tail, cs ≠ '(' :: tail) :
    ∀ c, cs.head? = some c → opensAtom c = false := by
  intro c hc
  obtain ⟨tail, htail⟩ := List.head?_eq_some_iff.mp hc
  by_cases hopen : opensAtom c = true
  · simp only [opensAtom, Bool.or_eq_true, decide_eq_true_eq] at hopen
    rcases hopen with (rfl | rfl) | rfl
    · exact absurd htail (hallow tail)
    · exact absurd htail (hdeny tail)
    · exact absurd htail (hgroup tail)
  · exact eq_false_of_ne_true hopen

/-- Whatever is found is a reading of the grammar. -/
theorem readingsWithin_sound : ∀ (depth : Nat) {goal : Goal} {cs rest : List Char} {e : Expr},
    (e, rest) ∈ (readingsWithin depth goal cs).found → goal.Sound cs e rest := by
  intro depth
  induction depth with
  | zero => intro goal cs rest e h; simp [readingsWithin] at h
  | succ depth ih =>
    intro goal cs rest e h
    cases goal with
    | disjunction =>
      rw [readingsWithin] at h
      obtain ⟨left, mid, hleft, hafter⟩ := Trace.mem_found_andThen.mp h
      obtain ⟨mid', hreads, hmid⟩ := ih hleft
      exact ih hafter cs ⟨mid', .conjunction hreads, hmid⟩
    | conjunction =>
      rw [readingsWithin] at h
      obtain ⟨left, mid, hleft, hafter⟩ := Trace.mem_found_andThen.mp h
      obtain ⟨mid', hreads, hmid⟩ := ih hleft
      exact ih hafter cs ⟨mid', .unary hreads, hmid⟩
    | disjunctionAfter left =>
      -- wherever the chain began, it has grown by one operand when the search goes on
      rw [readingsWithin] at h
      rintro start ⟨mid, hleft, rfl⟩
      split at h
      next =>
        obtain ⟨rfl, rfl⟩ := by simpa using h
        exact ⟨mid, hleft, rfl⟩
      next cs' hor =>
        obtain ⟨right, rest', hright, hafter⟩ := Trace.mem_found_andThen.mp h
        obtain ⟨rest'', hreads, hrest⟩ := ih hright
        have hat := (Keyword.accept_eq_some_iff.mp hor).of_skipBlanks
        exact ih hafter start ⟨rest'', .or hleft hat hreads, hrest⟩
    | conjunctionAfter left =>
      rw [readingsWithin] at h
      rintro start ⟨mid, hleft, rfl⟩
      split at h
      next =>
        obtain ⟨rfl, rfl⟩ := by simpa using h
        exact ⟨mid, hleft, rfl⟩
      next cs' hand =>
        obtain ⟨right, rest', hright, hafter⟩ := Trace.mem_found_andThen.mp h
        obtain ⟨rest'', hreads, hrest⟩ := ih hright
        have hat := (Keyword.accept_eq_some_iff.mp hand).of_skipBlanks
        exact ih hafter start ⟨rest'', .and hleft hat hreads, hrest⟩
    | unary =>
      rw [readingsWithin] at h
      split at h
      next hnone =>
        obtain ⟨rest', hreads, hrest⟩ := ih h
        exact ⟨rest', .atom (Keyword.accept_eq_none_iff.mp hnone) hreads, hrest⟩
      next cs' hnot =>
        obtain ⟨operand, mid, hoperand, hfound⟩ := Trace.mem_found_andThen.mp h
        obtain ⟨rfl, rfl⟩ := by simpa using hfound
        obtain ⟨rest', hreads, hrest⟩ := ih hoperand
        exact ⟨rest', .not (Keyword.accept_eq_some_iff.mp hnot) hreads, hrest⟩
    | atom =>
      rw [readingsWithin] at h
      obtain ⟨blanks, hb, hcs⟩ := exists_skipBlanks cs
      rw [hcs]
      split at h
      next => simp at h
      next tail heq =>
        obtain ⟨rfl, rfl⟩ := by simpa using h
        rw [heq]
        exact ⟨tail, .allow hb, rfl⟩
      next tail heq =>
        obtain ⟨rfl, rfl⟩ := by simpa using h
        rw [heq]
        exact ⟨tail, .deny hb, rfl⟩
      next inner heq =>
        obtain ⟨e', mid, hmid, hclose⟩ := Trace.mem_found_andThen.mp h
        split at hclose
        next tail hmidEq =>
          obtain ⟨rfl, rfl⟩ := by simpa using hclose
          obtain ⟨mid', hreads, rfl⟩ := ih hmid
          obtain ⟨blanks', hb', hmid'⟩ := exists_skipBlanks mid'
          rw [skipBlanks_skipBlanks] at hmidEq
          rw [hmid', hmidEq] at hreads
          rw [heq]
          exact ⟨tail, .group hb hreads hb', rfl⟩
        next => simp at hclose
      next hallow hdeny hgroup =>
        obtain ⟨e', mid, hmid, hfound⟩ := Trace.mem_found_andThen.mp h
        obtain ⟨rfl, rfl⟩ := by simpa using hfound
        obtain ⟨lhs, rhs, rfl, hcheck⟩ := mem_found_checkReadings.mp hmid
        exact ⟨mid, .check hb (opensAtom_head hallow hdeny hgroup) hcheck, rfl⟩

theorem readings_sound {goal : Goal} {cs rest : List Char} {e : Expr}
    (h : (e, rest) ∈ (readings goal cs).found) : goal.Sound cs e rest :=
  readingsWithin_sound _ h

/-! ## Completeness -/

theorem Keyword.At.skipBlanks_eq {k : Keyword} {cs rest : List Char} (h : k.At cs rest) :
    skipBlanks cs = k.chars ++ rest := by
  obtain ⟨blanks, hb, rfl, -⟩ := h
  rw [skipBlanks_append hb, k.skipBlanks_chars]

/-- No keyword is recognised in front of a closing parenthesis. -/
theorem Keyword.not_at_closer (k : Keyword) {cs rest : List Char} (h : skipBlanks cs = ')' :: rest)
    (rest' : List Char) : ¬ k.At cs rest' := by
  intro hat
  rw [hat.skipBlanks_eq] at h
  cases k <;> simp [Keyword.chars] at h

/-- No keyword is recognised where only blanks are left. -/
theorem Keyword.not_at_blanks (k : Keyword) {cs : List Char} (h : Blanks cs) (rest : List Char) :
    ¬ k.At cs rest := by
  intro hat
  have hskip := hat.skipBlanks_eq
  rw [blanks_iff.mp h] at hskip
  cases k <;> simp [Keyword.chars] at hskip

/-- What the search finds where the grammar has a reading. A conjunction or a disjunction may be
only the beginning of a longer chain, so it hands over everything that is found behind it. -/
def Phrase.Found (phrase : Phrase) (cs : List Char) (e : Expr) (rest : List Char) : Prop :=
  match phrase with
  | .disjunction => (∀ rest', ¬ Keyword.and.At rest rest') →
      ∀ p ∈ (readings (.disjunctionAfter e) (skipBlanks rest)).found,
        p ∈ (readings .disjunction cs).found
  | .conjunction =>
      ∀ p ∈ (readings (.conjunctionAfter e) (skipBlanks rest)).found,
        p ∈ (readings .conjunction cs).found
  | .unary => (e, skipBlanks rest) ∈ (readings .unary cs).found
  | .atom => (e, skipBlanks rest) ∈ (readings .atom cs).found

/-- A conjunction that no `and` follows is found as it is. -/
theorem Phrase.Found.conjunction_mem {cs rest : List Char} {e : Expr}
    (h : Phrase.conjunction.Found cs e rest) (hand : ∀ rest', ¬ Keyword.and.At rest rest') :
    (e, skipBlanks rest) ∈ (readings .conjunction cs).found := by
  refine h _ ?_
  rw [readings_conjunctionAfter_end]
  · exact List.mem_cons_self ..
  · rw [Keyword.accept_skipBlanks]
    exact Keyword.accept_eq_none_iff.mpr hand

/-- A disjunction that no operator follows is found as it is. -/
theorem Phrase.Found.disjunction_mem {cs rest : List Char} {e : Expr}
    (h : Phrase.disjunction.Found cs e rest) (hnone : ∀ k : Keyword, ∀ rest', ¬ k.At rest rest') :
    (e, skipBlanks rest) ∈ (readings .disjunction cs).found := by
  refine h (hnone .and) _ ?_
  rw [readings_disjunctionAfter_end]
  · exact List.mem_cons_self ..
  · rw [Keyword.accept_skipBlanks]
    exact Keyword.accept_eq_none_iff.mpr (hnone .or)

/-- A check begins with a character of its left side or with a quote. -/
theorem ReadsCheck.skipBlanks_eq {cs rhs rest : List Char} {lhs : LeftSide}
    (h : ReadsCheck cs lhs rhs rest) : skipBlanks cs = cs ∧ cs ≠ [] := by
  obtain ⟨hlhs, -, -, -⟩ := h
  cases hlhs with
  | bare hne hchars =>
    obtain ⟨c, name, rfl⟩ := List.exists_cons_of_ne_nil hne
    have hblank := isBlank_of_isLeftSideChar (hchars c (List.mem_cons_self ..))
    exact ⟨skipBlanks_cons hblank _, by simp⟩
  | quoted hquote _ _ => exact ⟨skipBlanks_cons (isBlank_of_isQuote hquote) _, by simp⟩

/-- A reading of the grammar is found. -/
theorem Reads.found {phrase : Phrase} {cs rest : List Char} {e : Expr}
    (h : Reads phrase cs e rest) : phrase.Found cs e rest := by
  induction h with
  | conjunction _ ih =>
    intro hand p hp
    rw [readings_disjunction]
    exact Trace.mem_found_andThen.mpr ⟨_, _, ih.conjunction_mem hand, hp⟩
  | @or cs left mid cs' right rest _ hor _ ihleft ihright =>
    intro hand p hp
    refine ihleft (fun rest' hat => ?_) p ?_
    · -- where `or` is recognised, `and` is not
      exact Keyword.noConfusion (hor.unique hat).1
    · rw [readings_disjunctionAfter_or left
        ((Keyword.accept_skipBlanks ..).trans (Keyword.accept_eq_some_iff.mpr hor))]
      exact Trace.mem_found_andThen.mpr ⟨_, _, ihright.conjunction_mem hand, hp⟩
  | unary _ ih =>
    intro p hp
    rw [readings_conjunction]
    exact Trace.mem_found_andThen.mpr ⟨_, _, ih, hp⟩
  | @and cs left mid cs' right rest _ hand _ ihleft ihright =>
    intro p hp
    refine ihleft p ?_
    rw [readings_conjunctionAfter_and left
      ((Keyword.accept_skipBlanks ..).trans (Keyword.accept_eq_some_iff.mpr hand))]
    exact Trace.mem_found_andThen.mpr ⟨_, _, ihright, hp⟩
  | not hnot _ ih =>
    rw [Phrase.Found, readings_unary_not (Keyword.accept_eq_some_iff.mpr hnot)]
    exact Trace.mem_found_andThen.mpr ⟨_, _, ih, List.mem_cons_self ..⟩
  | atom hnot _ ih =>
    rw [Phrase.Found, readings_unary_atom (Keyword.accept_eq_none_iff.mpr hnot)]
    exact ih
  | allow hb =>
    rw [Phrase.Found, readings_atom_allow (skipBlanks_append_cons hb rfl _)]
    exact List.mem_cons_self ..
  | deny hb =>
    rw [Phrase.Found, readings_atom_deny (skipBlanks_append_cons hb rfl _)]
    exact List.mem_cons_self ..
  | @group blanks inner e blanks' rest hb _ hb' ih =>
    rw [Phrase.Found, readings_atom_group (skipBlanks_append_cons hb rfl _)]
    have hclose : skipBlanks (blanks' ++ ')' :: rest) = ')' :: rest :=
      skipBlanks_append_cons hb' rfl _
    refine Trace.mem_found_andThen.mpr
      ⟨e, _, ih.disjunction_mem fun k => k.not_at_closer hclose, ?_⟩
    rw [hclose]
    exact List.mem_cons_self ..
  | @check blanks cs lhs rhs rest hb hopen hcheck =>
    obtain ⟨hskip, hne⟩ := hcheck.skipBlanks_eq
    have hcs : skipBlanks (blanks ++ cs) = cs := (skipBlanks_append hb _).trans hskip
    rw [Phrase.Found, readings_atom_check (by rwa [hcs]) (by rwa [hcs]), hcs]
    refine Trace.mem_found_andThen.mpr ⟨_, rest, ?_, List.mem_cons_self ..⟩
    exact mem_found_checkReadings.mpr ⟨lhs, rhs, rfl, hcheck⟩

/-! ## Complete readings -/

/-- The complete readings of a text in the order in which they are found. -/
def completeReadings (cs : List Char) : List Expr :=
  ((readings .disjunction cs).found.filter fun p => skipBlanks p.2 = []).map Prod.fst

/-- The complete readings that are found are those of the grammar. -/
theorem mem_completeReadings {cs : List Char} {e : Expr} :
    e ∈ completeReadings cs ↔ CompleteReading cs e := by
  rw [completeReadings, List.mem_map]
  constructor
  · rintro ⟨⟨e, rest⟩, hmem, rfl⟩
    obtain ⟨hfound, hrest⟩ := List.mem_filter.mp hmem
    obtain ⟨rest', hreads, rfl⟩ := readings_sound hfound
    refine ⟨rest', hreads, blanks_iff.mpr ?_⟩
    simpa using hrest
  · rintro ⟨rest, hreads, hblanks⟩
    refine ⟨(e, skipBlanks rest), List.mem_filter.mpr ⟨?_, ?_⟩, rfl⟩
    · exact hreads.found.disjunction_mem fun k => k.not_at_blanks hblanks
    · simpa using blanks_iff.mp hblanks

/-- The search stops at the first complete reading. -/
theorem completeReading?_eq_head? (cs : List Char) :
    completeReading? cs = (completeReadings cs).head? := by
  rw [completeReading?, searchWithin_eq_first, Trace.first, completeReadings, ← readings]
  induction readings .disjunction cs with
  | nil => rfl
  | cons s t ih =>
    cases s with
    | failed f => exact ih
    | found e rest =>
      by_cases hrest : skipBlanks rest = []
      · simp [hrest, Trace.found]
      · simpa [hrest, Trace.found] using ih

/-- The rule of a text is its first complete reading. -/
theorem parse_eq_ok_iff {text : String} {e : Expr} :
    Expr.parse text = .ok e ↔ (completeReadings text.toList).head? = some e := by
  rw [Expr.parse, parseChars, completeReading?_eq_head?]
  cases (completeReadings text.toList).head? <;> simp

/-- What a text is parsed to is the tree of a complete reading. -/
theorem completeReading_of_parse {text : String} {e : Expr} (h : Expr.parse text = .ok e) :
    CompleteReading text.toList e :=
  mem_completeReadings.mp (List.mem_of_mem_head? (parse_eq_ok_iff.mp h))

/-- A text with a complete reading is parsed. -/
theorem exists_parse {text : String} {e : Expr} (h : CompleteReading text.toList e) :
    ∃ e', Expr.parse text = .ok e' := by
  obtain ⟨first, others, hlist⟩ := List.exists_cons_of_ne_nil
    (List.ne_nil_of_mem (mem_completeReadings.mpr h))
  refine ⟨first, parse_eq_ok_iff.mpr ?_⟩
  rw [hlist]
  rfl

/-- **Acceptance.** What a text is parsed to is the tree of a complete reading, and a text is parsed
whenever it has one. -/
theorem parse_accepts_grammar (text : String) :
    (∀ e, Expr.parse text = .ok e → CompleteReading text.toList e) ∧
      ((∃ e, CompleteReading text.toList e) ↔ ∃ e, Expr.parse text = .ok e) := by
  refine ⟨fun _ h => completeReading_of_parse h, ?_, ?_⟩
  · intro ⟨e, h⟩
    exact exists_parse h
  · intro ⟨e, h⟩
    exact ⟨e, completeReading_of_parse h⟩

end AccessPolicy
