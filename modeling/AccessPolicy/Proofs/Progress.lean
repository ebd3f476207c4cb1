import AccessPolicy.Proofs.Readings

/-!
# Progress of the search

The goals of the search are nested in each other without end, but whatever is nested in a goal begins
with a shorter text or with a tighter phrase. `readings_induction` is the induction over this: what
holds of a goal if it holds of the goals nested in it holds of all goals.

Main statement: `readings_ne_nil`, no goal passes in silence, it is read or it fails.
-/

namespace AccessPolicy

theorem readings_atom_ended {cs : List Char} (h : skipBlanks cs = []) :
    readings .atom cs = Trace.failure [] .expression := by
  rw [readings_eq_succ, readingsWithin, h]

/-- Induction over goals: one case for each production of the grammar, and for each way in which
what may follow an operand does not follow. -/
@[elab_as_elim]
theorem readings_induction {motive : Goal → List Char → Prop}
    (disjunction : ∀ cs, motive .conjunction cs →
      (∀ left rest, (left, rest) ∈ (readings .conjunction cs).found →
        motive (.disjunctionAfter left) rest) → motive .disjunction cs)
    (disjunctionEnd : ∀ left cs, Keyword.or.accept cs = none → motive (.disjunctionAfter left) cs)
    (or : ∀ left cs cs', Keyword.or.accept cs = some cs' → motive .conjunction cs' →
      (∀ right rest, (right, rest) ∈ (readings .conjunction cs').found →
        motive (.disjunctionAfter (.or left right)) rest) → motive (.disjunctionAfter left) cs)
    (conjunction : ∀ cs, motive .unary cs →
      (∀ left rest, (left, rest) ∈ (readings .unary cs).found →
        motive (.conjunctionAfter left) rest) → motive .conjunction cs)
    (conjunctionEnd : ∀ left cs, Keyword.and.accept cs = none → motive (.conjunctionAfter left) cs)
    (and : ∀ left cs cs', Keyword.and.accept cs = some cs' → motive .unary cs' →
      (∀ right rest, (right, rest) ∈ (readings .unary cs').found →
        motive (.conjunctionAfter (.and left right)) rest) → motive (.conjunctionAfter left) cs)
    (not : ∀ cs cs', Keyword.not.accept cs = some cs' → motive .unary cs' → motive .unary cs)
    (atom : ∀ cs, Keyword.not.accept cs = none → motive .atom cs → motive .unary cs)
    (ended : ∀ cs, skipBlanks cs = [] → motive .atom cs)
    (allow : ∀ cs rest, skipBlanks cs = '@' :: rest → motive .atom cs)
    (deny : ∀ cs rest, skipBlanks cs = '!' :: rest → motive .atom cs)
    (group : ∀ cs inner, skipBlanks cs = '(' :: inner → motive .disjunction inner →
      motive .atom cs)
    (check : ∀ cs, skipBlanks cs ≠ [] →
      (∀ c, (skipBlanks cs).head? = some c → opensAtom c = false) → motive .atom cs)
    (goal : Goal) (cs : List Char) : motive goal cs := by
  induction hneed : goal.need cs using Nat.strongRecOn generalizing goal cs with
  | ind n ih =>
    subst hneed
    have hnested : ∀ goal' cs', goal'.need cs' < goal.need cs → motive goal' cs' :=
      fun goal' cs' hlt => ih _ hlt goal' cs' rfl
    -- behind an operand the text is shorter, whatever may follow it
    have hbehind : ∀ {goal' : Goal} {cs' rest : List Char} {e : Expr} (next : Goal),
        goal'.takes = 1 → next.rank = 0 → cs'.length ≤ cs.length →
        (e, rest) ∈ (readings goal' cs').found → motive next rest := by
      intro goal' cs' rest e next htakes hrank hlen hfound
      have hprogress := readings_length_lt hfound
      refine hnested next rest ?_
      simp only [htakes, hrank, Goal.need] at *
      omega
    cases goal with
    | disjunction =>
      refine disjunction cs (hnested _ _ (by simp [Goal.need, Goal.rank])) fun left rest hfound => ?_
      exact hbehind _ rfl rfl (Nat.le_refl _) hfound
    | conjunction =>
      refine conjunction cs (hnested _ _ (by simp [Goal.need, Goal.rank])) fun left rest hfound => ?_
      exact hbehind _ rfl rfl (Nat.le_refl _) hfound
    | disjunctionAfter left =>
      cases hor : Keyword.or.accept cs with
      | none => exact disjunctionEnd left cs hor
      | some cs' =>
        have hlen := (Keyword.accept_eq_some_iff.mp hor).length_lt
        refine or left cs cs' hor (hnested _ _ ?_) fun right rest hfound => ?_
        · simp only [Goal.need, Goal.rank]
          omega
        · exact hbehind _ rfl rfl (Nat.le_of_lt hlen) hfound
    | conjunctionAfter left =>
      cases hand : Keyword.and.accept cs with
      | none => exact conjunctionEnd left cs hand
      | some cs' =>
        have hlen := (Keyword.accept_eq_some_iff.mp hand).length_lt
        refine and left cs cs' hand (hnested _ _ ?_) fun right rest hfound => ?_
        · simp only [Goal.need, Goal.rank]
          omega
        · exact hbehind _ rfl rfl (Nat.le_of_lt hlen) hfound
    | unary =>
      cases hnot : Keyword.not.accept cs with
      | none => exact atom cs hnot (hnested _ _ (by simp [Goal.need, Goal.rank]))
      | some cs' =>
        have hlen := (Keyword.accept_eq_some_iff.mp hnot).length_lt
        refine not cs cs' hnot (hnested _ _ ?_)
        simp only [Goal.need, Goal.rank]
        omega
    | atom =>
      have hskip := length_skipBlanks_le cs
      rcases htext : skipBlanks cs with _ | ⟨c, rest⟩
      · exact ended cs htext
      · by_cases hopen : opensAtom c = true
        · simp only [opensAtom, Bool.or_eq_true, decide_eq_true_eq] at hopen
          rcases hopen with (rfl | rfl) | rfl
          · exact allow cs rest htext
          · exact deny cs rest htext
          · refine group cs rest htext (hnested _ _ ?_)
            rw [htext, List.length_cons] at hskip
            simp only [Goal.need, Goal.rank]
            omega
        · refine check cs (by simp [htext]) fun d hd => ?_
          rw [htext] at hd
          obtain rfl := Option.some.inj hd
          exact eq_false_of_ne_true hopen

/-! ## Something happens -/

theorem Trace.andThen_ne_nil {t : Trace} {next : Expr → List Char → Trace} (ht : t ≠ [])
    (hnext : ∀ e rest, (e, rest) ∈ t.found → next e rest ≠ []) : t.andThen next ≠ [] := by
  obtain ⟨s, hs⟩ := List.exists_mem_of_ne_nil t ht
  rw [andThen, Ne, List.flatMap_eq_nil_iff]
  intro hall
  have hnil := hall s hs
  cases s with
  | found e rest => exact hnext e rest (Trace.mem_found.mpr hs) hnil
  | failed f => cases hnil

theorem rightSides_ne_nil (reversed rest : List Char) : rightSides reversed rest ≠ [] := by
  unfold rightSides
  split <;> exact List.cons_ne_nil _ _

theorem checkReadings_ne_nil (cs : List Char) : checkReadings cs ≠ [] := by
  unfold checkReadings
  split
  next => exact List.cons_ne_nil _ _
  next =>
    unfold rightSideReadings
    dsimp only
    split
    next => exact List.cons_ne_nil _ _
    next =>
      rw [Ne, List.map_eq_nil_iff]
      exact rightSides_ne_nil _ _
  next => exact List.cons_ne_nil _ _

theorem closeGroup_ne_nil (e : Expr) (cs : List Char) : closeGroup e cs ≠ [] := by
  unfold closeGroup
  split <;> exact List.cons_ne_nil _ _

/-- **No silence.** Whatever is to be read, an expression is found or a failure is reported. -/
theorem readings_ne_nil (goal : Goal) (cs : List Char) : readings goal cs ≠ [] := by
  induction goal, cs using readings_induction with
  | disjunction cs hfirst hrest =>
    rw [readings_disjunction]
    exact Trace.andThen_ne_nil hfirst hrest
  | disjunctionEnd left cs hor =>
    rw [readings_disjunctionAfter_end left hor]
    exact List.cons_ne_nil _ _
  | or left cs cs' hor hfirst hrest =>
    rw [readings_disjunctionAfter_or left hor]
    exact Trace.andThen_ne_nil hfirst hrest
  | conjunction cs hfirst hrest =>
    rw [readings_conjunction]
    exact Trace.andThen_ne_nil hfirst hrest
  | conjunctionEnd left cs hand =>
    rw [readings_conjunctionAfter_end left hand]
    exact List.cons_ne_nil _ _
  | and left cs cs' hand hfirst hrest =>
    rw [readings_conjunctionAfter_and left hand]
    exact Trace.andThen_ne_nil hfirst hrest
  | not cs cs' hnot hoperand =>
    rw [readings_unary_not hnot]
    exact Trace.andThen_ne_nil hoperand fun _ _ _ => List.cons_ne_nil _ _
  | atom cs hnot hatom =>
    rw [readings_unary_atom hnot]
    exact hatom
  | ended cs h =>
    rw [readings_atom_ended h]
    exact List.cons_ne_nil _ _
  | allow cs rest h =>
    rw [readings_atom_allow h]
    exact List.cons_ne_nil _ _
  | deny cs rest h =>
    rw [readings_atom_deny h]
    exact List.cons_ne_nil _ _
  | group cs inner h hinner =>
    rw [readings_atom_group h]
    exact Trace.andThen_ne_nil hinner fun e rest _ => closeGroup_ne_nil e rest
  | check cs hne hopen =>
    rw [readings_atom_check hne hopen]
    exact Trace.andThen_ne_nil (checkReadings_ne_nil _) fun _ _ _ => List.cons_ne_nil _ _

end AccessPolicy
