import AccessPolicy.Proofs.Acceptance
import AccessPolicy.Proofs.Failures
import Mathlib.Algebra.Order.Ring.Nat
import Mathlib.Data.List.Infix

/-!
# Reading goes on

Whatever is read at a place of a text, reading comes further or says why it does not. Main
statement: `readings_advance`. Every phrase and every check that is found ends at a later place of
the text, there is a bound on how many are found, however deep they are nested, and where there is
none a failure is reported that is no further back.

It rests on two measures of what is left over. All of it is the end of the text (`readings_suffix`),
so its place can be told from its length. And if a text of `n` characters weighs `2 ^ n`, then all
that the readings of a text leave over weighs no more than the text (`weight_readings_le`): for the
parentheses that a check gives back one by one there is a last character that it keeps.
-/

namespace AccessPolicy

variable {cs rest text : List Char} {p : Nat}

/-! ## The end of the text -/

/-- The text that is left where an event happens, blanks in front of it included. -/
def Step.behind : Step → List Char
  | .found _ rest => rest
  | .failed f => f.rest

theorem Trace.suffix_andThen {t : Trace} {next : Expr → List Char → Trace}
    (ht : ∀ s ∈ t, s.behind <:+ cs)
    (hnext : ∀ e rest, (e, rest) ∈ t.found → ∀ s ∈ next e rest, s.behind <:+ rest) :
    ∀ s ∈ t.andThen next, s.behind <:+ cs := by
  intro s hs
  obtain ⟨s', hs', hmem⟩ := List.mem_flatMap.mp hs
  cases s' with
  | found e rest => exact (hnext e rest (mem_found.mpr hs') s hmem).trans (ht _ hs')
  | failed f =>
    rw [List.mem_singleton.mp hmem]
    exact ht _ hs'

theorem suffix_of_skipBlanks_eq {c : Char} (h : skipBlanks cs = c :: rest) : rest <:+ cs :=
  (List.suffix_cons c rest).trans (h ▸ skipBlanks_suffix cs)

theorem Keyword.At.suffix {k : Keyword} (h : k.At cs rest) : rest <:+ cs := by
  obtain ⟨blanks, -, rfl, -⟩ := h
  exact ⟨blanks ++ k.chars, List.append_assoc ..⟩

theorem ReadsCheck.suffix {lhs : LeftSide} {rhs : List Char} (h : ReadsCheck cs lhs rhs rest) :
    rest <:+ cs := by
  cases h with
  | @intro _ written rhs _ _ _ _ _ _ => exact ⟨written ++ ':' :: rhs, by simp⟩

theorem checkReadings_suffix (cs : List Char) : ∀ s ∈ checkReadings cs, s.behind <:+ cs := by
  intro s hs
  cases s with
  | found e rest =>
    obtain ⟨lhs, rhs, -, hcheck⟩ := mem_found_checkReadings.mp (Trace.mem_found.mpr hs)
    exact hcheck.suffix
  | failed f =>
    obtain ⟨-, begun, -, hcs⟩ := checkReadings_failed hs
    exact ⟨begun, hcs.symm⟩

theorem closeGroup_suffix (e : Expr) (cs : List Char) : ∀ s ∈ closeGroup e cs, s.behind <:+ cs := by
  intro s hs
  unfold closeGroup at hs
  split at hs
  next rest heq =>
    rw [List.mem_singleton.mp hs]
    exact (skipBlanks_suffix rest).trans (suffix_of_skipBlanks_eq heq)
  next =>
    rw [List.mem_singleton.mp hs]
    exact skipBlanks_suffix cs

/-- Whatever happens when a goal is read, the end of the text is left. -/
theorem readings_suffix (goal : Goal) (cs : List Char) :
    ∀ s ∈ readings goal cs, s.behind <:+ cs := by
  have hsingle : ∀ {e : Expr} {cs rest : List Char}, rest <:+ cs →
      ∀ s ∈ [Step.found e rest], s.behind <:+ cs := fun h s hs => List.mem_singleton.mp hs ▸ h
  induction goal, cs using readings_induction with
  | disjunction cs hfirst hrest =>
    rw [readings_disjunction]
    exact Trace.suffix_andThen hfirst hrest
  | disjunctionEnd left cs hor =>
    rw [readings_disjunctionAfter_end left hor]
    exact hsingle (List.suffix_refl cs)
  | or left cs cs' hor hfirst hrest =>
    rw [readings_disjunctionAfter_or left hor]
    have hcs := (Keyword.accept_eq_some_iff.mp hor).suffix
    exact fun s hs => (Trace.suffix_andThen hfirst hrest s hs).trans hcs
  | conjunction cs hfirst hrest =>
    rw [readings_conjunction]
    exact Trace.suffix_andThen hfirst hrest
  | conjunctionEnd left cs hand =>
    rw [readings_conjunctionAfter_end left hand]
    exact hsingle (List.suffix_refl cs)
  | and left cs cs' hand hfirst hrest =>
    rw [readings_conjunctionAfter_and left hand]
    have hcs := (Keyword.accept_eq_some_iff.mp hand).suffix
    exact fun s hs => (Trace.suffix_andThen hfirst hrest s hs).trans hcs
  | not cs cs' hnot hoperand =>
    rw [readings_unary_not hnot]
    have hcs := (Keyword.accept_eq_some_iff.mp hnot).suffix
    have hinner := Trace.suffix_andThen hoperand fun e rest _ =>
      hsingle (e := .not e) (List.suffix_refl rest)
    exact fun s hs => (hinner s hs).trans hcs
  | atom cs hnot hatom =>
    rw [readings_unary_atom hnot]
    exact hatom
  | ended cs h =>
    rw [readings_atom_ended h]
    exact fun s hs => List.mem_singleton.mp hs ▸ List.nil_suffix
  | allow cs rest h =>
    rw [readings_atom_allow h]
    exact hsingle ((skipBlanks_suffix rest).trans (suffix_of_skipBlanks_eq h))
  | deny cs rest h =>
    rw [readings_atom_deny h]
    exact hsingle ((skipBlanks_suffix rest).trans (suffix_of_skipBlanks_eq h))
  | group cs inner h hinner =>
    rw [readings_atom_group h]
    have hgroup := Trace.suffix_andThen hinner fun e rest _ => closeGroup_suffix e rest
    exact fun s hs => (hgroup s hs).trans (suffix_of_skipBlanks_eq h)
  | check cs hne hopen =>
    rw [readings_atom_check hne hopen]
    have hcheck := Trace.suffix_andThen (checkReadings_suffix (skipBlanks cs)) fun e rest _ =>
      hsingle (e := e) (skipBlanks_suffix rest)
    exact fun s hs => (hcheck s hs).trans (skipBlanks_suffix cs)

/-! ## The weight of what is left over -/

/-- What the readings leave over, where a text of `n` characters counts `2 ^ n`. -/
def Trace.weight (t : Trace) : Nat := (t.found.map fun reading => 2 ^ reading.2.length).sum

theorem Trace.length_found_le_weight (t : Trace) : t.found.length ≤ t.weight := by
  unfold weight
  generalize t.found = found
  induction found with
  | nil => exact Nat.le_refl _
  | cons reading found ih =>
    have hone := Nat.one_le_two_pow (n := reading.2.length)
    simp only [List.length_cons, List.map_cons, List.sum_cons]
    omega

/-- Going on does not add weight, if it does not from any of the expressions found. -/
theorem Trace.weight_andThen_le {t : Trace} {next : Expr → List Char → Trace}
    (hnext : ∀ e rest, (e, rest) ∈ t.found → (next e rest).weight ≤ 2 ^ rest.length) :
    (t.andThen next).weight ≤ t.weight := by
  unfold weight at hnext ⊢
  rw [found_andThen]
  generalize t.found = found at hnext ⊢
  induction found with
  | nil => exact Nat.le_refl _
  | cons reading found ih =>
    rw [List.flatMap_cons, List.map_append, List.sum_append, List.map_cons, List.sum_cons]
    have hfirst := hnext reading.1 reading.2 List.mem_cons_self
    exact Nat.add_le_add hfirst (ih fun e rest hmem => hnext e rest (List.mem_cons_of_mem _ hmem))

theorem two_pow_length_le (h : rest <:+ cs) : 2 ^ rest.length ≤ 2 ^ cs.length :=
  Nat.pow_le_pow_right Nat.two_pos h.length_le

/-- The right sides of a run leave less than the run and what is behind it. -/
theorem weight_rightSides_lt {reversed rest : List Char} (hne : reversed ≠ []) :
    ((rightSides reversed rest).map fun reading => 2 ^ reading.2.length).sum + 2 ^ rest.length ≤
      2 ^ (reversed.length + rest.length) := by
  fun_induction rightSides reversed rest with
  | case1 c more rest ih =>
    have hmore := ih (List.cons_ne_nil _ _)
    simp only [List.map_cons, List.sum_cons, List.length_cons] at hmore ⊢
    rw [show more.length + 1 + 1 + rest.length = more.length + 1 + (rest.length + 1) by omega]
    rw [Nat.pow_succ 2 rest.length] at hmore
    omega
  | case2 reversed rest =>
    have hpos := List.length_pos_iff.mpr hne
    have hle : 2 ^ (rest.length + 1) ≤ 2 ^ (reversed.length + rest.length) :=
      Nat.pow_le_pow_right Nat.two_pos (by omega)
    rw [Nat.pow_succ] at hle
    simp only [List.map_cons, List.map_nil, List.sum_cons, List.sum_nil]
    omega

theorem weight_rightSideReadings_le (lhs : LeftSide) (cs : List Char) :
    (rightSideReadings lhs cs).weight ≤ 2 ^ cs.length := by
  have hlength := congrArg List.length
    (List.takeWhile_append_dropWhile (p := fun c => !isBlank c) (l := cs))
  rw [List.length_append] at hlength
  unfold rightSideReadings
  dsimp only
  split
  next => exact Nat.zero_le _
  next hne =>
    have hlt := @weight_rightSides_lt _ (cs.dropWhile fun c => !isBlank c)
      (mt List.reverse_eq_nil_iff.mp hne)
    rw [List.length_reverse, hlength] at hlt
    unfold Trace.weight Trace.found
    rw [List.filterMap_map, List.map_filterMap]
    refine Nat.le_trans (Nat.le_of_eq ?_) (Nat.le_trans (Nat.le_add_right _ _) hlt)
    rw [← List.filterMap_eq_map]
    rfl

theorem weight_checkReadings_le (cs : List Char) : (checkReadings cs).weight ≤ 2 ^ cs.length := by
  unfold checkReadings
  split
  next => exact Nat.zero_le _
  next lhs rest hleft =>
    obtain ⟨written, -, rfl⟩ := leftSide_sound hleft
    exact Nat.le_trans (weight_rightSideReadings_le lhs rest)
      (two_pow_length_le ⟨written ++ [':'], List.append_assoc ..⟩)
  next => exact Nat.zero_le _

theorem weight_closeGroup_le (e : Expr) (cs : List Char) :
    (closeGroup e cs).weight ≤ 2 ^ cs.length := by
  unfold closeGroup
  split
  next rest heq =>
    exact two_pow_length_le ((skipBlanks_suffix rest).trans (suffix_of_skipBlanks_eq heq))
  next => exact Nat.zero_le _

/-- **Weight.** All that the readings of a text leave over weighs no more than the text. -/
theorem weight_readings_le (goal : Goal) (cs : List Char) :
    (readings goal cs).weight ≤ 2 ^ cs.length := by
  induction goal, cs using readings_induction with
  | disjunction cs hfirst hrest =>
    rw [readings_disjunction]
    exact Nat.le_trans (Trace.weight_andThen_le hrest) hfirst
  | disjunctionEnd left cs hor =>
    rw [readings_disjunctionAfter_end left hor]
    exact Nat.le_refl _
  | or left cs cs' hor hfirst hrest =>
    rw [readings_disjunctionAfter_or left hor]
    have hcs := (Keyword.accept_eq_some_iff.mp hor).suffix
    exact Nat.le_trans (Nat.le_trans (Trace.weight_andThen_le hrest) hfirst) (two_pow_length_le hcs)
  | conjunction cs hfirst hrest =>
    rw [readings_conjunction]
    exact Nat.le_trans (Trace.weight_andThen_le hrest) hfirst
  | conjunctionEnd left cs hand =>
    rw [readings_conjunctionAfter_end left hand]
    exact Nat.le_refl _
  | and left cs cs' hand hfirst hrest =>
    rw [readings_conjunctionAfter_and left hand]
    have hcs := (Keyword.accept_eq_some_iff.mp hand).suffix
    exact Nat.le_trans (Nat.le_trans (Trace.weight_andThen_le hrest) hfirst) (two_pow_length_le hcs)
  | not cs cs' hnot hoperand =>
    rw [readings_unary_not hnot]
    have hcs := (Keyword.accept_eq_some_iff.mp hnot).suffix
    refine Nat.le_trans (Trace.weight_andThen_le ?_) (Nat.le_trans hoperand (two_pow_length_le hcs))
    exact fun _ _ _ => Nat.le_refl _
  | atom cs hnot hatom =>
    rw [readings_unary_atom hnot]
    exact hatom
  | ended cs h =>
    rw [readings_atom_ended h]
    exact Nat.zero_le _
  | allow cs rest h =>
    rw [readings_atom_allow h]
    exact two_pow_length_le ((skipBlanks_suffix rest).trans (suffix_of_skipBlanks_eq h))
  | deny cs rest h =>
    rw [readings_atom_deny h]
    exact two_pow_length_le ((skipBlanks_suffix rest).trans (suffix_of_skipBlanks_eq h))
  | group cs inner h hinner =>
    rw [readings_atom_group h]
    refine Nat.le_trans (Trace.weight_andThen_le ?_)
      (Nat.le_trans hinner (two_pow_length_le (suffix_of_skipBlanks_eq h)))
    exact fun e rest _ => weight_closeGroup_le e rest
  | check cs hne hopen =>
    rw [readings_atom_check hne hopen]
    have hcheck := weight_checkReadings_le (skipBlanks cs)
    refine Nat.le_trans (Trace.weight_andThen_le ?_)
      (Nat.le_trans hcheck (two_pow_length_le (skipBlanks_suffix cs)))
    exact fun _ rest _ => two_pow_length_le (skipBlanks_suffix rest)

/-! ## Places -/

/-- Where nothing is found, what happens is a failure. -/
theorem Trace.exists_failure {t : Trace} (hne : t ≠ []) (hfound : t.found = []) :
    ∃ f ∈ t.failures, Step.failed f ∈ t := by
  obtain ⟨s, hs⟩ := List.exists_mem_of_ne_nil t hne
  cases s with
  | found e rest =>
    have hmem := mem_found.mpr hs
    rw [hfound] at hmem
    cases hmem
  | failed f => exact ⟨f, List.mem_filterMap.mpr ⟨_, hs, rfl⟩, hs⟩

/-- What is left over behind a place of a text begins at a place no further back. -/
theorem exists_place (hp : p ≤ text.length) (h : rest <:+ text.drop p) :
    ∃ place, place ≤ text.length ∧ rest = text.drop place ∧
      rest.length + (place - p) = (text.drop p).length ∧ p ≤ place := by
  have hlength := h.length_le
  rw [List.length_drop] at hlength
  refine ⟨text.length - rest.length, Nat.sub_le _ _, ?_, ?_, by omega⟩
  · exact List.suffix_iff_eq_drop.mp (h.trans (List.drop_suffix p text))
  · rw [List.length_drop]
    omega

/-- What is read at a place of a text comes further: each reading ends at a later place, there are
not too many, and where there is none a failure is reported, at this place or a later one. -/
structure Trace.AdvancesFrom (t : Trace) (text : List Char) (p : Nat) : Prop where
  later : ∀ e rest, (e, rest) ∈ t.found →
    ∃ stop, p < stop ∧ stop ≤ text.length ∧ rest = text.drop stop
  few : t.found.length ≤ 2 ^ (text.length - p)
  reported : t.found = [] →
    ∃ f ∈ t.failures, ∃ place, p ≤ place ∧ place ≤ text.length ∧ f.rest = text.drop place

theorem Trace.advancesFrom {t : Trace} (hp : p ≤ text.length) (hne : t ≠ [])
    (hsuffix : ∀ s ∈ t, s.behind <:+ text.drop p) (hweight : t.weight ≤ 2 ^ (text.drop p).length)
    (hlt : ∀ e rest, (e, rest) ∈ t.found → rest.length < (text.drop p).length) :
    t.AdvancesFrom text p where
  later e rest hfound := by
    have hless := hlt e rest hfound
    obtain ⟨stop, hstop, hrest, hlength, -⟩ := exists_place hp (hsuffix _ (mem_found.mp hfound))
    change rest.length + _ = _ at hlength
    exact ⟨stop, by omega, hstop, hrest⟩
  few := by
    rw [List.length_drop] at hweight
    exact Nat.le_trans t.length_found_le_weight hweight
  reported hfound := by
    obtain ⟨f, hf, hmem⟩ := exists_failure hne hfound
    obtain ⟨place, hplace, hrest, -, hle⟩ := exists_place hp (hsuffix _ hmem)
    exact ⟨f, hf, place, hle, hplace, hrest⟩

/-- Behind an operand nothing is found only if its keyword is there, and then the failure is behind
the keyword. -/
theorem exists_failure_behind {k : Keyword} {left : Expr} {goal : Goal}
    (hend : k.accept cs = none → readings goal cs = [.found left cs])
    (hmore : ∀ cs', k.accept cs = some cs' → ∀ s ∈ readings goal cs, s.behind <:+ cs')
    (hfound : (readings goal cs).found = []) :
    ∃ f ∈ (readings goal cs).failures, f.rest <:+ cs ∧ f.rest.length < cs.length := by
  cases hkeyword : k.accept cs with
  | none =>
    rw [hend hkeyword] at hfound
    cases hfound
  | some cs' =>
    have hat := Keyword.accept_eq_some_iff.mp hkeyword
    obtain ⟨f, hf, hmem⟩ := Trace.exists_failure (readings_ne_nil goal cs) hfound
    have hrest : f.rest <:+ cs' := hmore cs' hkeyword _ hmem
    exact ⟨f, hf, hrest.trans hat.suffix, Nat.lt_of_le_of_lt hrest.length_le hat.length_lt⟩

theorem exists_failure_of_disjunctionAfter (left : Expr)
    (hfound : (readings (.disjunctionAfter left) cs).found = []) :
    ∃ f ∈ (readings (.disjunctionAfter left) cs).failures,
      f.rest <:+ cs ∧ f.rest.length < cs.length := by
  refine exists_failure_behind (readings_disjunctionAfter_end left) (fun cs' hor => ?_) hfound
  rw [readings_disjunctionAfter_or left hor]
  exact Trace.suffix_andThen (readings_suffix _ _) fun _ rest _ => readings_suffix _ rest

theorem exists_failure_of_conjunctionAfter (left : Expr)
    (hfound : (readings (.conjunctionAfter left) cs).found = []) :
    ∃ f ∈ (readings (.conjunctionAfter left) cs).failures,
      f.rest <:+ cs ∧ f.rest.length < cs.length := by
  refine exists_failure_behind (readings_conjunctionAfter_end left) (fun cs' hand => ?_) hfound
  rw [readings_conjunctionAfter_and left hand]
  exact Trace.suffix_andThen (readings_suffix _ _) fun _ rest _ => readings_suffix _ rest

/-- What a phrase leaves over begins with no blank. -/
theorem skipBlanks_found {goal : Goal} {e : Expr} (htakes : goal.takes = 1)
    (h : (e, rest) ∈ (readings goal cs).found) : skipBlanks rest = rest := by
  have hsound := readings_sound h
  cases goal with
  | disjunction | conjunction | unary | atom =>
    obtain ⟨rest', -, rfl⟩ := hsound
    exact skipBlanks_skipBlanks rest'
  | disjunctionAfter left | conjunctionAfter left => cases htakes

/-- **Progress.** Wherever in a text a phrase is read, each reading ends at a later place that no
blank stands at; the readings are all found at some depth, and are not too many; and where there is
none a failure is reported that is no further back. The same holds of a check, but for the blanks.
What may follow an operand fails only further on. -/
theorem readings_advance (hp : p ≤ text.length) :
    (∀ goal ∈ [Goal.disjunction, .conjunction, .unary, .atom],
      (readings goal (text.drop p)).AdvancesFrom text p ∧
      (∀ e rest, (e, rest) ∈ (readings goal (text.drop p)).found →
        ∀ c, rest.head? = some c → isBlank c = false) ∧
      ∀ depth, depthFor (text.drop p) ≤ depth →
        readingsWithin depth goal (text.drop p) = readings goal (text.drop p)) ∧
    (checkReadings (text.drop p)).AdvancesFrom text p ∧
    ∀ left, ∀ goal ∈ [Goal.disjunctionAfter left, .conjunctionAfter left],
      (readings goal (text.drop p)).found = [] →
        ∃ f ∈ (readings goal (text.drop p)).failures,
          ∃ place, p < place ∧ place ≤ text.length ∧ f.rest = text.drop place := by
  refine ⟨fun goal hgoal => ?_, ?_, fun left goal hgoal hfound => ?_⟩
  · have htakes : goal.takes = 1 := by
      simp only [List.mem_cons, List.not_mem_nil, or_false] at hgoal
      rcases hgoal with rfl | rfl | rfl | rfl <;> rfl
    refine ⟨?_, fun e rest hfound c hc => ?_, fun depth hdepth => ?_⟩
    · refine Trace.advancesFrom hp (readings_ne_nil _ _) (readings_suffix _ _)
        (weight_readings_le _ _) fun e rest hfound => ?_
      have hlength := readings_length_lt hfound
      omega
    · obtain ⟨more, hrest⟩ := List.head?_eq_some_iff.mp hc
      exact skipBlanks_head ((skipBlanks_found htakes hfound).trans hrest)
    · exact readingsWithin_eq_readings (Nat.le_trans (goal.need_le (Nat.le_refl _)) hdepth)
  · refine Trace.advancesFrom hp (checkReadings_ne_nil _) (checkReadings_suffix _)
      (weight_checkReadings_le _) fun e rest hfound => ?_
    obtain ⟨lhs, rhs, -, hcheck⟩ := mem_found_checkReadings.mp hfound
    exact hcheck.length_lt
  · have hfailure : ∃ f ∈ (readings goal (text.drop p)).failures,
        f.rest <:+ text.drop p ∧ f.rest.length < (text.drop p).length := by
      simp only [List.mem_cons, List.not_mem_nil, or_false] at hgoal
      rcases hgoal with rfl | rfl
      · exact exists_failure_of_disjunctionAfter left hfound
      · exact exists_failure_of_conjunctionAfter left hfound
    obtain ⟨f, hf, hsuffix, hlt⟩ := hfailure
    obtain ⟨place, hplace, hrest, hlength, -⟩ := exists_place hp hsuffix
    exact ⟨f, hf, place, by omega, hplace, hrest⟩

/-- A group, and an operator without its right operand. -/
def dangling : List Char := "(a:b) and ".toList

/-- The check in the group can be read in two ways, and the group in one. Behind it the operator is
there and nothing else, which is reported at the end of the text. -/
theorem readings_advance_dangling :
    1 ≤ dangling.length ∧ (checkReadings (dangling.drop 1)).AdvancesFrom dangling 1 ∧
    (checkReadings (dangling.drop 1)).found.length = 2 ∧
    (readings .atom (dangling.drop 0)).AdvancesFrom dangling 0 ∧
    5 ≤ dangling.length ∧
    (readings (.conjunctionAfter (.const true)) (dangling.drop 5)).found = [] ∧
    ∃ f ∈ (readings (.conjunctionAfter (.const true)) (dangling.drop 5)).failures,
      ∃ place, 5 < place ∧ place ≤ dangling.length ∧ f.rest = dangling.drop place := by
  have hgroup : 0 ≤ dangling.length := Nat.zero_le _
  have hcheck : 1 ≤ dangling.length := by decide
  have hbehind : 5 ≤ dangling.length := by decide
  have hnone : (readings (.conjunctionAfter (.const true)) (dangling.drop 5)).found = [] := by
    decide
  exact ⟨hcheck, (readings_advance hcheck).2.1, by decide,
    ((readings_advance hgroup).1 .atom (by decide)).1, hbehind, hnone,
    (readings_advance hbehind).2.2 (.const true) _ (by decide) hnone⟩

end AccessPolicy
