import AccessPolicy.Proofs.Closers

/-!
# The order of readings

A text may have several readings; the first complete one is its rule. Nothing in the search says
which one that is, but the order in which its parts are tried does: a check takes the longest right
side first, and everything behind the check is tried before a shorter one is. So the readings come
out sorted (`readingsWithin_sorted`): of any two, the earlier one keeps more closing parentheses at
the first check where they differ (`KeepsMore`). The rule of a text is the first of them all, so it
keeps the most.
-/

namespace AccessPolicy

/-- At the first place where they differ, the first list of checks has the longer right side: more
of the closing parentheses behind it stay in it. -/
inductive KeepsMore : List (LeftSide × List Char) → List (LeftSide × List Char) → Prop
  | here {lhs : LeftSide} {rhs : List Char} {n : Nat} {xs ys : List (LeftSide × List Char)} :
      KeepsMore ((lhs, rhs ++ closers (n + 1)) :: xs) ((lhs, rhs) :: ys)
  | later {c : LeftSide × List Char} {xs ys : List (LeftSide × List Char)} (h : KeepsMore xs ys) :
      KeepsMore (c :: xs) (c :: ys)

namespace KeepsMore

variable {xs ys : List (LeftSide × List Char)}

theorem append_left (h : KeepsMore xs ys) : ∀ before, KeepsMore (before ++ xs) (before ++ ys)
  | [] => h
  | _ :: before => .later (h.append_left before)

/-- What stands behind the first difference does not matter. -/
theorem append_right (h : KeepsMore xs ys) (after after' : List (LeftSide × List Char)) :
    KeepsMore (xs ++ after) (ys ++ after') := by
  induction h with
  | here => exact .here
  | later _ ih => exact .later ih

theorem cons_cons {c c' : LeftSide × List Char} (h : KeepsMore (c :: xs) (c' :: ys)) :
    (∃ n, c.2 = c'.2 ++ closers (n + 1)) ∨ c = c' ∧ KeepsMore xs ys := by
  cases h with
  | here => exact Or.inl ⟨_, rfl⟩
  | later h => exact Or.inr ⟨rfl, h⟩

/-- A right side is no longer than itself. -/
theorem ne_append_closers (rhs : List Char) (n : Nat) : rhs ≠ rhs ++ closers (n + 1) := by
  intro heq
  have hlen := congrArg List.length heq
  rw [List.length_append, List.length_replicate] at hlen
  omega

theorem asymm (h : KeepsMore xs ys) : ¬ KeepsMore ys xs := by
  intro h'
  induction h with
  | @here lhs rhs n xs ys =>
    rcases h'.cons_cons with ⟨m, hm⟩ | ⟨heq, -⟩
    · rw [List.append_assoc, List.replicate_append_replicate] at hm
      exact ne_append_closers rhs (n + 1 + m) hm
    · exact ne_append_closers rhs n (Prod.mk.inj heq).2
  | @later c xs ys _ ih =>
    rcases h'.cons_cons with ⟨m, hm⟩ | ⟨-, h'⟩
    · exact ne_append_closers c.2 m hm
    · exact ih h'

theorem ne (h : KeepsMore xs ys) : xs ≠ ys := fun heq => h.asymm (heq ▸ h)

/-- Where two lists agree on all checks in front, the one that keeps more has no shorter right
side. -/
theorem length_le (h : KeepsMore xs ys) {n : Nat} {c c' : LeftSide × List Char}
    (htake : ys.take n = xs.take n) (hc : xs[n]? = some c) (hc' : ys[n]? = some c') :
    c'.2.length ≤ c.2.length := by
  induction h generalizing n with
  | @here lhs rhs k xs ys =>
    cases n with
    | zero =>
      obtain rfl := Option.some.inj hc
      obtain rfl := Option.some.inj hc'
      exact List.IsPrefix.length_le (List.prefix_append rhs _)
    | succ n =>
      rw [List.take_succ_cons, List.take_succ_cons] at htake
      exact absurd (Prod.mk.inj (List.cons.inj htake).1).2 (ne_append_closers rhs k)
  | @later d xs ys _ ih =>
    cases n with
    | zero =>
      obtain rfl := Option.some.inj hc
      obtain rfl := Option.some.inj hc'
      exact Nat.le_refl _
    | succ n =>
      rw [List.take_succ_cons, List.take_succ_cons] at htake
      exact ih (List.cons.inj htake).2 hc hc'

end KeepsMore

/-! ## Sorting -/

/-- Going on from a sorted trace gives a sorted trace again, where everything found from an earlier
reading comes before everything found from a later one. -/
theorem Trace.pairwise_andThen {t : Trace} {next : Expr → List Char → Trace}
    {R S : Expr × List Char → Expr × List Char → Prop} (ht : t.found.Pairwise R)
    (hnext : ∀ e rest, (e, rest) ∈ t.found → (next e rest).found.Pairwise S)
    (hcross : ∀ e rest e' rest', R (e, rest) (e', rest') →
      ∀ p ∈ (next e rest).found, ∀ q ∈ (next e' rest').found, S p q) :
    (t.andThen next).found.Pairwise S := by
  rw [found_andThen, List.pairwise_flatMap]
  refine ⟨fun p hp => hnext p.1 p.2 hp, ht.imp ?_⟩
  intro p q hpq x hx y hy
  exact hcross _ _ _ _ hpq x hx y hy

/-- The earlier of two readings keeps more. -/
def Earlier (p q : Expr × List Char) : Prop := KeepsMore p.1.checks q.1.checks

/-- Whatever adds no check to what was found keeps the order. -/
theorem Trace.sorted_andThen {t : Trace} {next : Expr → List Char → Trace}
    (ht : t.found.Pairwise Earlier) (hnext : ∀ e rest, (next e rest).found.Pairwise Earlier)
    (hchecks : ∀ e rest, ∀ p ∈ (next e rest).found, p.1.checks = e.checks) :
    (t.andThen next).found.Pairwise Earlier := by
  refine pairwise_andThen ht (fun e rest _ => hnext e rest) ?_
  intro e rest e' rest' h p hp q hq
  rw [Earlier, hchecks e rest p hp, hchecks e' rest' q hq]
  exact h

/-- The readings of a check are found from the longest right side to the shortest. -/
theorem checkReadings_sorted (cs : List Char) : (checkReadings cs).found.Pairwise Earlier := by
  rw [checkReadings]
  split
  next => exact List.Pairwise.nil
  next lhs rest _ =>
    rw [rightSideReadings]
    split
    next => exact List.Pairwise.nil
    next =>
      rw [Trace.found, List.filterMap_map, List.pairwise_filterMap]
      refine (rightSides_pairwise _ _).imp ?_
      rintro ⟨rhs, _⟩ ⟨rhs', _⟩ ⟨n, rfl⟩ _ hp _ hq
      obtain rfl := Option.some.inj hp
      obtain rfl := Option.some.inj hq
      simp only [Earlier, Expr.checks, String.toList_ofList]
      exact .here
  next => exact List.Pairwise.nil

/-- The checks that are read before a goal begins. -/
def Goal.checksBefore : Goal → List (LeftSide × List Char)
  | .disjunctionAfter left | .conjunctionAfter left => left.checks
  | _ => []

/-- What follows an operand adds checks behind those of the operand. -/
theorem checksBefore_prefix : ∀ (depth : Nat) {goal : Goal} {cs rest : List Char} {e : Expr},
    (e, rest) ∈ (readingsWithin depth goal cs).found → goal.checksBefore <+: e.checks := by
  intro depth
  induction depth with
  | zero => intro goal cs rest e h; simp [readingsWithin] at h
  | succ depth ih =>
    intro goal cs rest e h
    cases goal with
    | disjunctionAfter left | conjunctionAfter left =>
      rw [readingsWithin] at h
      split at h
      next =>
        obtain ⟨rfl, rfl⟩ := by simpa using h
        exact List.prefix_rfl
      next =>
        obtain ⟨right, mid, -, hafter⟩ := Trace.mem_found_andThen.mp h
        exact (List.prefix_append left.checks right.checks).trans (ih hafter)
    | _ => exact List.nil_prefix

/-- **The order of readings.** They are found sorted, so that the earlier one keeps more at the
first check where two of them differ. -/
theorem readingsWithin_sorted : ∀ (depth : Nat) (goal : Goal) (cs : List Char),
    (readingsWithin depth goal cs).found.Pairwise Earlier := by
  intro depth
  induction depth with
  | zero => intro goal cs; exact List.Pairwise.nil
  | succ depth ih =>
    intro goal cs
    -- whatever stands behind two operands, the operands decide
    have hchain : ∀ (before : List (LeftSide × List Char)) (next : Expr → Goal),
        (∀ e, (next e).checksBefore = before ++ e.checks) → ∀ e rest e' rest',
        Earlier (e, rest) (e', rest') → ∀ p ∈ (readingsWithin depth (next e) rest).found,
          ∀ q ∈ (readingsWithin depth (next e') rest').found, Earlier p q := by
      intro before next hnext e rest e' rest' h p hp q hq
      obtain ⟨more, hmore⟩ := checksBefore_prefix depth hp
      obtain ⟨more', hmore'⟩ := checksBefore_prefix depth hq
      rw [hnext] at hmore hmore'
      rw [Earlier, ← hmore, ← hmore']
      exact (KeepsMore.append_left h before).append_right more more'
    cases goal with
    | disjunction =>
      rw [readingsWithin]
      exact Trace.pairwise_andThen (ih _ cs) (fun _ _ _ => ih _ _)
        (hchain [] .disjunctionAfter fun _ => rfl)
    | conjunction =>
      rw [readingsWithin]
      exact Trace.pairwise_andThen (ih _ cs) (fun _ _ _ => ih _ _)
        (hchain [] .conjunctionAfter fun _ => rfl)
    | disjunctionAfter left =>
      rw [readingsWithin]
      split
      next => exact List.pairwise_singleton ..
      next cs' _ =>
        exact Trace.pairwise_andThen (ih _ cs') (fun _ _ _ => ih _ _)
          (hchain left.checks (fun right => .disjunctionAfter (.or left right)) fun _ => rfl)
    | conjunctionAfter left =>
      rw [readingsWithin]
      split
      next => exact List.pairwise_singleton ..
      next cs' _ =>
        exact Trace.pairwise_andThen (ih _ cs') (fun _ _ _ => ih _ _)
          (hchain left.checks (fun right => .conjunctionAfter (.and left right)) fun _ => rfl)
    | unary =>
      rw [readingsWithin]
      split
      next => exact ih _ _
      next cs' _ =>
        refine Trace.sorted_andThen (ih _ cs') (fun _ _ => List.pairwise_singleton ..) ?_
        intro e rest p hp
        rw [List.mem_singleton.mp hp, Expr.checks]
    | atom =>
      rw [readingsWithin]
      split
      next => exact List.Pairwise.nil
      next => exact List.pairwise_singleton ..
      next => exact List.pairwise_singleton ..
      next inner _ =>
        refine Trace.sorted_andThen (ih _ inner) (fun e rest => ?_) (fun e rest p hp => ?_)
        · split
          · exact List.pairwise_singleton ..
          · exact List.Pairwise.nil
        · split at hp
          · rw [List.mem_singleton.mp hp]
          · exact absurd hp List.not_mem_nil
      next =>
        refine Trace.sorted_andThen (checkReadings_sorted _)
          (fun _ _ => List.pairwise_singleton ..) ?_
        intro e rest p hp
        rw [List.mem_singleton.mp hp]

/-! ## Complete readings -/

theorem completeReadings_sorted (cs : List Char) :
    (completeReadings cs).Pairwise fun e e' => KeepsMore e.checks e'.checks := by
  rw [completeReadings, List.pairwise_map]
  exact (readingsWithin_sorted _ _ cs).filter _

/-- The rule of a text keeps more than any other complete reading of it. -/
theorem keepsMore_of_parse {text : String} {e e' : Expr} (h : Expr.parse text = .ok e)
    (h' : CompleteReading text.toList e') (hne : e' ≠ e) : KeepsMore e.checks e'.checks := by
  have hhead := parse_eq_ok_iff.mp h
  have hsorted := completeReadings_sorted text.toList
  have hmem := mem_completeReadings.mpr h'
  obtain ⟨others, hlist⟩ := List.head?_eq_some_iff.mp hhead
  rw [hlist] at hsorted hmem
  rcases List.mem_cons.mp hmem with heq | hother
  · exact absurd heq hne
  · exact (List.pairwise_cons.mp hsorted).1 e' hother

/-- **Greedy from left to right.** The rule of a text is one of its complete readings. The others
have the same checks but for closing parentheses that right sides give back. The rule keeps more
than each of them at the first check where they differ: no reading that agrees with it on all
earlier checks has a longer right side there. -/
theorem parse_keeps_most {text : String} {e : Expr} (h : Expr.parse text = .ok e) :
    CompleteReading text.toList e ∧ ∀ e', CompleteReading text.toList e' →
      SameButClosers e.checks e'.checks ∧ (e' ≠ e → KeepsMore e.checks e'.checks) ∧
      ∀ n c c', e'.checks.take n = e.checks.take n → e.checks[n]? = some c →
        e'.checks[n]? = some c' → c'.2.length ≤ c.2.length := by
  have hread := completeReading_of_parse h
  refine ⟨hread, fun e' hread' => ⟨hread.sameButClosers hread', keepsMore_of_parse h hread', ?_⟩⟩
  intro n c c' htake hc hc'
  by_cases heq : e' = e
  · subst heq
    obtain rfl := Option.some.inj (hc.symm.trans hc')
    exact Nat.le_refl _
  · exact (keepsMore_of_parse h hread' heq).length_le htake hc hc'

/-- The group of this text may end behind either check; the first check keeps its parenthesis. -/
theorem parse_keeps_most_ambiguous :
    CompleteReading "(a:x) or b:y)".toList
      (.or (.check (.identifier "a") "x") (.check (.identifier "b") "y)")) ∧
    Expr.parse "(a:x) or b:y)" =
      .ok (.or (.check (.identifier "a") "x)") (.check (.identifier "b") "y")) ∧
    KeepsMore [(.identifier "a", ['x', ')']), (.identifier "b", ['y'])]
      [(.identifier "a", ['x']), (.identifier "b", ['y', ')'])] := by
  have hread : CompleteReading "(a:x) or b:y)".toList
      (.or (.check (.identifier "a") "x") (.check (.identifier "b") "y)")) :=
    mem_completeReadings.mp (by decide)
  have hparse : Expr.parse "(a:x) or b:y)" =
    .ok (.or (.check (.identifier "a") "x)") (.check (.identifier "b") "y")) := by decide
  exact ⟨hread, hparse, ((parse_keeps_most hparse).2 _ hread).2.1 (by decide)⟩

end AccessPolicy
