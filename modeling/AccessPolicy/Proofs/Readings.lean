import AccessPolicy.Proofs.Check

/-!
# The readings without their depth

`readings` looks as deep as the length of the text allows, and that is deep enough: from
`readings_disjunction` on, its equations are the ones of `readingsWithin` with no depth in them.
They rest on two facts. Every phrase takes at least a character (`length_add_takes_le`), so a goal
that is nested in another one begins with a shorter text or with a tighter phrase; and from
`Goal.need` on the depth does not matter (`readingsWithin_eq`).
-/

namespace AccessPolicy

namespace Trace

theorem mem_found_andThen {t : Trace} {next : Expr → List Char → Trace} {e : Expr}
    {rest : List Char} : (e, rest) ∈ (t.andThen next).found ↔
      ∃ e' mid, (e', mid) ∈ t.found ∧ (e, rest) ∈ (next e' mid).found := by
  rw [found_andThen, List.mem_flatMap]
  exact ⟨fun ⟨⟨e', mid⟩, h, h'⟩ => ⟨e', mid, h, h'⟩, fun ⟨e', mid, h, h'⟩ => ⟨(e', mid), h, h'⟩⟩

/-- Going on in two ways that agree on everything found is the same. -/
theorem andThen_congr {t : Trace} {next next' : Expr → List Char → Trace}
    (h : ∀ e rest, (e, rest) ∈ t.found → next e rest = next' e rest) :
    t.andThen next = t.andThen next' := by
  rw [andThen, andThen, List.flatMap, List.flatMap]
  refine congrArg List.flatten (List.map_congr_left fun s hs => ?_)
  cases s with
  | found e rest => exact h e rest (mem_found.mpr hs)
  | failed f => rfl

end Trace

/-! ## Progress -/

theorem length_skipBlanks_le (cs : List Char) : (skipBlanks cs).length ≤ cs.length := by
  obtain ⟨blanks, -, hcs⟩ := exists_skipBlanks cs
  rw [hcs, List.length_append, ← hcs]
  exact Nat.le_add_left _ _

theorem Keyword.At.length_lt {k : Keyword} {cs rest : List Char} (h : k.At cs rest) :
    rest.length < cs.length := by
  obtain ⟨blanks, -, rfl, -⟩ := h
  cases k <;> simp only [Keyword.chars, List.length_append, List.length_cons] <;> omega

/-- How many characters a goal takes at least: what may follow an operand may be nothing. -/
def Goal.takes : Goal → Nat
  | .disjunctionAfter _ | .conjunctionAfter _ => 0
  | _ => 1

/-- Every phrase takes at least a character of the text. -/
theorem length_add_takes_le : ∀ (depth : Nat) (goal : Goal) (cs : List Char) (e : Expr)
    (rest : List Char), (e, rest) ∈ (readingsWithin depth goal cs).found →
      rest.length + goal.takes ≤ cs.length := by
  intro depth
  induction depth with
  | zero => intro goal cs e rest h; simp [readingsWithin] at h
  | succ depth ih =>
    intro goal cs e rest h
    cases goal with
    | disjunction | conjunction =>
      rw [readingsWithin] at h
      obtain ⟨left, mid, hleft, hafter⟩ := Trace.mem_found_andThen.mp h
      have hfirst := ih _ _ _ _ hleft
      have hrest := ih _ _ _ _ hafter
      simp only [Goal.takes] at *
      omega
    | disjunctionAfter left | conjunctionAfter left =>
      rw [readingsWithin] at h
      split at h
      next =>
        obtain ⟨rfl, rfl⟩ := by simpa using h
        exact Nat.le_refl _
      next cs' hkeyword =>
        have hlt := (Keyword.accept_eq_some_iff.mp hkeyword).length_lt
        obtain ⟨right, mid, hright, hafter⟩ := Trace.mem_found_andThen.mp h
        have hfirst := ih _ _ _ _ hright
        have hrest := ih _ _ _ _ hafter
        simp only [Goal.takes] at *
        omega
    | unary =>
      rw [readingsWithin] at h
      split at h
      next => exact ih .atom _ _ _ h
      next cs' hnot =>
        have hlt := (Keyword.accept_eq_some_iff.mp hnot).length_lt
        obtain ⟨operand, mid, hoperand, hfound⟩ := Trace.mem_found_andThen.mp h
        obtain ⟨rfl, rfl⟩ := by simpa using hfound
        have hlen := ih _ _ _ _ hoperand
        simp only [Goal.takes] at *
        omega
    | atom =>
      rw [readingsWithin] at h
      have hskip := length_skipBlanks_le cs
      split at h
      next => simp at h
      next tail heq =>
        obtain ⟨rfl, rfl⟩ := by simpa using h
        rw [heq, List.length_cons] at hskip
        exact Nat.le_trans (Nat.succ_le_succ (length_skipBlanks_le tail)) hskip
      next tail heq =>
        obtain ⟨rfl, rfl⟩ := by simpa using h
        rw [heq, List.length_cons] at hskip
        exact Nat.le_trans (Nat.succ_le_succ (length_skipBlanks_le tail)) hskip
      next inner heq =>
        obtain ⟨e', mid, hmid, hclose⟩ := Trace.mem_found_andThen.mp h
        split at hclose
        next tail hmidEq =>
          obtain ⟨rfl, rfl⟩ := by simpa using hclose
          -- the group takes its two parentheses and what is inside
          have hinner := ih _ _ _ _ hmid
          have hmidLen := length_skipBlanks_le mid
          have htailLen := length_skipBlanks_le tail
          simp only [heq, hmidEq, List.length_cons, Goal.takes] at *
          omega
        next => simp at hclose
      next =>
        obtain ⟨e', mid, hmid, hfound⟩ := Trace.mem_found_andThen.mp h
        obtain ⟨rfl, rfl⟩ := by simpa using hfound
        obtain ⟨lhs, rhs, -, hcheck⟩ := mem_found_checkReadings.mp hmid
        have hlt := hcheck.length_lt
        have hmidLen := length_skipBlanks_le mid
        simp only [Goal.takes]
        omega

/-! ## The depth that is needed -/

/-- How many goals may be nested at one place of the text. -/
def Goal.rank : Goal → Nat
  | .disjunction => 3
  | .conjunction => 2
  | .unary => 1
  | _ => 0

/-- A depth at which a goal finds all it can find. -/
def Goal.need (goal : Goal) (cs : List Char) : Nat := 4 * cs.length + goal.rank + 1

/-- From `Goal.need` on, the depth does not matter. -/
theorem readingsWithin_eq : ∀ (depth depth' : Nat) (goal : Goal) (cs : List Char),
    goal.need cs ≤ depth → goal.need cs ≤ depth' →
      readingsWithin depth goal cs = readingsWithin depth' goal cs := by
  intro depth
  induction depth with
  | zero => intro depth' goal cs h; exact absurd h (by simp [Goal.need])
  | succ depth ih =>
    intro depth' goal cs h h'
    obtain ⟨depth', rfl⟩ : ∃ n, depth' = n + 1 :=
      Nat.exists_eq_succ_of_ne_zero (Nat.ne_of_gt (Nat.lt_of_lt_of_le (Nat.succ_pos _) h'))
    have hnested : ∀ goal' cs', goal'.need cs' < goal.need cs →
        readingsWithin depth goal' cs' = readingsWithin depth' goal' cs' := fun goal' cs' hlt =>
      ih depth' goal' cs' (Nat.le_of_lt_succ (Nat.lt_of_lt_of_le hlt h))
        (Nat.le_of_lt_succ (Nat.lt_of_lt_of_le hlt h'))
    -- behind an operand the text is shorter, so whatever may follow it needs less depth
    have hchain : ∀ goal' cs' (next : Expr → Goal), goal'.takes = 1 → (∀ e, (next e).rank = 0) →
        cs'.length ≤ cs.length → goal'.need cs' < goal.need cs →
        ((readingsWithin depth goal' cs').andThen fun e rest =>
            readingsWithin depth (next e) rest) =
          (readingsWithin depth' goal' cs').andThen fun e rest =>
            readingsWithin depth' (next e) rest := by
      intro goal' cs' next htakes hrank hlen hneed
      rw [hnested goal' cs' hneed]
      refine Trace.andThen_congr fun e rest he => hnested _ rest ?_
      have hprogress := length_add_takes_le depth' _ _ _ _ he
      simp only [htakes, hrank, Goal.need] at *
      omega
    cases goal with
    | disjunction =>
      rw [readingsWithin, readingsWithin]
      exact hchain .conjunction cs .disjunctionAfter rfl (fun _ => rfl) (Nat.le_refl _)
        (by simp [Goal.need, Goal.rank])
    | conjunction =>
      rw [readingsWithin, readingsWithin]
      exact hchain .unary cs .conjunctionAfter rfl (fun _ => rfl) (Nat.le_refl _)
        (by simp [Goal.need, Goal.rank])
    | disjunctionAfter left =>
      rw [readingsWithin, readingsWithin]
      split
      next => rfl
      next cs' hor =>
        have hlen := (Keyword.accept_eq_some_iff.mp hor).length_lt
        exact hchain .conjunction cs' (fun right => .disjunctionAfter (.or left right)) rfl
          (fun _ => rfl) (Nat.le_of_lt hlen) (by simp only [Goal.need, Goal.rank]; omega)
    | conjunctionAfter left =>
      rw [readingsWithin, readingsWithin]
      split
      next => rfl
      next cs' hand =>
        have hlen := (Keyword.accept_eq_some_iff.mp hand).length_lt
        exact hchain .unary cs' (fun right => .conjunctionAfter (.and left right)) rfl
          (fun _ => rfl) (Nat.le_of_lt hlen) (by simp only [Goal.need, Goal.rank]; omega)
    | unary =>
      rw [readingsWithin, readingsWithin]
      split
      next => exact hnested .atom cs (by simp [Goal.need, Goal.rank])
      next cs' hnot =>
        have hlen := (Keyword.accept_eq_some_iff.mp hnot).length_lt
        rw [hnested .unary cs' (by simp only [Goal.need, Goal.rank]; omega)]
    | atom =>
      rw [readingsWithin, readingsWithin]
      have hskip := length_skipBlanks_le cs
      split
      next => rfl
      next => rfl
      next => rfl
      next inner heq =>
        rw [heq, List.length_cons] at hskip
        rw [hnested .disjunction inner (by simp only [Goal.need, Goal.rank]; omega)]
      next => rfl

theorem readingsWithin_eq_readings {depth : Nat} {goal : Goal} {cs : List Char}
    (h : goal.need cs ≤ depth) : readingsWithin depth goal cs = readings goal cs := by
  refine readingsWithin_eq _ _ goal cs h ?_
  cases goal <;> simp [Goal.need, Goal.rank, depthFor]

/-- The depth of `readings` is enough for every goal, in a text no longer than its own. -/
theorem Goal.need_le (goal : Goal) {cs cs' : List Char} (h : cs'.length ≤ cs.length) :
    goal.need cs' ≤ 4 * cs.length + 4 := by
  cases goal <;> simp only [need, rank] <;> omega

/-- With one level more, a goal can be opened and only `readings` is found in it. -/
theorem readings_eq_succ (goal : Goal) (cs : List Char) :
    readings goal cs = readingsWithin (4 * cs.length + 4 + 1) goal cs :=
  (readingsWithin_eq_readings (Nat.le_succ_of_le (goal.need_le (Nat.le_refl _)))).symm

theorem readings_length_lt {goal : Goal} {cs rest : List Char} {e : Expr}
    (h : (e, rest) ∈ (readings goal cs).found) : rest.length + goal.takes ≤ cs.length :=
  length_add_takes_le _ goal cs e rest h

/-- An operand and whatever may follow it, at a depth that is enough for the operand. -/
theorem andThen_readings {depth : Nat} {goal : Goal} {cs : List Char} (next : Expr → Goal)
    (htakes : goal.takes = 1) (hnext : ∀ e, (next e).rank = 0) (h : goal.need cs ≤ depth) :
    ((readingsWithin depth goal cs).andThen fun e rest => readingsWithin depth (next e) rest) =
      (readings goal cs).andThen fun e rest => readings (next e) rest := by
  rw [readingsWithin_eq_readings h]
  refine Trace.andThen_congr fun e rest he => readingsWithin_eq_readings ?_
  have hlen := readings_length_lt he
  simp only [htakes, hnext, Goal.need] at *
  omega

/-! ## The equations -/

theorem readings_disjunction (cs : List Char) :
    readings .disjunction cs = (readings .conjunction cs).andThen fun left rest =>
      readings (.disjunctionAfter left) rest := by
  rw [readings_eq_succ, readingsWithin]
  exact andThen_readings .disjunctionAfter rfl (fun _ => rfl) (Goal.need_le _ (Nat.le_refl _))

theorem readings_conjunction (cs : List Char) :
    readings .conjunction cs = (readings .unary cs).andThen fun left rest =>
      readings (.conjunctionAfter left) rest := by
  rw [readings_eq_succ, readingsWithin]
  exact andThen_readings .conjunctionAfter rfl (fun _ => rfl) (Goal.need_le _ (Nat.le_refl _))

/-- Where no `or` follows, a disjunction is finished. -/
theorem readings_disjunctionAfter_end {cs : List Char} (left : Expr)
    (h : Keyword.or.accept cs = none) :
    readings (.disjunctionAfter left) cs = [.found left cs] := by
  rw [readings_eq_succ, readingsWithin, h]

theorem readings_disjunctionAfter_or {cs cs' : List Char} (left : Expr)
    (h : Keyword.or.accept cs = some cs') :
    readings (.disjunctionAfter left) cs = (readings .conjunction cs').andThen fun right rest =>
      readings (.disjunctionAfter (.or left right)) rest := by
  have hlen := (Keyword.accept_eq_some_iff.mp h).length_lt
  rw [readings_eq_succ, readingsWithin, h]
  exact andThen_readings (fun right => .disjunctionAfter (.or left right)) rfl (fun _ => rfl)
    (Goal.need_le _ (Nat.le_of_lt hlen))

/-- Where no `and` follows, a conjunction is finished. -/
theorem readings_conjunctionAfter_end {cs : List Char} (left : Expr)
    (h : Keyword.and.accept cs = none) :
    readings (.conjunctionAfter left) cs = [.found left cs] := by
  rw [readings_eq_succ, readingsWithin, h]

theorem readings_conjunctionAfter_and {cs cs' : List Char} (left : Expr)
    (h : Keyword.and.accept cs = some cs') :
    readings (.conjunctionAfter left) cs = (readings .unary cs').andThen fun right rest =>
      readings (.conjunctionAfter (.and left right)) rest := by
  have hlen := (Keyword.accept_eq_some_iff.mp h).length_lt
  rw [readings_eq_succ, readingsWithin, h]
  exact andThen_readings (fun right => .conjunctionAfter (.and left right)) rfl (fun _ => rfl)
    (Goal.need_le _ (Nat.le_of_lt hlen))

theorem readings_unary_atom {cs : List Char} (h : Keyword.not.accept cs = none) :
    readings .unary cs = readings .atom cs := by
  rw [readings_eq_succ, readingsWithin, h]
  exact readingsWithin_eq_readings (Goal.need_le _ (Nat.le_refl _))

theorem readings_unary_not {cs cs' : List Char} (h : Keyword.not.accept cs = some cs') :
    readings .unary cs = (readings .unary cs').andThen fun operand rest =>
      [.found (.not operand) rest] := by
  have hlen := (Keyword.accept_eq_some_iff.mp h).length_lt
  rw [readings_eq_succ, readingsWithin, h,
    ← readingsWithin_eq_readings (Goal.need_le .unary (Nat.le_of_lt hlen))]

theorem readings_atom_allow {cs rest : List Char} (h : skipBlanks cs = '@' :: rest) :
    readings .atom cs = [.found (.const true) (skipBlanks rest)] := by
  rw [readings_eq_succ, readingsWithin, h]
  rfl

theorem readings_atom_deny {cs rest : List Char} (h : skipBlanks cs = '!' :: rest) :
    readings .atom cs = [.found (.const false) (skipBlanks rest)] := by
  rw [readings_eq_succ, readingsWithin, h]
  rfl

theorem readingsWithin_atom_check (depth : Nat) {cs : List Char} (hne : skipBlanks cs ≠ [])
    (hopen : ∀ c, (skipBlanks cs).head? = some c → opensAtom c = false) :
    readingsWithin (depth + 1) .atom cs = (checkReadings (skipBlanks cs)).andThen fun e rest =>
      [.found e (skipBlanks rest)] := by
  rw [readingsWithin]
  split
  next heq => exact absurd heq hne
  next heq => exact absurd (hopen '@' (by rw [heq]; rfl)) (by decide)
  next heq => exact absurd (hopen '!' (by rw [heq]; rfl)) (by decide)
  next heq => exact absurd (hopen '(' (by rw [heq]; rfl)) (by decide)
  next => rfl

theorem readings_atom_check {cs : List Char} (hne : skipBlanks cs ≠ [])
    (hopen : ∀ c, (skipBlanks cs).head? = some c → opensAtom c = false) :
    readings .atom cs = (checkReadings (skipBlanks cs)).andThen fun e rest =>
      [.found e (skipBlanks rest)] := by
  rw [readings_eq_succ]
  exact readingsWithin_atom_check _ hne hopen

/-- What comes of a reading inside a group: the group is closed behind it, or it fails. -/
def closeGroup (e : Expr) (rest : List Char) : Trace :=
  match skipBlanks rest with
  | ')' :: rest => [.found e (skipBlanks rest)]
  | rest => Trace.failure rest .closingParenthesis

theorem readings_atom_group {cs inner : List Char} (h : skipBlanks cs = '(' :: inner) :
    readings .atom cs = (readings .disjunction inner).andThen closeGroup := by
  have hlen := length_skipBlanks_le cs
  rw [h, List.length_cons] at hlen
  rw [readings_eq_succ, readingsWithin, h,
    ← readingsWithin_eq_readings (Goal.need_le .disjunction (Nat.le_of_succ_le hlen))]
  rfl

end AccessPolicy
