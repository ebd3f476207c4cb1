import AccessPolicy.Expr.Reading
import AccessPolicy.Proofs.Grammar

/-!
# Reading a check

What the search finds at a check, in the terms of the grammar. `leftSide` takes the one left side
that stands in front of a colon, and `rightSides` lists every way to share the closing parentheses
at the end of a run. Together: `mem_found_checkReadings`, the search finds exactly the checks that
the grammar allows.
-/

namespace AccessPolicy

namespace Trace

@[simp] theorem mem_found {t : Trace} {e : Expr} {rest : List Char} :
    (e, rest) ∈ t.found ↔ Step.found e rest ∈ t := by
  rw [found, List.mem_filterMap]
  constructor
  · rintro ⟨s, hs, heq⟩
    cases s with
    | found e' rest' =>
      obtain ⟨rfl, rfl⟩ := Prod.mk.inj (Option.some.inj heq)
      exact hs
    | failed f => simp at heq
  · intro h
    exact ⟨_, h, rfl⟩

@[simp] theorem found_nil : found [] = [] := rfl

@[simp] theorem found_failed (f : Failure) : found [.failed f] = [] := rfl

@[simp] theorem found_failure (rest : List Char) (expected : Expectation) :
    found (failure rest expected) = [] := rfl

@[simp] theorem found_found (e : Expr) (rest : List Char) :
    found [.found e rest] = [(e, rest)] := rfl

/-- Going on from every expression found finds what goes on from each, in order. -/
theorem found_andThen (t : Trace) (next : Expr → List Char → Trace) :
    (t.andThen next).found = t.found.flatMap fun p => (next p.1 p.2).found := by
  induction t with
  | nil => rfl
  | cons s t ih =>
    rw [andThen, List.flatMap_cons, found, List.filterMap_append]
    change found _ ++ found (andThen t next) = _
    rw [ih]
    cases s <;> rfl

end Trace

/-! ## Left sides -/

/-- A left side that is read stands at the head of the text, as it may be written. -/
theorem leftSide_sound {cs rest : List Char} {lhs : LeftSide} (h : leftSide cs = .ok (lhs, rest)) :
    ∃ written, lhs.Written written ∧ cs = written ++ rest := by
  cases cs with
  | nil => simp [leftSide] at h
  | cons c cs =>
    rw [leftSide] at h
    have hsplit := fun l : List Char => @List.takeWhile_append_dropWhile _ isLeftSideChar l
    have hall := fun l : List Char => List.all_eq_true.mp (@List.all_takeWhile _ isLeftSideChar l)
    by_cases hq : isQuote c = true
    · simp only [hq, if_true] at h
      split at h
      next => simp at h
      next hne =>
        -- between the quotes there is a value; the quote behind it must be the one in front
        split at h
        next hclose =>
          obtain ⟨rfl, rfl⟩ := Prod.mk.inj (Except.ok.inj h)
          obtain ⟨tail, htail⟩ : ∃ tail, cs.dropWhile isLeftSideChar = c :: tail :=
            List.head?_eq_some_iff.mp hclose
          refine ⟨_, .quoted hq hne (hall cs), ?_⟩
          rw [htail, List.tail_cons, List.cons_append, List.append_assoc, List.singleton_append,
            ← htail, hsplit]
        next => simp at h
    · simp only [hq, Bool.false_eq_true, if_false] at h
      split at h
      next => simp at h
      next hne =>
        obtain ⟨rfl, rfl⟩ := Prod.mk.inj (Except.ok.inj h)
        exact ⟨_, .bare hne (hall _), (hsplit _).symm⟩

/-- The characters of a left side end in front of the first that is none of them. -/
theorem span_leftSideChars {name : List Char} (h : ∀ c ∈ name, isLeftSideChar c = true) {c : Char}
    (hc : isLeftSideChar c = false) (rest : List Char) :
    (name ++ c :: rest).takeWhile isLeftSideChar = name ∧
      (name ++ c :: rest).dropWhile isLeftSideChar = c :: rest := by
  rw [List.takeWhile_append_of_pos h, List.dropWhile_append_of_pos h]
  simp [hc]

/-- A left side in front of a colon is read, however it is written. -/
theorem leftSide_written {lhs : LeftSide} {written : List Char} (h : lhs.Written written)
    (rest : List Char) : leftSide (written ++ ':' :: rest) = .ok (lhs, ':' :: rest) := by
  cases h with
  | bare hne hchars =>
    have hcolon : isLeftSideChar ':' = false := rfl
    obtain ⟨htake, hdrop⟩ := span_leftSideChars hchars hcolon rest
    obtain ⟨c, name, rfl⟩ := List.exists_cons_of_ne_nil hne
    have hq : isQuote c = false := by
      have hc := hchars c (List.mem_cons_self ..)
      simp only [isLeftSideChar, Bool.not_eq_true', Bool.or_eq_false_iff] at hc
      exact hc.1.1.2
    rw [List.cons_append, leftSide, ← List.cons_append, htake, hdrop]
    simp [hq]
  | @quoted quote value hquote hne hchars =>
    have hq : isLeftSideChar quote = false := by simp [isLeftSideChar, hquote]
    obtain ⟨htake, hdrop⟩ := span_leftSideChars hchars hq (':' :: rest)
    rw [List.cons_append, leftSide, List.append_assoc, List.singleton_append, htake, hdrop]
    simp [hquote, hne]

/-- A written left side is not empty. -/
theorem LeftSide.Written.ne_nil {lhs : LeftSide} {written : List Char} (h : lhs.Written written) :
    written ≠ [] := by
  cases h with
  | bare hne _ => exact hne
  | quoted => simp

/-! ## Right sides -/

/-- A run that ends in a closing parenthesis, split in front of it. -/
theorem closers_succ (n : Nat) : closers (n + 1) = closers n ++ [')'] := List.replicate_succ'

theorem closers_add (n m : Nat) : closers (n + m) = closers n ++ closers m :=
  List.replicate_append_replicate.symm

/-- Every way to leave closing parentheses at the end of a run to the text after it. -/
theorem mem_rightSides {reversed rest rhs rest' : List Char} (hne : reversed ≠ []) :
    (rhs, rest') ∈ rightSides reversed rest ↔
      rhs ≠ [] ∧ ∃ n, reversed.reverse = rhs ++ closers n ∧ rest' = closers n ++ rest := by
  fun_induction rightSides reversed rest with
  | case1 c more rest ih =>
    rw [List.mem_cons, ih (by simp)]
    constructor
    · rintro (heq | ⟨hrhs, n, hrun, hrest⟩)
      · obtain ⟨rfl, rfl⟩ := Prod.mk.inj heq
        exact ⟨by simp, 0, by simp, rfl⟩
      · refine ⟨hrhs, n + 1, ?_, ?_⟩
        · rw [List.reverse_cons, hrun, closers_succ, List.append_assoc]
        · rw [hrest, closers_succ, List.append_assoc, List.singleton_append]
    · rintro ⟨hrhs, n, hrun, hrest⟩
      cases n with
      | zero =>
        rw [show closers 0 = [] from rfl, List.append_nil] at hrun
        exact Or.inl (Prod.ext hrun.symm hrest)
      | succ n =>
        refine Or.inr ⟨hrhs, n, ?_, ?_⟩
        · rw [List.reverse_cons, closers_succ, ← List.append_assoc] at hrun
          exact List.append_cancel_right hrun
        · rw [hrest, closers_succ, List.append_assoc, List.singleton_append]
  | case2 reversed rest hlast =>
    rw [List.mem_singleton]
    constructor
    · intro heq
      obtain ⟨rfl, rfl⟩ := Prod.mk.inj heq
      exact ⟨by simpa using hne, 0, by simp, rfl⟩
    · rintro ⟨hrhs, n, hrun, hrest⟩
      cases n with
      | zero =>
        rw [show closers 0 = [] from rfl, List.append_nil] at hrun
        exact Prod.ext hrun.symm hrest
      | succ n =>
        -- a closing parenthesis with something in front of it would have been given back
        exfalso
        have hrev := congrArg List.reverse hrun
        rw [List.reverse_reverse, List.reverse_append, closers, List.reverse_replicate,
          List.replicate_succ, List.cons_append] at hrev
        obtain ⟨c, more, htail⟩ := List.exists_cons_of_ne_nil
          (show List.replicate n ')' ++ rhs.reverse ≠ [] by simp [hrhs])
        exact hlast c more (by rw [hrev, htail])

/-- The right sides are listed from the longest to the shortest. -/
theorem rightSides_pairwise (reversed rest : List Char) :
    (rightSides reversed rest).Pairwise fun p q => ∃ n, p.1 = q.1 ++ closers (n + 1) := by
  fun_induction rightSides reversed rest with
  | case1 c more rest ih =>
    refine List.pairwise_cons.mpr ⟨?_, ih⟩
    rintro ⟨rhs, rest'⟩ hmem
    obtain ⟨-, n, hrun, -⟩ := (mem_rightSides (by simp)).mp hmem
    exact ⟨n, by rw [List.reverse_cons, hrun, closers_succ, List.append_assoc]⟩
  | case2 => exact List.pairwise_singleton ..

/-! ## Checks -/

theorem endsRun_dropWhile (cs : List Char) : EndsRun (cs.dropWhile fun c => !isBlank c) := by
  intro c hc
  have := List.head?_dropWhile_not (fun c => !isBlank c) cs
  rw [hc] at this
  simpa using this

theorem EndsRun.dropWhile_eq {cs : List Char} (h : EndsRun cs) :
    cs.takeWhile (fun c => !isBlank c) = [] ∧ cs.dropWhile (fun c => !isBlank c) = cs := by
  cases cs with
  | nil => exact ⟨rfl, rfl⟩
  | cons c cs => simp [h c rfl]

/-- A right side and the closing parentheses behind it are one run. -/
theorem span_run {rhs after : List Char} {n : Nat} (hrun : ∀ c ∈ rhs, isBlank c = false)
    (hafter : EndsRun after) :
    (rhs ++ (closers n ++ after)).takeWhile (fun c => !isBlank c) = rhs ++ closers n ∧
      (rhs ++ (closers n ++ after)).dropWhile (fun c => !isBlank c) = after := by
  have hall : ∀ c ∈ rhs ++ closers n, (!isBlank c) = true := by
    intro c hc
    rcases List.mem_append.mp hc with hc | hc
    · simp [hrun c hc]
    · rw [(List.mem_replicate.mp hc).2]
      rfl
  rw [← List.append_assoc, List.takeWhile_append_of_pos hall, List.dropWhile_append_of_pos hall,
    hafter.dropWhile_eq.1, hafter.dropWhile_eq.2, List.append_nil]
  exact ⟨rfl, rfl⟩

theorem mem_found_rightSideReadings {lhs : LeftSide} {cs rest : List Char} {e : Expr} :
    (e, rest) ∈ (rightSideReadings lhs cs).found ↔
      ∃ rhs given after, e = .check lhs (String.ofList rhs) ∧ rhs ≠ [] ∧
        (∀ c ∈ rhs, isBlank c = false) ∧ EndsRun after ∧
        cs = rhs ++ (closers given ++ after) ∧ rest = closers given ++ after := by
  rw [Trace.mem_found, rightSideReadings]
  have hsplit := @List.takeWhile_append_dropWhile _ (fun c => !isBlank c) cs
  have hall : ∀ c ∈ cs.takeWhile (fun c => !isBlank c), isBlank c = false := fun c hc => by
    simpa using List.all_eq_true.mp (List.all_takeWhile (l := cs)) c hc
  constructor
  · intro h
    split at h
    next => simp [Trace.failure] at h
    next hne =>
      obtain ⟨⟨rhs, rest'⟩, hmem, heq⟩ := List.mem_map.mp h
      obtain ⟨rfl, rfl⟩ := Step.found.inj heq
      obtain ⟨hrhs, n, hrun, hrest⟩ := (mem_rightSides (by simpa using hne)).mp hmem
      rw [List.reverse_reverse] at hrun
      refine ⟨rhs, n, _, rfl, hrhs, fun c hc => hall c ?_, endsRun_dropWhile cs, ?_, hrest⟩
      · rw [hrun]
        exact List.mem_append_left _ hc
      · rw [← List.append_assoc, ← hrun, hsplit]
  · rintro ⟨rhs, n, after, rfl, hrhs, hrun, hafter, rfl, rfl⟩
    rw [(span_run hrun hafter).1, (span_run hrun hafter).2, if_neg (by simp [hrhs])]
    refine List.mem_map.mpr ⟨(rhs, closers n ++ after), ?_, rfl⟩
    exact (mem_rightSides (by simp [hrhs])).mpr ⟨hrhs, n, List.reverse_reverse _, rfl⟩

/-- **Checks.** The search finds exactly the checks that the grammar allows. -/
theorem mem_found_checkReadings {cs rest : List Char} {e : Expr} :
    (e, rest) ∈ (checkReadings cs).found ↔
      ∃ lhs rhs, e = .check lhs (String.ofList rhs) ∧ ReadsCheck cs lhs rhs rest := by
  constructor
  · intro h
    rw [checkReadings] at h
    split at h
    next => simp at h
    next lhs cs' hleft =>
      obtain ⟨written, hwritten, rfl⟩ := leftSide_sound hleft
      obtain ⟨rhs, n, after, rfl, hne, hrun, hafter, rfl, rfl⟩ := mem_found_rightSideReadings.mp h
      exact ⟨lhs, rhs, rfl, .intro hwritten hne hrun hafter⟩
    next => simp at h
  · rintro ⟨lhs, rhs, rfl, h⟩
    cases h with
    | intro hlhs hne hrun hafter =>
      rw [checkReadings, leftSide_written hlhs]
      exact mem_found_rightSideReadings.mpr ⟨rhs, _, _, rfl, hne, hrun, hafter, rfl, rfl⟩

/-- A right side keeps at least a character. -/
theorem ReadsCheck.ne_nil {cs rhs rest : List Char} {lhs : LeftSide}
    (h : ReadsCheck cs lhs rhs rest) : rhs ≠ [] := by
  cases h
  assumption

/-- A check takes at least a character of the text. -/
theorem ReadsCheck.length_lt {cs rhs rest : List Char} {lhs : LeftSide}
    (h : ReadsCheck cs lhs rhs rest) : rest.length < cs.length := by
  cases h
  simp only [List.length_append, List.length_cons]
  omega

end AccessPolicy
