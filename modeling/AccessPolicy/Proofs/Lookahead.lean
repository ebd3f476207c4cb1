import AccessPolicy.Proofs.Failures
import AccessPolicy.Proofs.Grouping
import AccessPolicy.Proofs.Words
import Mathlib.Data.List.Infix

/-!
# How far the search looks

The search never looks more than four characters beyond the place where it is: a keyword and the
character behind it. Main statement: `readings_settled`, where everything that happens when a text is
read leaves its end `behind`, and four characters in front of that, untouched, the same happens
whatever stands there instead of `behind`.

A reader is `Settled` by a text if it does the same with every text that begins with it. Readers that
are settled one after the other are settled together (`settled_chain`). For this the first of them must
not look too far in any of its readings, and it does not, since something happens behind each
(`readings_ne_nil`), and whatever happens is further on (`length_left_le`).
-/

namespace AccessPolicy

variable {before behind cs rest : List Char} {n : Nat}

/-! ## What is left over -/

/-- The text that is left where an event happens. -/
def Step.left : Step → List Char
  | .found _ rest => skipBlanks rest
  | .failed f => f.rest

theorem Scans.length_skipBlanks_le {p q : Place} {ss : List Symbol} (h : Scans p cs ss q rest) :
    (skipBlanks rest).length ≤ (skipBlanks cs).length := by
  cases h with
  | nil => exact Nat.le_refl _
  | cons hlex hs =>
    have hlt := hlex.length_lt
    have hle := hs.suffix.length_le
    have hskip := AccessPolicy.length_skipBlanks_le rest
    omega

theorem Step.ReachedFrom.length_left_le {s : Step} {p : Place} (h : s.ReachedFrom p cs) :
    s.left.length ≤ (skipBlanks cs).length := by
  cases s with
  | found e rest =>
    obtain ⟨ss, mid, hscan, hskip⟩ := h
    rw [left, ← hskip]
    exact hscan.length_skipBlanks_le
  | failed f =>
    obtain ⟨ss, q, mid, hscan, hstops⟩ := h
    exact Nat.le_trans hstops.suffix.length_le hscan.length_skipBlanks_le

/-- Whatever happens when a goal is read, no more is left than there was. -/
theorem length_left_le {goal : Goal} (hatom : goal = .atom → ∀ rest, ¬ Keyword.not.At cs rest)
    {s : Step} (hs : s ∈ readings goal cs) : s.left.length ≤ (skipBlanks cs).length :=
  (readings_nested goal cs 0 hatom s hs).reached.length_left_le

/-- The failure with more text at the end of what is left over. -/
def Failure.extended (more : List Char) (f : Failure) : Failure := { f with rest := f.rest ++ more }

/-- The event with more text at the end of what is left over. -/
def Step.extended (more : List Char) : Step → Step
  | .found e rest => .found e (rest ++ more)
  | .failed f => .failed (f.extended more)

/-- The events with more text at the end of what is left over. -/
def Trace.extended (more : List Char) (t : Trace) : Trace := t.map (Step.extended more)

/-- Whatever stands behind this text, the same happens when it is read. -/
def Settled (read : List Char → Trace) (cs : List Char) : Prop :=
  ∀ more, read (cs ++ more) = (read cs).extended more

/-- Whatever happens leaves at least so many characters of the text. -/
def Trace.Leaves (n : Nat) (t : Trace) : Prop := ∀ s ∈ t, n ≤ s.left.length

theorem Trace.mem_found_extended {t : Trace} {e : Expr} (more : List Char) (h : (e, rest) ∈ t.found) :
    (e, rest ++ more) ∈ (t.extended more).found := by
  rw [mem_found] at h ⊢
  exact List.mem_map.mpr ⟨_, h, rfl⟩

theorem Trace.failures_extended (more : List Char) (t : Trace) :
    (t.extended more).failures = t.failures.map (Failure.extended more) := by
  unfold extended failures
  rw [List.filterMap_map, List.map_filterMap]
  refine congrArg (List.filterMap · t) (funext fun s => ?_)
  cases s <;> rfl

/-! ## One reader after the other -/

/-- What may come behind a reading: something happens, and it is no further back. -/
def Advances (next : Expr → List Char → Trace) (e : Expr) (rest : List Char) : Prop :=
  next e rest ≠ [] ∧ ∀ s ∈ next e rest, s.left.length ≤ (skipBlanks rest).length

theorem Trace.Leaves.of_andThen {t : Trace} {next : Expr → List Char → Trace}
    (h : (t.andThen next).Leaves n)
    (hnext : ∀ e rest, (e, rest) ∈ t.found → Advances next e rest) :
    t.Leaves n ∧ ∀ e rest, (e, rest) ∈ t.found → (next e rest).Leaves n := by
  have hbehind : ∀ e rest, (e, rest) ∈ t.found → (next e rest).Leaves n := fun e rest hfound s hs =>
    h s (List.mem_flatMap.mpr ⟨_, mem_found.mp hfound, hs⟩)
  refine ⟨fun s hs => ?_, hbehind⟩
  cases s with
  | found e rest =>
    have hfound := mem_found.mpr hs
    obtain ⟨hne, hle⟩ := hnext e rest hfound
    obtain ⟨s, hs⟩ := List.exists_mem_of_ne_nil _ hne
    exact Nat.le_trans (hbehind e rest hfound s hs) (hle s hs)
  | failed f => exact h _ (List.mem_flatMap.mpr ⟨_, hs, List.mem_singleton.mpr rfl⟩)

theorem Settled.andThen {read : List Char → Trace} {next : Expr → List Char → Trace}
    (h : Settled read cs) (hnext : ∀ e rest, (e, rest) ∈ (read cs).found → Settled (next e) rest) :
    Settled (fun cs => (read cs).andThen next) cs := by
  intro more
  change (read (cs ++ more)).andThen next = ((read cs).andThen next).extended more
  rw [h more]
  unfold Trace.andThen Trace.extended
  rw [List.flatMap_map, List.map_flatMap, List.flatMap, List.flatMap]
  refine congrArg List.flatten (List.map_congr_left fun s hs => ?_)
  cases s with
  | found e rest => exact hnext e rest (Trace.mem_found.mpr hs) more
  | failed f => rfl

/-- **One reader after the other.** If everything that happens stays in front of what both of them
look at, the text settles them together as soon as it settles each. -/
theorem settled_chain {read : List Char → Trace} {next : Expr → List Char → Trace}
    (hread : (read (before ++ behind)).Leaves n → Settled read before)
    (hnext : ∀ e rest, (e, rest ++ behind) ∈ (read (before ++ behind)).found →
      (next e (rest ++ behind)).Leaves n → Settled (next e) rest)
    (hadvances : ∀ e rest, (e, rest) ∈ (read (before ++ behind)).found → Advances next e rest)
    (h : ((read (before ++ behind)).andThen next).Leaves n) :
    Settled (fun cs => (read cs).andThen next) before := by
  obtain ⟨hfirst, hrest⟩ := h.of_andThen hadvances
  have hsettled := hread hfirst
  refine hsettled.andThen fun e rest hfound => ?_
  have hmem : (e, rest ++ behind) ∈ (read (before ++ behind)).found := by
    rw [hsettled behind]
    exact Trace.mem_found_extended behind hfound
  exact hnext e rest hmem (hrest e _ hmem)

/-- What settles a reader settles another one that does the same with what is left of the text. -/
theorem Settled.congr {read read' : List Char → Trace} (h : Settled read' rest)
    (heq : ∀ more, read (cs ++ more) = read' (rest ++ more)) : Settled read cs := by
  intro more
  have hnil := heq []
  rw [List.append_nil, List.append_nil] at hnil
  rw [heq, hnil]
  exact h more

/-! ## Blanks and keywords -/

theorem skipBlanks_ne_nil_of_lt (h : behind.length < (skipBlanks (before ++ behind)).length) :
    skipBlanks before ≠ [] := by
  intro hnil
  rw [skipBlanks_append (blanks_iff.mpr hnil)] at h
  exact absurd (length_skipBlanks_le behind) (Nat.not_le.mpr h)

/-- A text that begins with more characters than a word has them all, or something else. -/
theorem afterWord?_append {word : List Char} (h : word.length < cs.length) (more : List Char) :
    afterWord? word (cs ++ more) = (afterWord? word cs).map (· ++ more) := by
  ext rest
  simp only [afterWord?_eq_some_iff, Option.map_eq_some_iff]
  constructor
  · intro heq
    rcases List.append_eq_append_iff.mp heq with ⟨tail, rfl, -⟩ | ⟨tail, rfl, rfl⟩
    · rw [List.length_append] at h
      omega
    · exact ⟨tail, rfl, rfl⟩
  · rintro ⟨rest, rfl, rfl⟩
    exact List.append_assoc _ _ _

theorem Keyword.length_chars_lt (k : Keyword) : k.chars.length < 4 := by
  cases k <;> decide

/-- Whether a keyword stands somewhere is told by four characters. -/
theorem Keyword.accept_append (k : Keyword)
    (h : behind.length + 4 ≤ (skipBlanks (before ++ behind)).length) (more : List Char) :
    k.accept (before ++ more) = (k.accept before).map (· ++ more) := by
  have hne : skipBlanks before ≠ [] := skipBlanks_ne_nil_of_lt (by omega : behind.length < _)
  have hword : k.chars.length < (skipBlanks before).length := by
    rw [skipBlanks_append_of_ne_nil hne, List.length_append] at h
    have hchars := k.length_chars_lt
    omega
  unfold accept
  rw [skipBlanks_append_of_ne_nil hne, afterWord?_append hword]
  cases hafter : afterWord? k.chars (skipBlanks before) with
  | none => rfl
  | some rest =>
    -- the text goes on behind the word, so nothing else can stand there
    obtain ⟨c, rest, rfl⟩ : ∃ c more, rest = c :: more := by
      refine List.exists_cons_of_ne_nil ?_
      rintro rfl
      rw [afterWord?_eq_some_iff.mp hafter, List.append_nil] at hword
      exact Nat.lt_irrefl _ hword
    have hends : endsBefore (c :: rest ++ more) = endsBefore (c :: rest) := rfl
    rw [Option.map_some, Option.filter_some, Option.filter_some, hends]
    split <;> rfl

/-- A keyword that does not stand there does not, whatever the text ends with. -/
theorem Keyword.accept_append_none {k : Keyword}
    (h : behind.length + 4 ≤ (skipBlanks (before ++ behind)).length)
    (hnone : k.accept (before ++ behind) = none) :
    k.accept before = none ∧ ∀ more, k.accept (before ++ more) = none := by
  rw [k.accept_append h, Option.map_eq_none_iff] at hnone
  refine ⟨hnone, fun more => ?_⟩
  rw [k.accept_append h, hnone, Option.map_none]

theorem Keyword.accept_append_some {k : Keyword}
    (h : behind.length + 4 ≤ (skipBlanks (before ++ behind)).length)
    (hsome : k.accept (before ++ behind) = some cs) :
    ∃ rest, cs = rest ++ behind ∧ ∀ more, k.accept (before ++ more) = some (rest ++ more) := by
  rw [k.accept_append h] at hsome
  obtain ⟨rest, hrest, rfl⟩ := Option.map_eq_some_iff.mp hsome
  refine ⟨rest, rfl, fun more => ?_⟩
  rw [k.accept_append h, hrest, Option.map_some]

theorem skipBlanks_append_cons_of_lt {c : Char}
    (h : behind.length < (skipBlanks (before ++ behind)).length)
    (hcons : skipBlanks (before ++ behind) = c :: cs) :
    ∃ rest, cs = rest ++ behind ∧ ∀ more, skipBlanks (before ++ more) = c :: (rest ++ more) := by
  have hne := skipBlanks_ne_nil_of_lt h
  obtain ⟨d, rest, hrest⟩ := List.exists_cons_of_ne_nil hne
  rw [skipBlanks_append_of_ne_nil hne, hrest, List.cons_append] at hcons
  obtain ⟨rfl, rfl⟩ := List.cons.inj hcons
  refine ⟨rest, rfl, fun more => ?_⟩
  rw [skipBlanks_append_of_ne_nil hne, hrest, List.cons_append]

theorem settled_skipBlanks (e : Expr)
    (h : Trace.Leaves (behind.length + 4) [.found e (skipBlanks (cs ++ behind))]) :
    Settled (fun cs => [.found e (skipBlanks cs)]) cs := by
  have hlen := h _ (List.mem_singleton.mpr rfl)
  rw [Step.left, skipBlanks_skipBlanks] at hlen
  intro more
  show [Step.found e (skipBlanks (cs ++ more))] = [.found e (skipBlanks cs ++ more)]
  rw [skipBlanks_append_of_ne_nil (skipBlanks_ne_nil_of_lt (by omega : behind.length < _))]

theorem settled_closeGroup (e : Expr) (h : (closeGroup e (cs ++ behind)).Leaves (behind.length + 4)) :
    Settled (closeGroup e) cs := by
  have hlen : behind.length < (skipBlanks (cs ++ behind)).length := by
    obtain ⟨s, hs⟩ := List.exists_mem_of_ne_nil _ (closeGroup_ne_nil e (cs ++ behind))
    have hle := (closeGroup_nested (n := 0) e _ s hs).reached.length_left_le
    have hleaves := h s hs
    omega
  have hne := skipBlanks_ne_nil_of_lt hlen
  have hhead : ∀ more, (skipBlanks (cs ++ more)).head? = (skipBlanks cs).head? := fun more => by
    rw [skipBlanks_append_of_ne_nil hne, List.head?_append_of_ne_nil _ hne]
  by_cases hclosing : (skipBlanks cs).head? = some ')'
  · obtain ⟨rest, hrest⟩ := List.head?_eq_some_iff.mp hclosing
    have hskip : ∀ more, skipBlanks (cs ++ more) = ')' :: (rest ++ more) := fun more => by
      rw [skipBlanks_append_of_ne_nil hne, hrest, List.cons_append]
    rw [closeGroup_closing e (hskip behind)] at h
    intro more
    rw [closeGroup_closing e (hskip more), closeGroup_closing e hrest]
    exact settled_skipBlanks e h more
  · intro more
    rw [closeGroup_no_closing e (by rwa [hhead more]), closeGroup_no_closing e hclosing,
      skipBlanks_append_of_ne_nil hne]
    rfl

/-! ## Checks -/

/-- A run that ends inside of a text does not look behind it. -/
theorem span_append {p : Char → Bool} (h : cs.dropWhile p ≠ []) (more : List Char) :
    (cs ++ more).takeWhile p = cs.takeWhile p ∧
      (cs ++ more).dropWhile p = cs.dropWhile p ++ more := by
  have htake : (cs.takeWhile p).length ≠ cs.length := by
    intro hlen
    have hsplit := congrArg List.length (@List.takeWhile_append_dropWhile _ p cs)
    rw [List.length_append, hlen] at hsplit
    exact h (List.length_eq_zero_iff.mp (by omega))
  rw [List.takeWhile_append, if_neg htake, List.dropWhile_append, if_neg (by simpa using h)]
  exact ⟨rfl, rfl⟩

theorem dropWhile_ne_nil_of_lt {p : Char → Bool}
    (h : behind.length < ((cs ++ behind).dropWhile p).length) : cs.dropWhile p ≠ [] := by
  intro hnil
  rw [List.dropWhile_append, if_pos (by simpa using hnil)] at h
  exact absurd (List.dropWhile_suffix p).length_le (Nat.not_le.mpr h)

/-- What a left side leaves over, also where it fails. -/
def leftSideRest (cs : List Char) : List Char :=
  match leftSide cs with
  | .error f => f.rest
  | .ok (_, rest) => rest

/-- Where the run of characters begins that a left side is made of. -/
def leftSideRun : List Char → List Char
  | [] => []
  | c :: cs => if isQuote c then cs else c :: cs

theorem leftSideRun_quoted {c : Char} (h : isQuote c = true) (cs : List Char) :
    leftSideRun (c :: cs) = cs := if_pos h

theorem leftSideRun_bare {c : Char} (h : ¬ isQuote c = true) (cs : List Char) :
    leftSideRun (c :: cs) = c :: cs := if_neg h

theorem length_leftSideRun_le (cs : List Char) : (leftSideRun cs).length ≤ cs.length := by
  cases cs with
  | nil => exact Nat.le_refl _
  | cons c cs =>
    by_cases h : isQuote c = true
    · rw [leftSideRun_quoted h]
      exact Nat.le_succ _
    · rw [leftSideRun_bare h]

theorem leftSideRest_suffix (cs : List Char) :
    leftSideRest cs <:+ (leftSideRun cs).dropWhile isLeftSideChar := by
  have hnone : ∀ ds : List Char, ds.takeWhile isLeftSideChar = [] →
      ds.dropWhile isLeftSideChar = ds := by
    intro ds hds
    have hsplit := @List.takeWhile_append_dropWhile _ isLeftSideChar ds
    rwa [hds, List.nil_append] at hsplit
  cases cs with
  | nil => exact List.suffix_refl _
  | cons c cs =>
    unfold leftSideRest leftSide
    dsimp only
    by_cases hq : isQuote c = true
    · rw [if_pos hq, leftSideRun_quoted hq]
      by_cases hvalue : cs.takeWhile isLeftSideChar = []
      · rw [if_pos hvalue, hnone cs hvalue]
      · rw [if_neg hvalue]
        by_cases hclose : (cs.dropWhile isLeftSideChar).head? = some c
        · rw [if_pos hclose]
          exact List.tail_suffix _
        · rw [if_neg hclose]
    · rw [if_neg hq, leftSideRun_bare hq]
      by_cases hname : (c :: cs).takeWhile isLeftSideChar = []
      · rw [if_pos hname, hnone _ hname]
      · rw [if_neg hname]

/-- A left side that leaves the end of a text untouched is the same whatever stands there. -/
theorem leftSide_append (h : behind.length < (leftSideRest (cs ++ behind)).length)
    (more : List Char) :
    leftSide (cs ++ more) = match leftSide cs with
      | .error f => .error (f.extended more)
      | .ok (lhs, rest) => .ok (lhs, rest ++ more) := by
  have hrun := Nat.lt_of_lt_of_le h (leftSideRest_suffix _).length_le
  cases cs with
  | nil =>
    have hdrop := (List.dropWhile_suffix (l := leftSideRun behind) isLeftSideChar).length_le
    have hle := length_leftSideRun_le behind
    rw [List.nil_append] at hrun
    omega
  | cons c cs =>
    rw [List.cons_append] at hrun ⊢
    by_cases hq : isQuote c = true
    · rw [leftSideRun_quoted hq] at hrun
      have hne := dropWhile_ne_nil_of_lt hrun
      simp only [leftSide, if_pos hq, span_append hne, List.head?_append_of_ne_nil _ hne]
      split
      next => rfl
      next =>
        split
        next => rw [List.tail_append_of_ne_nil hne]
        next => rfl
    · rw [leftSideRun_bare hq, ← List.cons_append] at hrun
      have hne := dropWhile_ne_nil_of_lt hrun
      have hspan := span_append hne more
      rw [List.cons_append] at hspan
      simp only [leftSide, if_neg hq, hspan]
      split
      next => rfl
      next => rfl

theorem rightSides_append (reversed rest more : List Char) :
    rightSides reversed (rest ++ more) =
      (rightSides reversed rest).map fun p => (p.1, p.2 ++ more) := by
  fun_induction rightSides reversed rest with
  | case1 c more' rest ih => rw [rightSides, List.map_cons, ← ih, List.cons_append]
  | case2 reversed rest hlast =>
    rw [rightSides]
    · rfl
    · exact hlast

/-- Something happens behind the run of a right side. -/
theorem exists_left_rightSideReadings (lhs : LeftSide) (cs : List Char) :
    ∃ s ∈ rightSideReadings lhs cs,
      s.left.length ≤ (cs.dropWhile fun c => !isBlank c).length := by
  unfold rightSideReadings
  dsimp only
  split
  next hrun =>
    have hsplit := @List.takeWhile_append_dropWhile _ (fun c => !isBlank c) cs
    rw [hrun, List.nil_append] at hsplit
    refine ⟨_, List.mem_singleton.mpr rfl, ?_⟩
    rw [hsplit]
    exact Nat.le_refl _
  next hrun =>
    refine ⟨_, List.mem_map.mpr ⟨(cs.takeWhile fun c => !isBlank c,
      cs.dropWhile fun c => !isBlank c), ?_, rfl⟩, length_skipBlanks_le _⟩
    exact (mem_rightSides (by simpa using hrun)).mpr ⟨hrun, 0, by simp, rfl⟩

theorem settled_rightSideReadings {lhs : LeftSide} (hn : behind.length < n)
    (h : (rightSideReadings lhs (cs ++ behind)).Leaves n) :
    Settled (rightSideReadings lhs) cs := by
  obtain ⟨s, hs, hle⟩ := exists_left_rightSideReadings lhs (cs ++ behind)
  have hlen := Nat.lt_of_lt_of_le hn (Nat.le_trans (h s hs) hle)
  have hne : (cs.dropWhile fun c => !isBlank c) ≠ [] := dropWhile_ne_nil_of_lt hlen
  intro more
  unfold rightSideReadings
  dsimp only
  rw [(span_append hne more).1, (span_append hne more).2, rightSides_append]
  split
  next => rfl
  next =>
    rw [Trace.extended, List.map_map, List.map_map]
    rfl

/-- Something happens behind a left side. -/
theorem exists_left_checkReadings (cs : List Char) :
    ∃ s ∈ checkReadings cs, s.left.length ≤ (leftSideRest cs).length := by
  unfold leftSideRest
  cases hleft : leftSide cs with
  | error f =>
    rw [checkReadings, hleft]
    exact ⟨_, List.mem_singleton.mpr rfl, Nat.le_refl _⟩
  | ok read =>
    obtain ⟨lhs, rest⟩ := read
    by_cases hcolon : rest.head? = some ':'
    · obtain ⟨behind, rfl⟩ := List.head?_eq_some_iff.mp hcolon
      obtain ⟨s, hs, hle⟩ := exists_left_rightSideReadings lhs behind
      have hdrop := (List.dropWhile_suffix (l := behind) fun c => !isBlank c).length_le
      rw [checkReadings_colon hleft]
      exact ⟨s, hs, Nat.le_trans hle (Nat.le_succ_of_le hdrop)⟩
    · rw [checkReadings_no_colon hleft hcolon]
      exact ⟨_, List.mem_singleton.mpr rfl, Nat.le_refl _⟩

theorem settled_checkReadings (hn : behind.length < n)
    (h : (checkReadings (cs ++ behind)).Leaves n) : Settled checkReadings cs := by
  obtain ⟨s, hs, hle⟩ := exists_left_checkReadings (cs ++ behind)
  have hlen : behind.length < (leftSideRest (cs ++ behind)).length := by
    have hleaves := h s hs
    omega
  have happend := leftSide_append hlen
  intro more
  cases hleft : leftSide cs with
  | error f =>
    have hmore := happend more
    rw [hleft] at hmore
    rw [checkReadings, checkReadings, hmore, hleft]
    rfl
  | ok read =>
    obtain ⟨lhs, rest⟩ := read
    rw [hleft] at happend
    have hne : rest ≠ [] := by
      rintro rfl
      rw [leftSideRest, happend behind] at hlen
      exact absurd hlen (Nat.lt_irrefl _)
    by_cases hcolon : rest.head? = some ':'
    · obtain ⟨rest, rfl⟩ := List.head?_eq_some_iff.mp hcolon
      rw [checkReadings_colon (happend behind)] at h
      rw [checkReadings_colon (happend more), checkReadings_colon hleft]
      exact settled_rightSideReadings hn h more
    · rw [checkReadings_no_colon (happend more), checkReadings_no_colon hleft hcolon]
      · rfl
      · rwa [List.head?_append_of_ne_nil _ hne]

/-! ## Goals -/

theorem Trace.Leaves.le_length {goal : Goal} (h : (readings goal cs).Leaves n)
    (hatom : goal = .atom → ∀ rest, ¬ Keyword.not.At cs rest) : n ≤ (skipBlanks cs).length := by
  obtain ⟨s, hs⟩ := List.exists_mem_of_ne_nil _ (readings_ne_nil goal cs)
  exact Nat.le_trans (h s hs) (length_left_le hatom hs)

theorem Trace.Leaves.lt_length {goal : Goal} (h : (readings goal cs).Leaves (n + 4))
    (hatom : goal = .atom → ∀ rest, ¬ Keyword.not.At cs rest) : n < (skipBlanks cs).length :=
  Nat.lt_of_lt_of_le (Nat.lt_add_of_pos_right (by decide)) (h.le_length hatom)

/-- Where the end of a text is left alone, with four characters in front of it, a goal is settled by
what stands in front of that end. -/
def SettledBefore (behind : List Char) (goal : Goal) (cs : List Char) : Prop :=
  ∀ before, cs = before ++ behind → (goal = .atom → ∀ rest, ¬ Keyword.not.At cs rest) →
    (readings goal cs).Leaves (behind.length + 4) → Settled (readings goal) before

/-- An operand and whatever may follow it. -/
theorem SettledBefore.chain {goal : Goal} {next : Expr → Goal}
    (hfirst : SettledBefore behind goal (before ++ behind))
    (hrest : ∀ e rest, (e, rest) ∈ (readings goal (before ++ behind)).found →
      SettledBefore behind (next e) rest)
    (hgoal : goal ≠ .atom) (hnext : ∀ e, next e ≠ .atom)
    (h : ((readings goal (before ++ behind)).andThen fun e rest =>
      readings (next e) rest).Leaves (behind.length + 4)) :
    Settled (fun cs => (readings goal cs).andThen fun e rest => readings (next e) rest) before := by
  refine settled_chain (hfirst before rfl fun heq => absurd heq hgoal) ?_ ?_ h
  · intro e rest hfound
    exact hrest e _ hfound rest rfl fun heq => absurd heq (hnext e)
  · intro e rest _
    exact ⟨readings_ne_nil _ _, fun s hs => length_left_le (fun heq => absurd heq (hnext e)) hs⟩

/-- A reader and the blanks behind what it finds. -/
theorem settled_thenSkip {read : List Char → Trace}
    (hread : (read (before ++ behind)).Leaves (behind.length + 4) → Settled read before)
    (h : ((read (before ++ behind)).andThen fun e rest =>
      [.found e (skipBlanks rest)]).Leaves (behind.length + 4)) :
    Settled (fun cs => (read cs).andThen fun e rest => [.found e (skipBlanks rest)]) before := by
  refine settled_chain hread (fun e rest _ hleaves => settled_skipBlanks e hleaves) ?_ h
  intro e rest _
  refine ⟨List.cons_ne_nil _ _, fun s hs => ?_⟩
  rw [List.mem_singleton.mp hs, Step.left, skipBlanks_skipBlanks]

/-- **Settled readings.** What leaves the end of a text alone, with four characters in front of it,
happens whatever stands there. -/
theorem readings_settled (goal : Goal) (cs : List Char) : SettledBefore behind goal cs := by
  induction goal, cs using readings_induction with
  | disjunction cs hfirst hrest =>
    rintro before rfl - h
    rw [readings_disjunction] at h
    exact (hfirst.chain hrest nofun (fun _ => nofun) h).congr fun more => readings_disjunction _
  | conjunction cs hfirst hrest =>
    rintro before rfl - h
    rw [readings_conjunction] at h
    exact (hfirst.chain hrest nofun (fun _ => nofun) h).congr fun more => readings_conjunction _
  | disjunctionEnd left cs hor =>
    rintro before rfl hatom h more
    obtain ⟨hbefore, hnone⟩ := Keyword.accept_append_none (h.le_length hatom) hor
    rw [readings_disjunctionAfter_end left (hnone more), readings_disjunctionAfter_end left hbefore]
    rfl
  | conjunctionEnd left cs hand =>
    rintro before rfl hatom h more
    obtain ⟨hbefore, hnone⟩ := Keyword.accept_append_none (h.le_length hatom) hand
    rw [readings_conjunctionAfter_end left (hnone more), readings_conjunctionAfter_end left hbefore]
    rfl
  | or left cs cs' hor hfirst hrest =>
    rintro before rfl hatom h
    obtain ⟨right, rfl, hsome⟩ := Keyword.accept_append_some (h.le_length hatom) hor
    rw [readings_disjunctionAfter_or left hor] at h
    exact (hfirst.chain hrest nofun (fun _ => nofun) h).congr fun more =>
      readings_disjunctionAfter_or left (hsome more)
  | and left cs cs' hand hfirst hrest =>
    rintro before rfl hatom h
    obtain ⟨right, rfl, hsome⟩ := Keyword.accept_append_some (h.le_length hatom) hand
    rw [readings_conjunctionAfter_and left hand] at h
    exact (hfirst.chain hrest nofun (fun _ => nofun) h).congr fun more =>
      readings_conjunctionAfter_and left (hsome more)
  | not cs cs' hnot hoperand =>
    rintro before rfl hatom h
    obtain ⟨operand, rfl, hsome⟩ := Keyword.accept_append_some (h.le_length hatom) hnot
    rw [readings_unary_not hnot] at h
    have hchain : Settled (fun cs => (readings .unary cs).andThen fun e rest =>
        [.found (.not e) rest]) operand := by
      refine settled_chain (hoperand operand rfl nofun) (fun e rest _ _ more => rfl) ?_ h
      intro e rest _
      refine ⟨List.cons_ne_nil _ _, fun s hs => ?_⟩
      rw [List.mem_singleton.mp hs]
      exact Nat.le_refl _
    exact hchain.congr fun more => readings_unary_not (hsome more)
  | atom cs hnot hoperand =>
    rintro before rfl hatom h
    obtain ⟨-, hnone⟩ := Keyword.accept_append_none (h.le_length hatom) hnot
    rw [readings_unary_atom hnot] at h
    have hsettled := hoperand before rfl (fun _ => Keyword.accept_eq_none_iff.mp hnot) h
    exact hsettled.congr fun more => readings_unary_atom (hnone more)
  | ended cs hended =>
    rintro before rfl hatom h
    have hlen := h.le_length hatom
    rw [hended] at hlen
    exact absurd hlen (Nat.not_succ_le_zero _)
  | allow cs rest hskip =>
    rintro before rfl hatom h
    obtain ⟨rest, rfl, hmore⟩ := skipBlanks_append_cons_of_lt (h.lt_length hatom) hskip
    rw [readings_atom_allow hskip] at h
    exact (settled_skipBlanks _ h).congr fun more => readings_atom_allow (hmore more)
  | deny cs rest hskip =>
    rintro before rfl hatom h
    obtain ⟨rest, rfl, hmore⟩ := skipBlanks_append_cons_of_lt (h.lt_length hatom) hskip
    rw [readings_atom_deny hskip] at h
    exact (settled_skipBlanks _ h).congr fun more => readings_atom_deny (hmore more)
  | group cs inner hskip hinner =>
    rintro before rfl hatom h
    obtain ⟨inner, rfl, hmore⟩ := skipBlanks_append_cons_of_lt (h.lt_length hatom) hskip
    rw [readings_atom_group hskip] at h
    have hchain : Settled (fun cs => (readings .disjunction cs).andThen closeGroup) inner := by
      refine settled_chain (hinner inner rfl nofun) ?_ ?_ h
      · exact fun e rest _ hleaves => settled_closeGroup e hleaves
      · exact fun e rest _ => ⟨closeGroup_ne_nil e rest, fun s hs =>
          (closeGroup_nested (n := 0) e rest s hs).reached.length_left_le⟩
    exact hchain.congr fun more => readings_atom_group (hmore more)
  | check cs hne hopen =>
    rintro before rfl hatom h
    have hbefore := skipBlanks_ne_nil_of_lt (h.lt_length hatom)
    have hskip := skipBlanks_append_of_ne_nil hbefore
    rw [hskip behind, List.head?_append_of_ne_nil _ hbefore] at hopen
    rw [readings_atom_check hne (by rwa [hskip behind, List.head?_append_of_ne_nil _ hbefore]),
      hskip behind] at h
    have hsettled := settled_thenSkip (settled_checkReadings (by omega)) h
    refine hsettled.congr fun more => ?_
    rw [readings_atom_check, hskip more]
    · simp [hskip more, hbefore]
    · rwa [hskip more, List.head?_append_of_ne_nil _ hbefore]

/-! ## Rules -/

/-- What comes of a reading that is to be the whole rule: the text is at its end, or it fails. -/
def finishRule (e : Expr) (rest : List Char) : Trace :=
  match skipBlanks rest with
  | [] => [.found e []]
  | rest => Trace.failure rest .operatorOrEnd

theorem ruleReadings_eq (cs : List Char) :
    ruleReadings cs = (readings .disjunction cs).andThen finishRule := rfl

theorem finishRule_more (e : Expr) (h : skipBlanks cs ≠ []) :
    finishRule e cs = Trace.failure (skipBlanks cs) .operatorOrEnd := by
  unfold finishRule
  split
  next heq => exact absurd heq h
  next => rfl

theorem finishRule_advances (e : Expr) (cs : List Char) : Advances finishRule e cs := by
  unfold Advances finishRule
  split
  next heq =>
    refine ⟨List.cons_ne_nil _ _, fun s hs => ?_⟩
    rw [List.mem_singleton.mp hs]
    exact Nat.zero_le _
  next =>
    refine ⟨List.cons_ne_nil _ _, fun s hs => ?_⟩
    rw [List.mem_singleton.mp hs]
    exact Nat.le_refl _

theorem settled_finishRule (e : Expr) (hn : behind.length < n)
    (h : (finishRule e (cs ++ behind)).Leaves n) : Settled (finishRule e) cs := by
  obtain ⟨hne, hle⟩ := finishRule_advances e (cs ++ behind)
  obtain ⟨s, hs⟩ := List.exists_mem_of_ne_nil _ hne
  have hlen : behind.length < (skipBlanks (cs ++ behind)).length :=
    Nat.lt_of_lt_of_le hn (Nat.le_trans (h s hs) (hle s hs))
  have hcs := skipBlanks_ne_nil_of_lt hlen
  intro more
  have hmore : skipBlanks (cs ++ more) ≠ [] := by
    rw [skipBlanks_append_of_ne_nil hcs]
    exact List.append_ne_nil_of_left_ne_nil hcs more
  rw [finishRule_more e hmore, finishRule_more e hcs, skipBlanks_append_of_ne_nil hcs]
  rfl

theorem settled_ruleReadings (h : (ruleReadings (before ++ behind)).Leaves (behind.length + 4)) :
    Settled ruleReadings before := by
  have hchain : Settled (fun cs => (readings .disjunction cs).andThen finishRule) before := by
    refine settled_chain (readings_settled .disjunction _ before rfl nofun) ?_ ?_ h
    · exact fun e rest _ hleaves => settled_finishRule e (by omega) hleaves
    · exact fun e rest _ => finishRule_advances e rest
  exact hchain.congr fun more => ruleReadings_eq _

end AccessPolicy
