import AccessPolicy.Proofs.Failures

/-!
# Squeezed texts

`squeeze` leaves one blank of every run of them and none at the end. Main statement:
`ruleReadings_squeeze`, whatever happens when a squeezed text is read is what happens with the text
itself, with what is left over squeezed as well.

Every reader of the language looks only at characters that are no blanks, or at whether there is a
blank at all, and `squeeze` keeps both. So each of them can be moved through it, from keywords and
left sides up to all the readings of a goal, and skipping blanks too (`squeeze_skipBlanks`).
-/

namespace AccessPolicy

variable {c : Char} {cs rest : List Char} {p : Char → Bool}

/-- A blank in front of a text, if there is anything behind it. -/
def behindBlank : List Char → List Char
  | [] => []
  | c :: cs => ' ' :: c :: cs

/-- One blank for every run of blanks, and none at the end. -/
def squeeze : List Char → List Char
  | [] => []
  | c :: cs => if isBlank c then behindBlank (skipBlanks (squeeze cs)) else c :: squeeze cs

@[simp] theorem squeeze_nil : squeeze [] = [] := rfl

theorem squeeze_blank (h : isBlank c = true) (cs : List Char) :
    squeeze (c :: cs) = behindBlank (skipBlanks (squeeze cs)) := if_pos h

theorem squeeze_cons (h : isBlank c = false) (cs : List Char) :
    squeeze (c :: cs) = c :: squeeze cs := if_neg (by simp [h])

theorem skipBlanks_behindBlank (cs : List Char) : skipBlanks (behindBlank cs) = skipBlanks cs := by
  cases cs <;> rfl

theorem squeeze_skipBlanks (cs : List Char) : squeeze (skipBlanks cs) = skipBlanks (squeeze cs) := by
  induction cs with
  | nil => rfl
  | cons c cs ih =>
    by_cases h : isBlank c = true
    · have hskip : skipBlanks (c :: cs) = skipBlanks cs := List.dropWhile_cons_of_pos h
      rw [hskip, ih, squeeze_blank h, skipBlanks_behindBlank, skipBlanks_skipBlanks]
    · have hc : isBlank c = false := eq_false_of_ne_true h
      rw [skipBlanks_cons hc, squeeze_cons hc, skipBlanks_cons hc]

theorem length_behindBlank_le (cs : List Char) : (behindBlank cs).length ≤ cs.length + 1 := by
  cases cs <;> simp [behindBlank]

theorem length_squeeze_le (cs : List Char) : (squeeze cs).length ≤ cs.length := by
  induction cs with
  | nil => exact Nat.le_refl _
  | cons c cs ih =>
    have hskip := length_skipBlanks_le (squeeze cs)
    have hblank := length_behindBlank_le (skipBlanks (squeeze cs))
    unfold squeeze
    split <;> simp only [List.length_cons] <;> omega

/-! ## What is taken of a squeezed text -/

theorem behindBlank_span (hp : p ' ' = false) (cs : List Char) :
    (behindBlank cs).takeWhile p = [] ∧ (behindBlank cs).dropWhile p = behindBlank cs := by
  cases cs <;> simp [behindBlank, hp]

/-- A run of characters that are no blanks is not squeezed. -/
theorem squeeze_span (hp : ∀ c, isBlank c = true → p c = false) (cs : List Char) :
    (squeeze cs).takeWhile p = cs.takeWhile p ∧
      (squeeze cs).dropWhile p = squeeze (cs.dropWhile p) := by
  induction cs with
  | nil => exact ⟨rfl, rfl⟩
  | cons c cs ih =>
    by_cases h : isBlank c = true
    · have hc : ¬ p c = true := by simp [hp c h]
      rw [List.takeWhile_cons_of_neg hc, List.dropWhile_cons_of_neg hc, squeeze_blank h]
      exact behindBlank_span (hp ' ' rfl) _
    · rw [squeeze_cons (eq_false_of_ne_true h)]
      by_cases hc : p c = true
      · rw [List.takeWhile_cons_of_pos hc, List.takeWhile_cons_of_pos hc,
          List.dropWhile_cons_of_pos hc, List.dropWhile_cons_of_pos hc, ih.1, ih.2]
        exact ⟨rfl, rfl⟩
      · rw [List.takeWhile_cons_of_neg hc, List.takeWhile_cons_of_neg hc,
          List.dropWhile_cons_of_neg hc, List.dropWhile_cons_of_neg hc,
          squeeze_cons (eq_false_of_ne_true h)]
        exact ⟨rfl, rfl⟩

/-- Characters that are no blanks stand in front of a squeezed text as in front of the text. -/
theorem squeeze_eq_cons_iff (hc : isBlank c = false) :
    squeeze cs = c :: rest ↔ ∃ rest', cs = c :: rest' ∧ squeeze rest' = rest := by
  cases cs with
  | nil => simp
  | cons d cs =>
    by_cases h : isBlank d = true
    · have hd : d ≠ c := by
        rintro rfl
        exact Bool.false_ne_true (hc.symm.trans h)
      have hspace : ' ' ≠ c := by
        rintro rfl
        cases hc
      rw [squeeze_blank h]
      cases skipBlanks (squeeze cs) <;> simp [behindBlank, hd, hspace]
    · rw [squeeze_cons (eq_false_of_ne_true h), List.cons.injEq]
      constructor
      · rintro ⟨rfl, rfl⟩
        exact ⟨cs, rfl, rfl⟩
      · rintro ⟨rest', heq, rfl⟩
        obtain ⟨rfl, rfl⟩ := List.cons.inj heq
        exact ⟨rfl, rfl⟩

theorem squeeze_eq_append_iff {word : List Char} (hword : ∀ c ∈ word, isBlank c = false) :
    squeeze cs = word ++ rest ↔ ∃ rest', cs = word ++ rest' ∧ squeeze rest' = rest := by
  induction word generalizing cs with
  | nil => simp
  | cons w word ih =>
    obtain ⟨hw, hword⟩ := List.forall_mem_cons.mp hword
    rw [List.cons_append, squeeze_eq_cons_iff hw]
    constructor
    · rintro ⟨mid, rfl, hmid⟩
      obtain ⟨rest', rfl, hrest⟩ := (ih hword).mp hmid
      exact ⟨rest', rfl, hrest⟩
    · rintro ⟨rest', rfl, hrest⟩
      exact ⟨word ++ rest', rfl, (ih hword).mpr ⟨rest', rfl, hrest⟩⟩

theorem head?_squeeze (hc : isBlank c = false) :
    (squeeze cs).head? = some c ↔ cs.head? = some c := by
  simp only [List.head?_eq_some_iff, squeeze_eq_cons_iff hc]
  constructor
  · rintro ⟨-, rest, rfl, -⟩
    exact ⟨rest, rfl⟩
  · rintro ⟨rest, rfl⟩
    exact ⟨_, rest, rfl, rfl⟩

theorem endsRun_squeeze : EndsRun (squeeze cs) ↔ EndsRun cs := by
  cases cs with
  | nil => rfl
  | cons c cs =>
    by_cases h : isBlank c = true
    · have hspace : isBlank ' ' = true := rfl
      rw [squeeze_blank h]
      cases skipBlanks (squeeze cs) <;> simp [EndsRun, behindBlank, h, hspace]
    · rw [squeeze_cons (eq_false_of_ne_true h)]
      simp [EndsRun]

theorem Keyword.endsBefore_squeeze (cs : List Char) :
    endsBefore (squeeze cs) = endsBefore cs := by
  cases cs with
  | nil => rfl
  | cons c cs =>
    by_cases h : isBlank c = true
    · have hends : endsKeyword c = true := by simp [endsKeyword, h]
      rw [squeeze_blank h]
      cases skipBlanks (squeeze cs) with
      | nil => exact hends.symm
      | cons d more => exact hends.symm
    · rw [squeeze_cons (eq_false_of_ne_true h)]
      rfl

theorem Keyword.isBlank_chars (k : Keyword) : ∀ c ∈ k.chars, isBlank c = false := by
  cases k <;> simp [chars, isBlank]

theorem Keyword.accept_squeeze (k : Keyword) (cs : List Char) :
    k.accept (squeeze cs) = (k.accept cs).map squeeze := by
  ext rest
  simp only [accept, ← squeeze_skipBlanks, Option.filter_eq_some_iff, afterWord?_eq_some_iff,
    Option.map_eq_some_iff, squeeze_eq_append_iff k.isBlank_chars]
  constructor
  · rintro ⟨⟨rest', hword, rfl⟩, hends⟩
    rw [endsBefore_squeeze] at hends
    exact ⟨rest', ⟨hword, hends⟩, rfl⟩
  · rintro ⟨rest', ⟨hword, hends⟩, rfl⟩
    exact ⟨⟨rest', hword, rfl⟩, (endsBefore_squeeze rest').trans hends⟩

/-! ## Checks of a squeezed text -/

/-- The failure with what is left over squeezed. -/
def Failure.squeezed (f : Failure) : Failure := { f with rest := squeeze f.rest }

/-- The event with what is left over squeezed. -/
def Step.squeezed : Step → Step
  | .found e rest => .found e (squeeze rest)
  | .failed f => .failed f.squeezed

/-- The events with what is left over squeezed. -/
def Trace.squeezed (t : Trace) : Trace := t.map Step.squeezed

/-- In front of a blank there is no left side. -/
theorem leftSide_of_endsRun (h : EndsRun cs) : leftSide cs = .error ⟨cs, .checkOrGroup⟩ := by
  cases cs with
  | nil => rfl
  | cons c cs =>
    have hc : isBlank c = true := h c rfl
    have hq : isQuote c = false := by
      by_contra hne
      rw [isBlank_of_isQuote (eq_true_of_ne_false hne)] at hc
      cases hc
    have hname : isLeftSideChar c = false := by simp [isLeftSideChar, hc]
    simp [leftSide, hq, hname]

theorem leftSide_squeeze (cs : List Char) :
    leftSide (squeeze cs) = match leftSide cs with
      | .error f => .error f.squeezed
      | .ok (lhs, rest) => .ok (lhs, squeeze rest) := by
  by_cases h : EndsRun cs
  · rw [leftSide_of_endsRun h, leftSide_of_endsRun (endsRun_squeeze.mpr h)]
    rfl
  · obtain ⟨c, hc⟩ : ∃ c, cs.head? = some c ∧ isBlank c = false := by
      simpa [EndsRun] using h
    obtain ⟨cs, rfl⟩ := List.head?_eq_some_iff.mp hc.1
    have hspan := @squeeze_span isLeftSideChar fun d hd => by simp [isLeftSideChar, hd]
    have hname := hspan (c :: cs)
    rw [squeeze_cons hc.2] at hname ⊢
    simp only [leftSide, hspan cs, hname, head?_squeeze hc.2]
    -- between quotes the text behind the quote is read, otherwise the text with its first character
    split
    next =>
      split
      next => rfl
      next =>
        split
        next hclose =>
          obtain ⟨rest, hrest⟩ := List.head?_eq_some_iff.mp hclose
          rw [hrest, squeeze_cons hc.2]
          rfl
        next => rfl
    next =>
      split
      next =>
        rw [← squeeze_cons hc.2]
        rfl
      next => rfl

theorem rightSides_squeeze (reversed rest : List Char) :
    rightSides reversed (squeeze rest) =
      (rightSides reversed rest).map fun p => (p.1, squeeze p.2) := by
  fun_induction rightSides reversed rest with
  | case1 c more rest ih =>
    rw [rightSides, List.map_cons, ← ih, squeeze_cons (by rfl)]
  | case2 reversed rest hlast =>
    rw [rightSides]
    · rfl
    · exact hlast

theorem rightSideReadings_squeeze (lhs : LeftSide) (cs : List Char) :
    rightSideReadings lhs (squeeze cs) = (rightSideReadings lhs cs).squeezed := by
  obtain ⟨htake, hdrop⟩ := @squeeze_span (fun c => !isBlank c) (by simp) cs
  unfold rightSideReadings
  dsimp only
  rw [htake, hdrop, rightSides_squeeze]
  split
  next => rfl
  next =>
    rw [Trace.squeezed, List.map_map, List.map_map]
    rfl

theorem checkReadings_colon {lhs : LeftSide} (h : leftSide cs = .ok (lhs, ':' :: rest)) :
    checkReadings cs = rightSideReadings lhs rest := by
  rw [checkReadings, h]
  rfl

theorem checkReadings_no_colon {lhs : LeftSide} (h : leftSide cs = .ok (lhs, rest))
    (hcolon : rest.head? ≠ some ':') : checkReadings cs = Trace.failure rest .colon := by
  rw [checkReadings, h]
  split
  next heq => cases heq
  next heq =>
    obtain ⟨-, rfl⟩ := Prod.mk.inj (Except.ok.inj heq)
    exact absurd rfl hcolon
  next heq =>
    obtain ⟨-, rfl⟩ := Prod.mk.inj (Except.ok.inj heq)
    rfl

theorem checkReadings_squeeze (cs : List Char) :
    checkReadings (squeeze cs) = (checkReadings cs).squeezed := by
  have hcolon : isBlank ':' = false := rfl
  have hsqueeze := leftSide_squeeze cs
  cases hleft : leftSide cs with
  | error f =>
    rw [hleft] at hsqueeze
    rw [checkReadings, checkReadings, hleft, hsqueeze]
    rfl
  | ok read =>
    obtain ⟨lhs, rest⟩ := read
    rw [hleft] at hsqueeze
    by_cases h : rest.head? = some ':'
    · obtain ⟨behind, rfl⟩ := List.head?_eq_some_iff.mp h
      dsimp only at hsqueeze
      rw [squeeze_cons hcolon] at hsqueeze
      rw [checkReadings_colon hleft, checkReadings_colon hsqueeze]
      exact rightSideReadings_squeeze lhs behind
    · rw [checkReadings_no_colon hleft h, checkReadings_no_colon hsqueeze]
      · rfl
      · exact fun hhead => h ((head?_squeeze hcolon).mp hhead)

/-! ## Readings of a squeezed text -/

/-- Going on from what is left over squeezed, where this makes no difference. -/
theorem Trace.andThen_squeezed {t : Trace} {next next' : Expr → List Char → Trace}
    (h : ∀ e rest, next' e (squeeze rest) = (next e rest).squeezed) :
    t.squeezed.andThen next' = (t.andThen next).squeezed := by
  unfold squeezed andThen
  rw [List.flatMap_map, List.map_flatMap]
  refine congrArg (List.flatMap · t) (funext fun s => ?_)
  cases s with
  | found e rest => exact h e rest
  | failed f => rfl

theorem closeGroup_closing (e : Expr) (h : skipBlanks cs = ')' :: rest) :
    closeGroup e cs = [.found e (skipBlanks rest)] := by
  rw [closeGroup, h]
  rfl

theorem closeGroup_no_closing (e : Expr) (h : (skipBlanks cs).head? ≠ some ')') :
    closeGroup e cs = Trace.failure (skipBlanks cs) .closingParenthesis := by
  rw [closeGroup]
  split
  next heq => exact absurd (congrArg List.head? heq) h
  next => rfl

theorem closeGroup_squeeze (e : Expr) (cs : List Char) :
    closeGroup e (squeeze cs) = (closeGroup e cs).squeezed := by
  have hclosing : isBlank ')' = false := rfl
  have hskip := squeeze_skipBlanks cs
  by_cases h : (skipBlanks cs).head? = some ')'
  · obtain ⟨rest, hrest⟩ := List.head?_eq_some_iff.mp h
    rw [hrest, squeeze_cons hclosing] at hskip
    rw [closeGroup_closing e hrest, closeGroup_closing e hskip.symm, ← squeeze_skipBlanks]
    rfl
  · have hsqueezed : (skipBlanks (squeeze cs)).head? ≠ some ')' := by
      rw [← hskip]
      exact fun hhead => h ((head?_squeeze hclosing).mp hhead)
    rw [closeGroup_no_closing e h, closeGroup_no_closing e hsqueezed, ← hskip]
    rfl

/-- Whatever atom a text begins with, the squeezed text begins with it. -/
theorem readingsWithin_atom_squeeze {depth : Nat}
    (h : ∀ cs, readingsWithin depth .disjunction (squeeze cs) =
      (readingsWithin depth .disjunction cs).squeezed) (cs : List Char) :
    readingsWithin (depth + 1) .atom (squeeze cs) =
      (readingsWithin (depth + 1) .atom cs).squeezed := by
  have hskip := squeeze_skipBlanks cs
  rcases htext : skipBlanks cs with _ | ⟨c, rest⟩
  · rw [htext] at hskip
    rw [readingsWithin, readingsWithin, htext, ← hskip]
    rfl
  · rw [htext, squeeze_cons (skipBlanks_head htext)] at hskip
    by_cases hopen : opensAtom c = true
    · simp only [opensAtom, Bool.or_eq_true, decide_eq_true_eq] at hopen
      rw [readingsWithin, readingsWithin, htext, ← hskip]
      rcases hopen with (rfl | rfl) | rfl
      · -- `@`, `!` and `(` stand in front of the squeezed rest
        show [Step.found (.const true) (skipBlanks (squeeze rest))] = _
        rw [← squeeze_skipBlanks]
        rfl
      · show [Step.found (.const false) (skipBlanks (squeeze rest))] = _
        rw [← squeeze_skipBlanks]
        rfl
      · show (readingsWithin depth .disjunction (squeeze rest)).andThen closeGroup = _
        rw [h]
        exact Trace.andThen_squeezed closeGroup_squeeze
    · have hcheck : ∀ ds more, skipBlanks ds = c :: more → readingsWithin (depth + 1) .atom ds =
          (checkReadings (skipBlanks ds)).andThen fun e rest => [.found e (skipBlanks rest)] := by
        intro ds more heq
        rw [readingsWithin_atom_check depth (by simp [heq])]
        intro d hd
        rw [heq] at hd
        obtain rfl := Option.some.inj hd
        exact eq_false_of_ne_true hopen
      rw [hcheck _ _ htext, hcheck _ _ hskip.symm, ← squeeze_skipBlanks, checkReadings_squeeze]
      refine Trace.andThen_squeezed fun e mid => ?_
      rw [← squeeze_skipBlanks]
      rfl

/-- Whatever happens when a squeezed text is read is what happens with the text itself. -/
theorem readingsWithin_squeeze : ∀ (depth : Nat) (goal : Goal) (cs : List Char),
    readingsWithin depth goal (squeeze cs) = (readingsWithin depth goal cs).squeezed := by
  intro depth
  induction depth with
  | zero => intro goal cs; rfl
  | succ depth ih =>
    intro goal cs
    have hchain : ∀ (goal' : Goal) (cs' : List Char) (next : Expr → Goal),
        ((readingsWithin depth goal' (squeeze cs')).andThen fun e rest =>
          readingsWithin depth (next e) rest) =
        ((readingsWithin depth goal' cs').andThen fun e rest =>
          readingsWithin depth (next e) rest).squeezed := by
      intro goal' cs' next
      rw [ih]
      exact Trace.andThen_squeezed fun e rest => ih (next e) rest
    cases goal with
    | disjunction => exact hchain .conjunction cs .disjunctionAfter
    | conjunction => exact hchain .unary cs .conjunctionAfter
    | disjunctionAfter left =>
      rw [readingsWithin, readingsWithin, Keyword.accept_squeeze]
      cases Keyword.or.accept cs with
      | none => rfl
      | some cs' => exact hchain .conjunction cs' fun right => .disjunctionAfter (.or left right)
    | conjunctionAfter left =>
      rw [readingsWithin, readingsWithin, Keyword.accept_squeeze]
      cases Keyword.and.accept cs with
      | none => rfl
      | some cs' => exact hchain .unary cs' fun right => .conjunctionAfter (.and left right)
    | unary =>
      rw [readingsWithin, readingsWithin, Keyword.accept_squeeze]
      cases Keyword.not.accept cs with
      | none => exact ih .atom cs
      | some cs' =>
        dsimp only [Option.map_some]
        rw [ih]
        exact Trace.andThen_squeezed fun _ _ => rfl
    | atom => exact readingsWithin_atom_squeeze (ih .disjunction) cs

/-- Blanks in front of a phrase make no difference. -/
theorem readingsWithin_skipBlanks : ∀ (depth : Nat) (goal : Goal) (cs : List Char),
    goal.place = .operand →
      readingsWithin depth goal (skipBlanks cs) = readingsWithin depth goal cs := by
  intro depth
  induction depth with
  | zero => intro goal cs _; rfl
  | succ depth ih =>
    intro goal cs hplace
    cases goal with
    | disjunction => rw [readingsWithin, readingsWithin, ih .conjunction cs rfl]
    | conjunction => rw [readingsWithin, readingsWithin, ih .unary cs rfl]
    | unary => rw [readingsWithin, readingsWithin, Keyword.accept_skipBlanks, ih .atom cs rfl]
    | atom => rw [readingsWithin, readingsWithin, skipBlanks_skipBlanks]
    | disjunctionAfter | conjunctionAfter => cases hplace

/-- A text may be read with any depth that is enough for one as long. -/
theorem readingsWithin_depthFor (goal : Goal) {cs ds : List Char} (h : ds.length ≤ cs.length) :
    readingsWithin (depthFor cs) goal ds = readings goal ds :=
  readingsWithin_eq_readings (goal.need_le h)

theorem readings_squeeze (goal : Goal) (cs : List Char) :
    readings goal (squeeze cs) = (readings goal cs).squeezed := by
  rw [← readingsWithin_depthFor goal (length_squeeze_le cs), readingsWithin_squeeze, readings]

theorem readings_skipBlanks (cs : List Char) :
    readings .disjunction (skipBlanks cs) = readings .disjunction cs := by
  rw [← readingsWithin_depthFor _ (length_skipBlanks_le cs), readingsWithin_skipBlanks _ _ _ rfl,
    readings]

/-- **A squeezed text.** What happens when it is read as one rule is what happens with the text
itself. -/
theorem ruleReadings_squeeze (cs : List Char) :
    ruleReadings (squeeze (skipBlanks cs)) = (ruleReadings cs).squeezed := by
  unfold ruleReadings
  rw [readings_squeeze, readings_skipBlanks]
  refine Trace.andThen_squeezed fun e rest => ?_
  rw [← squeeze_skipBlanks]
  cases h : skipBlanks rest with
  | nil => rfl
  | cons c rest' =>
    have hcons := squeeze_cons (skipBlanks_head h) rest'
    rw [hcons]
    show Trace.failure (c :: squeeze rest') .operatorOrEnd =
      Trace.failure (squeeze (c :: rest')) .operatorOrEnd
    rw [hcons]

end AccessPolicy
