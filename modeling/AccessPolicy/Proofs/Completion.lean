import AccessPolicy.Proofs.Failures
import AccessPolicy.Proofs.Grouping

/-!
# Completing the beginning of a rule

Main statement: `failure_completable`, the text in front of a failure is the beginning of a rule.

The farthest failure is reached by a scan, and what the scan has taken is the beginning of a rule. From
there the text can be completed (`Stops.completed`): an operand that is missing is put in, a check that
has begun is finished, and the open groups are closed. That the scan takes the same again when the text
behind it is another one is no matter of course, since a keyword looks at the character behind it and
the run of a right side ends where the text says. What is asked of the other text for this (`StandsFor`)
goes from the end of the scan to its beginning, symbol by symbol (`Scans.replace`).
-/

namespace AccessPolicy

variable {p q : Place} {n : Nat} {cs mid mid' rest rest' more blanks : List Char} {c : Char}
  {s : Symbol} {ss : List Symbol} {f : Failure}

/-! ## Texts that stand for each other -/

/-- A right side may end in front of this text: its run does, but for closing parentheses. -/
def EndsCheck (cs : List Char) : Prop := ∃ n after, cs = closers n ++ after ∧ EndsRun after

/-- What is taken in front of a place is taken as well where the second text stands there. -/
def StandsFor : Place → (cs cs' : List Char) → Prop
  | .operand, cs, cs' => cs'.head? = cs.head? ∨ Keyword.endsBefore cs' = true
  | .operator, cs, cs' => EndsCheck cs → EndsCheck cs'

theorem endsCheck_blank (h : isBlank c = true) (cs : List Char) : EndsCheck (c :: cs) := by
  refine ⟨0, c :: cs, rfl, fun d hd => ?_⟩
  obtain rfl := Option.some.inj hd
  exact h

theorem endsCheck_cons (h : isBlank c = false) : EndsCheck (c :: cs) ↔ c = ')' ∧ EndsCheck cs := by
  constructor
  · rintro ⟨n, after, heq, hafter⟩
    cases n with
    | zero =>
      obtain rfl : c :: cs = after := heq
      exact absurd (hafter c rfl) (by simp [h])
    | succ n =>
      obtain ⟨rfl, rfl⟩ := List.cons.inj heq
      exact ⟨rfl, n, after, rfl, hafter⟩
  · rintro ⟨rfl, n, after, rfl, hafter⟩
    exact ⟨n + 1, after, rfl, hafter⟩

theorem endsCheck_closers (hb : Blanks blanks) (n : Nat) : EndsCheck (blanks ++ closers n) := by
  cases blanks with
  | nil => exact ⟨n, [], (List.append_nil _).symm, endsRun_nil⟩
  | cons b blanks => exact endsCheck_blank (hb b (List.mem_cons_self ..)) _

/-- Behind an operator only a closing parenthesis lets a right side in front of it look further. -/
theorem standsFor_operator (hb : Blanks blanks) (hc : isBlank c = false)
    (h : c = ')' → StandsFor .operator cs rest) :
    StandsFor .operator (blanks ++ c :: cs) (blanks ++ c :: rest) := by
  intro hends
  cases blanks with
  | nil =>
    obtain ⟨hclosing, hcs⟩ := (endsCheck_cons hc).mp hends
    exact (endsCheck_cons hc).mpr ⟨hclosing, h hclosing hcs⟩
  | cons b blanks => exact endsCheck_blank (hb b (List.mem_cons_self ..)) _

/-- Texts with the same beginning stand for each other where an operand is due. -/
theorem standsFor_operand {before : List Char} (hne : before ≠ []) (cs rest : List Char) :
    StandsFor .operand (before ++ cs) (before ++ rest) := by
  refine Or.inl ?_
  rw [List.head?_append_of_ne_nil _ hne, List.head?_append_of_ne_nil _ hne]

/-! ## Keywords in front of a colon -/

theorem Keyword.At.colon_mem {k : Keyword} (h : k.At cs rest) (hcolon : ':' ∈ cs) : ':' ∈ rest := by
  obtain ⟨blanks, hb, rfl, -⟩ := h
  rw [← List.append_assoc] at hcolon
  exact (List.mem_append.mp hcolon).resolve_left (k.colon_notMem hb)

/-- No keyword ends in front of a colon, so whether one is recognised is told without the colon. -/
theorem Keyword.At.before_colon {k : Keyword} (h : k.At (cs ++ ':' :: more) rest)
    (more' : List Char) : ∃ rest', k.At (cs ++ more') rest' := by
  rw [List.append_cons] at h
  obtain ⟨rest', hat⟩ := h.of_append (by simp)
  have hcolon := hat.colon_mem (by simp)
  obtain ⟨blanks, hb, heq, hend⟩ := hat
  obtain ⟨front, last, rfl⟩ := (List.eq_nil_or_concat' rest').resolve_left
    (List.ne_nil_of_mem hcolon)
  rw [← List.append_assoc, ← List.append_assoc] at heq
  obtain ⟨rfl, hlast⟩ := List.append_inj' heq rfl
  have hne : front ≠ [] := by
    rintro rfl
    exact absurd (hend last rfl) (by rw [← (List.cons.inj hlast).1]; decide)
  have hfront : k.At (blanks ++ k.chars ++ front) front := by
    refine ⟨blanks, hb, List.append_assoc .., fun c hc => hend c ?_⟩
    rwa [List.head?_append_of_ne_nil _ hne]
  exact ⟨_, hfront.append hne more'⟩

/-! ## Scanning another text -/

theorem exists_replace_char (h : skipBlanks cs = c :: mid) (mid' : List Char) :
    ∃ blanks, Blanks blanks ∧ cs = blanks ++ [c] ++ mid ∧
      skipBlanks (blanks ++ [c] ++ mid') = c :: mid' := by
  obtain ⟨blanks, hb, hcs⟩ := exists_skipBlanks cs
  rw [h, List.append_cons] at hcs
  refine ⟨blanks, hb, hcs, ?_⟩
  rw [← List.append_cons]
  exact skipBlanks_append_cons hb (skipBlanks_head h) mid'

theorem Keyword.At.exists_replace {k : Keyword} (h : k.At cs mid)
    (hmid : StandsFor .operand mid mid') :
    ∃ before, cs = before ++ mid ∧ k.At (before ++ mid') mid' ∧
      ∀ p, StandsFor p (before ++ mid) (before ++ mid') := by
  obtain ⟨blanks, hb, rfl, hend⟩ := h
  have hend' : ∀ c, mid'.head? = some c → endsKeyword c = true := by
    rcases hmid with hhead | hends
    · rwa [hhead]
    · exact endsBefore_iff.mp hends
  refine ⟨blanks ++ k.chars, (List.append_assoc ..).symm, ⟨blanks, hb, List.append_assoc .., hend'⟩,
    fun p => ?_⟩
  cases p with
  | operand => exact standsFor_operand (by cases k <;> simp [chars]) _ _
  | operator =>
    rw [List.append_assoc, List.append_assoc]
    cases k <;> exact standsFor_operator hb rfl (absurd · (by decide))

/-- A check is taken wherever its left side is not taken for `not`, whatever stands behind that. -/
theorem lexes_written_check {lhs : LeftSide} {written rhs : List Char} (hb : Blanks blanks)
    (hlhs : lhs.Written written) (hnot : ∀ rest', ¬ Keyword.not.At (blanks ++ (written ++ more)) rest')
    (hopen : ∀ c, written.head? = some c → opensAtom c = false) (hne : rhs ≠ [])
    (hrun : ∀ c ∈ rhs, isBlank c = false) (hrest : EndsCheck rest) :
    Lexes .operand (blanks ++ (written ++ ':' :: rhs) ++ rest) (.check lhs rhs) .operator rest := by
  obtain ⟨given, after, rfl, hafter⟩ := hrest
  have hcheck : ReadsCheck (written ++ ':' :: (rhs ++ (closers given ++ after))) lhs rhs
    (closers given ++ after) := .intro hlhs hne hrun hafter
  have htext : blanks ++ (written ++ ':' :: rhs) ++ (closers given ++ after) =
      blanks ++ (written ++ ':' :: (rhs ++ (closers given ++ after))) := by simp
  have hskip := (skipBlanks_append hb _).trans hcheck.skipBlanks_eq.1
  rw [htext]
  refine .check (fun rest' hat => ?_) ?_ ?_
  · rw [← List.append_assoc] at hat
    obtain ⟨rest'', hat'⟩ := hat.before_colon more
    rw [List.append_assoc] at hat'
    exact hnot rest'' hat'
  · rwa [hskip, List.head?_append_of_ne_nil _ hlhs.ne_nil]
  · rwa [hskip]

/-- A symbol is taken again where another text stands behind it. -/
theorem Lexes.exists_replace (h : Lexes p cs s q mid) (hmid : StandsFor q mid mid') :
    ∃ before, cs = before ++ mid ∧ Lexes p (before ++ mid') s q mid' ∧
      StandsFor p cs (before ++ mid') := by
  cases h with
  | not hat =>
    obtain ⟨before, rfl, hat', hstands⟩ := hat.exists_replace hmid
    exact ⟨before, rfl, .not hat', hstands _⟩
  | and hat =>
    obtain ⟨before, rfl, hat', hstands⟩ := hat.exists_replace hmid
    exact ⟨before, rfl, .and hat', hstands _⟩
  | or hat =>
    obtain ⟨before, rfl, hat', hstands⟩ := hat.exists_replace hmid
    exact ⟨before, rfl, .or hat', hstands _⟩
  | opening h =>
    obtain ⟨blanks, -, rfl, hskip⟩ := exists_replace_char h mid'
    exact ⟨_, rfl, .opening hskip, standsFor_operand (by simp) _ _⟩
  | allow h =>
    obtain ⟨blanks, -, rfl, hskip⟩ := exists_replace_char h mid'
    exact ⟨_, rfl, .allow hskip, standsFor_operand (by simp) _ _⟩
  | deny h =>
    obtain ⟨blanks, -, rfl, hskip⟩ := exists_replace_char h mid'
    exact ⟨_, rfl, .deny hskip, standsFor_operand (by simp) _ _⟩
  | closing h =>
    obtain ⟨blanks, hb, rfl, hskip⟩ := exists_replace_char h mid'
    refine ⟨_, rfl, .closing hskip, ?_⟩
    rw [← List.append_cons, ← List.append_cons]
    exact standsFor_operator hb rfl fun _ => hmid
  | @check _ lhs rhs _ hnot hopen h =>
    obtain ⟨blanks, hb, hcs⟩ := exists_skipBlanks cs
    generalize skipBlanks cs = text at h hcs hopen
    subst hcs
    cases h with
    | @intro _ written _ after given hlhs hne hrun hafter =>
      rw [List.head?_append_of_ne_nil _ hlhs.ne_nil] at hopen
      have htext : blanks ++ (written ++ ':' :: (rhs ++ (closers given ++ after))) =
          blanks ++ (written ++ ':' :: rhs) ++ (closers given ++ after) := by simp
      refine ⟨_, htext, ?_, ?_⟩
      · exact lexes_written_check hb hlhs hnot hopen hne hrun (hmid ⟨given, after, rfl, hafter⟩)
      · rw [htext]
        exact standsFor_operand (by simp) _ _

/-- **Scanning another text.** A scan takes the same symbols again where another text stands behind
them, if that can stand for the first. -/
theorem Scans.exists_replace (h : Scans p cs ss q mid) (hmid : StandsFor q mid mid') :
    ∃ before, cs = before ++ mid ∧ Scans p (before ++ mid') ss q mid' ∧
      StandsFor p cs (before ++ mid') := by
  induction h with
  | nil => exact ⟨[], rfl, .nil, hmid⟩
  | cons hlex _ ih =>
    obtain ⟨before, rfl, hscan, hstands⟩ := ih hmid
    obtain ⟨before', rfl, hlex', hstands'⟩ := hlex.exists_replace hstands
    refine ⟨before' ++ before, (List.append_assoc ..).symm, ?_⟩
    rw [List.append_assoc]
    exact ⟨.cons hlex' hscan, hstands'⟩

/-! ## What may stand where a scan stops -/

/-- The beginning of a check can be finished, and it is then no more taken for `not`. -/
theorem CheckBegun.exists_written {begun : List Char} (h : CheckBegun begun) (hne : begun ≠ [])
    (hb : Blanks blanks) (hnot : ∀ rest', ¬ Keyword.not.At (blanks ++ (begun ++ rest)) rest') :
    ∃ lhs written more, LeftSide.Written lhs written ∧ begun ++ more = written ++ [':'] ∧
      written.head? = begun.head? ∧
      ∃ more', ∀ rest', ¬ Keyword.not.At (blanks ++ (written ++ more')) rest' := by
  cases h with
  | nothing => exact absurd rfl hne
  | @quoted quote value hquote hchars =>
    have hvalue : ∀ c ∈ value ++ ['x'], isLeftSideChar c = true := by
      intro c hc
      rcases List.mem_append.mp hc with hmem | hmem
      · exact hchars c hmem
      · rw [List.mem_singleton.mp hmem]
        rfl
    refine ⟨_, _, ['x', quote, ':'], .quoted hquote (by simp) hvalue, by simp, rfl, [], ?_⟩
    intro rest' hat
    -- a quote is not the first character of `not`
    have hskip := hat.skipBlanks_eq
    rw [List.cons_append, skipBlanks_append_cons hb (isBlank_of_isQuote hquote)] at hskip
    rw [(List.cons.inj hskip).1] at hquote
    cases hquote
  | @leftSide lhs _ hlhs => exact ⟨lhs, begun, [':'], hlhs, rfl, rfl, rest, hnot⟩
  | @colon lhs written hlhs =>
    refine ⟨lhs, written, [], hlhs, List.append_nil _, ?_, ':' :: rest, fun rest' => ?_⟩
    · rw [List.head?_append_of_ne_nil _ hlhs.ne_nil]
    · rw [List.append_cons]
      exact hnot rest'

/-- Where an operand is due and none can be taken, one can be put in. -/
theorem Stops.exists_operand (h : Stops .operand mid f) (n : Nat) :
    ∃ before more s, mid = before ++ f.rest ∧ StandsFor .operand mid (before ++ more) ∧
      Lexes .operand (before ++ more) s .operator (closers n) := by
  have hconst : ∃ before more s, mid = before ++ skipBlanks mid ∧
      StandsFor .operand mid (before ++ more) ∧
      Lexes .operand (before ++ more) s .operator (closers n) := by
    obtain ⟨blanks, hb, hmid⟩ := exists_skipBlanks mid
    refine ⟨blanks, '@' :: closers n, _, hmid, Or.inr ?_, .allow (skipBlanks_append_cons hb rfl _)⟩
    cases blanks with
    | nil => rfl
    | cons b blanks => simp [Keyword.endsBefore, endsKeyword, hb b]
  cases h with
  | ended h =>
    rw [h] at hconst
    exact hconst
  | check hnot hne hopen h =>
    obtain ⟨begun, hbegun, hcs⟩ := (checkReadings_failed (h ▸ List.mem_singleton.mpr rfl)).2
    by_cases hnil : begun = []
    · rw [hnil, List.nil_append] at hcs
      rw [← hcs]
      exact hconst
    · obtain ⟨blanks, hb, hmid⟩ := exists_skipBlanks mid
      rw [hcs] at hmid hopen
      rw [hmid] at hnot
      obtain ⟨lhs, written, more, hlhs, hmore, hhead, more', hnot'⟩ :=
        hbegun.exists_written hnil hb hnot
      rw [List.head?_append_of_ne_nil _ hnil, ← hhead] at hopen
      have hlex : Lexes .operand (blanks ++ (written ++ [':', 'x']) ++ (closers n ++ []))
          (.check lhs ['x']) .operator (closers n ++ []) :=
        lexes_written_check hb hlhs hnot' hopen (by simp) (by simp; rfl) ⟨n, [], rfl, endsRun_nil⟩
      have htext : blanks ++ (written ++ [':', 'x']) ++ (closers n ++ []) =
          (blanks ++ begun) ++ (more ++ 'x' :: closers n) := by
        rw [List.append_assoc blanks begun, ← List.append_assoc begun, hmore]
        simp
      rw [htext, List.append_nil] at hlex
      refine ⟨blanks ++ begun, _, _, ?_, ?_, hlex⟩
      · rw [hmid, List.append_assoc]
      · rw [hmid, ← List.append_assoc]
        exact standsFor_operand (by simp [hnil]) _ _

theorem scans_blanks_closers (hb : Blanks blanks) (n : Nat) :
    ∃ rest, Scans .operator (blanks ++ closers n) (List.replicate n .closing) .operator rest ∧
      Blanks rest := by
  cases n with
  | zero => exact ⟨_, .nil, by rwa [closers, List.replicate_zero, List.append_nil]⟩
  | succ n =>
    have hclosers := scans_closers n []
    rw [List.append_nil] at hclosers
    exact ⟨[], .cons (.closing (skipBlanks_append_cons hb rfl _)) hclosers, blanks_nil⟩

/-- Where a constant or a check is taken, an operand is. -/
theorem Lexes.leads_operand (h : Lexes .operand cs s .operator rest) (n : Nat) :
    Leads .operand n [s] .operator n := by
  cases h with
  | allow | deny => exact .const
  | check => exact .check

/-- **Completing.** Where a scan stops, the text can be made a rule, with an operand put in if one is
due and all open groups closed. -/
theorem Stops.completed (h : Stops q mid f) (n : Nat) :
    ∃ before more ts rest, mid = before ++ f.rest ∧ StandsFor q mid (before ++ more) ∧
      Scans q (before ++ more) ts .operator rest ∧ Blanks rest ∧ Leads q n ts .operator 0 := by
  cases q with
  | operand =>
    have hclosers := scans_closers n []
    rw [List.append_nil] at hclosers
    obtain ⟨before, more, s, hmid, hstands, hlex⟩ := h.exists_operand n
    exact ⟨before, more, _, [], hmid, hstands, .cons hlex hclosers, blanks_nil,
      (hlex.leads_operand n).append (.closers n)⟩
  | operator =>
    obtain ⟨blanks, hb, hmid⟩ := exists_skipBlanks mid
    obtain ⟨rest, hscan, hrest⟩ := scans_blanks_closers hb n
    cases h with
    | operator => exact ⟨blanks, closers n, _, rest, hmid, fun _ => endsCheck_closers hb n, hscan,
        hrest, .closers n⟩

/-! ## Rules -/

/-- What stands in front of a failure is the beginning of a rule. -/
theorem failure_completable (h : f ∈ (ruleReadings cs).failures) :
    ∃ before more e, cs = before ++ f.rest ∧ CompleteReading (before ++ more) e := by
  obtain ⟨ss, q, n, mid, hscan, hleads, hstops⟩ := failure_nested h
  obtain ⟨before, more, ts, rest, rfl, hstands, hscan', hrest, hleads'⟩ := hstops.completed n
  obtain ⟨before', rfl, hscan, -⟩ := hscan.exists_replace hstands
  have hnests := hleads.append hleads' [] .done
  rw [List.append_nil] at hnests
  obtain ⟨e, hform⟩ := exists_forms_iff.mpr hnests
  refine ⟨before' ++ before, more, e, (List.append_assoc ..).symm, ?_⟩
  rw [List.append_assoc]
  exact completeReading_iff.mpr ⟨_, rest, hscan.append hscan', hrest, hform⟩

end AccessPolicy
