import AccessPolicy.Proofs.Nesting
import AccessPolicy.Proofs.Preference

/-!
# When a reading is the rule

The rule of a text keeps the most (`parse_keeps_most`), but that compares it with all the other
readings. Main statement: `parse_eq_ok_iff_not_trades`, a reading can be told to be the rule by
looking at it alone. It is not the rule exactly if a check could keep one more parenthesis, one that
stands directly behind it and closes a group, and a later check could pay for it by giving one of
its own back (`Trades`). The parentheses of a text are as many as they are, so whoever keeps one has
to find another for the group.
-/

namespace AccessPolicy

/-! ## Scanning the same symbols -/

variable {p q q' : Place} {cs rest rest' : List Char}

/-- The symbol that is taken decides what is left over. -/
theorem Lexes.same_rest {s : Symbol} (h : Lexes p cs s q rest) (h' : Lexes p cs s q' rest') :
    q = q' ∧ rest = rest' := by
  cases h with
  | not hat =>
    cases h' with
    | not hat' => exact ⟨rfl, (hat.unique hat').2⟩
  | opening hskip =>
    cases h' with
    | opening hskip' => exact ⟨rfl, (List.cons.inj (hskip.symm.trans hskip')).2⟩
  | allow hskip =>
    cases h' with
    | allow hskip' => exact ⟨rfl, (List.cons.inj (hskip.symm.trans hskip')).2⟩
  | deny hskip =>
    cases h' with
    | deny hskip' => exact ⟨rfl, (List.cons.inj (hskip.symm.trans hskip')).2⟩
  | check _ _ hcheck =>
    cases h' with
    | check _ _ hcheck' =>
      exact ⟨rfl, List.append_cancel_left (hcheck.same_run hcheck').2.1⟩
  | closing hskip =>
    cases h' with
    | closing hskip' => exact ⟨rfl, (List.cons.inj (hskip.symm.trans hskip')).2⟩
  | and hat =>
    cases h' with
    | and hat' => exact ⟨rfl, (hat.unique hat').2⟩
  | or hat =>
    cases h' with
    | or hat' => exact ⟨rfl, (hat.unique hat').2⟩

theorem Scans.same_rest {ss : List Symbol} (h : Scans p cs ss q rest)
    (h' : Scans p cs ss q' rest') : q = q' ∧ rest = rest' := by
  induction h with
  | nil =>
    cases h'
    exact ⟨rfl, rfl⟩
  | cons hlex _ ih =>
    cases h' with
    | cons hlex' hs' =>
      obtain ⟨rfl, rfl⟩ := hlex.same_rest hlex'
      exact ih hs'

/-- A right side may keep a closing parenthesis directly behind it. -/
theorem ReadsCheck.keep {rhs : List Char} {lhs : LeftSide}
    (h : ReadsCheck cs lhs rhs (')' :: rest)) : ReadsCheck cs lhs (rhs ++ closers 1) rest := by
  generalize hbehind : ')' :: rest = behind at h
  cases h with
  | @intro _ written _ after given hlhs hne hrun hafter =>
    cases given with
    | zero =>
      -- the run would have ended in front of the parenthesis
      rw [closers, List.replicate_zero, List.nil_append] at hbehind
      rw [← hbehind] at hafter
      cases hafter ')' rfl
    | succ given =>
      obtain rfl : rest = closers given ++ after := (List.cons.inj hbehind).2
      have hkept : ∀ c ∈ rhs ++ closers 1, isBlank c = false := by
        intro c hc
        rcases List.mem_append.mp hc with hc | hc
        · exact hrun c hc
        · rw [List.mem_singleton.mp hc]
          rfl
      rw [← hbehind, List.append_cons rhs]
      exact .intro hlhs (by simp) hkept hafter

/-! ## Trading parentheses -/

/-- A symbol with something to give back is a check that ends in a closing parenthesis. -/
theorem exists_check_of_slack {ss : List Symbol} (h : 0 < slack ss) :
    ∃ before lhs rhs after, ss = before ++ .check lhs (rhs ++ closers 1) :: after ∧ rhs ≠ [] := by
  induction ss with
  | nil => exact absurd h (Nat.lt_irrefl 0)
  | cons s ss ih =>
    by_cases hs : 0 < s.spare
    · cases s with
      | check lhs rhs =>
        obtain ⟨rhs', hne, rfl⟩ := exists_of_spareClosers hs
        exact ⟨[], lhs, rhs', ss, rfl, hne⟩
      | _ => exact absurd hs (Nat.lt_irrefl 0)
    · rw [slack_cons] at h
      obtain ⟨before, lhs, rhs, after, rfl, hne⟩ := ih (by omega)
      exact ⟨s :: before, lhs, rhs, after, rfl, hne⟩

/-- Something can be given back exactly if a right side of two or more characters ends in `)`. -/
theorem slack_pos_iff {ss : List Symbol} :
    0 < slack ss ↔ ∃ c ∈ ss.filterMap Symbol.check?, 2 ≤ c.2.length ∧ c.2.getLast? = some ')' := by
  constructor
  · intro h
    obtain ⟨before, lhs, rhs, after, rfl, hne⟩ := exists_check_of_slack h
    refine ⟨(lhs, rhs ++ closers 1), by simp [Symbol.check?], ?_, List.getLast?_concat⟩
    have hlen := List.length_pos_iff.mpr hne
    rw [List.length_append, List.length_replicate]
    omega
  · rintro ⟨⟨lhs, rhs⟩, hmem, hlen, hlast⟩
    obtain ⟨s, hs, hcheck⟩ := List.mem_filterMap.mp hmem
    obtain ⟨before, after, rfl⟩ := List.append_of_mem hs
    cases s with
    | check lhs' rhs' =>
      obtain ⟨rfl, rfl⟩ := Prod.mk.inj (Option.some.inj hcheck)
      obtain ⟨rhs, rfl⟩ := List.getLast?_eq_some_iff.mp hlast
      have hne : rhs ≠ [] := by
        rintro rfl
        simp at hlen
      have hspare := spareClosers_append hne 1
      rw [show closers 1 = [')'] from rfl] at hspare
      rw [slack_append, slack_cons, Symbol.spare, hspare]
      omega
    | _ => cases hcheck

theorem KeepsFirst.keepsMore {ss ss' : List Symbol} (h : KeepsFirst ss ss') :
    KeepsMore (ss.filterMap Symbol.check?) (ss'.filterMap Symbol.check?) := by
  obtain ⟨before, lhs, rhs, n, after, after', rfl, rfl, -⟩ := h
  simp only [List.filterMap_append, List.filterMap_cons, Symbol.check?]
  exact KeepsMore.here.append_left _

/-- Directly behind a check stands a `)` that closes a group; `after` are the symbols behind it. -/
def ClosesAtCheck (p : Place) (cs : List Char) (ss after : List Symbol) : Prop :=
  ∃ before lhs rhs rest, ss = before ++ .check lhs rhs :: .closing :: after ∧
    Scans p cs (before ++ [.check lhs rhs]) .operator (')' :: rest)

/-- A check could keep a `)` directly behind it, and a later check could give one back for it. -/
def Trades (cs : List Char) (ss : List Symbol) : Prop :=
  ∃ after, ClosesAtCheck .operand cs ss after ∧ 0 < slack after

/-- Two scans with the same symbols up to a check, which keeps more in the first: in the second one
the check has a parenthesis directly behind it. -/
theorem KeepsFirst.trades {ss ss' : List Symbol} (h : KeepsFirst ss ss')
    (hslack : slack ss = slack ss') (hscan : Scans .operand cs ss .operator rest)
    (hscan' : Scans .operand cs ss' .operator rest') : Trades cs ss' := by
  obtain ⟨before, lhs, rhs, n, after, after', rfl, rfl, hspread⟩ := h
  obtain ⟨after', rfl⟩ := cons_closing_of_spread hspread
  obtain ⟨p, mid, hbefore, hcheck⟩ := hscan.of_append
  obtain ⟨p', mid', hbefore', hcheck'⟩ := hscan'.of_append
  obtain ⟨rfl, rfl⟩ := hbefore.same_rest hbefore'
  cases hcheck with
  | cons hlex _ =>
    cases hlex with
    | check hnot hopen hkeeps =>
      cases hcheck' with
      | cons hlex' _ =>
        cases hlex' with
        | check _ _ hgives =>
          have hne := hgives.ne_nil
          have hgiven := hkeeps.giveBack hne
          refine ⟨after', ⟨before, lhs, rhs, _, rfl,
            hbefore.append (.single (.check hnot hopen hgiven))⟩, ?_⟩
          -- what is kept here has to be made up for behind it
          have hspare := spareClosers_append hne (n + 1)
          simp only [slack_append, slack_cons, Symbol.spare, hspare] at hslack
          omega

/-- A check keeps the parenthesis behind it, and a later check gives one back: another rule of the
same text, that keeps more. -/
theorem Trades.exists_keepsMore {ss : List Symbol} (h : Trades cs ss)
    (hscan : Scans .operand cs ss .operator rest) (hnests : Nests .operand 0 ss) :
    ∃ ss', Scans .operand cs ss' .operator rest ∧ Nests .operand 0 ss' ∧
      KeepsMore (ss'.filterMap Symbol.check?) (ss.filterMap Symbol.check?) := by
  obtain ⟨after, ⟨before, lhs, rhs, behind, rfl, hdirect⟩, hslack⟩ := h
  obtain ⟨mid, lhs', rhs', after, rfl, hne⟩ := exists_check_of_slack hslack
  refine ⟨before ++ .check lhs (rhs ++ closers 1) :: (mid ++ .check lhs' rhs' :: .closing :: after),
    ?_, ?_, ?_⟩
  · -- the first check ends one parenthesis later, the second one earlier
    rw [List.append_cons before] at hscan
    obtain ⟨q, cs₁, hscan₁, hclosing⟩ := hscan.of_append
    obtain ⟨rfl, rfl⟩ := hscan₁.same_rest hdirect
    obtain ⟨p, cs₀, hbefore, hcheck⟩ := hdirect.of_append
    cases hclosing with
    | cons hlex hmore =>
      obtain ⟨p', cs₂, hmid, hlater⟩ := hmore.of_append
      cases hlex with
      | closing hskip =>
        obtain rfl := (List.cons.inj hskip).2
        cases hcheck.of_single with
        | check hnot hopen hread =>
          cases hlater with
          | cons hlex' hafter =>
            cases hlex' with
            | check hnot' hopen' hread' =>
              refine hbefore.append (.cons (.check hnot hopen hread.keep) (hmid.append ?_))
              exact .cons (.check hnot' hopen' (hread'.giveBack hne))
                (.cons (.closing (skipBlanks_cons rfl _)) hafter)
  · -- the group stays open up to the later check
    refine Nests.replace ?_ before hnests
    intro p n h
    cases h with
    | check h =>
      cases h with
      | closing h => exact .check (h.closeLater mid)
  · simp only [List.filterMap_append, List.filterMap_cons, Symbol.check?]
    exact KeepsMore.here.append_left _

/-- Two scans of one text that are rules give back as much as each other. -/
theorem slack_eq_of_spread_eq {ss ss' : List Symbol} (h : spread ss = spread ss')
    (hnests : Nests .operand 0 ss) (hnests' : Nests .operand 0 ss') : slack ss = slack ss' := by
  -- as many groups are opened, so as many are closed, and the spread counts what is left
  have hcount := hnests.count_closing
  have hcount' := hnests'.count_closing
  have hopening := congrArg (List.count .opening) h
  have hclosing := congrArg (List.count .closing) h
  rw [count_opening_spread, count_opening_spread] at hopening
  rw [count_closing_spread, count_closing_spread] at hclosing
  omega

/-- Two scans of one text with the same checks are one. -/
theorem Scans.eq_of_checks {ss ss' : List Symbol} (hscan : Scans p cs ss .operator rest)
    (hrest : Blanks rest) (hscan' : Scans p cs ss' .operator rest') (hrest' : Blanks rest')
    (h : ss.filterMap Symbol.check? = ss'.filterMap Symbol.check?) : ss = ss' := by
  rcases eq_or_keeps_of_spread_eq (hscan.spread_unique hrest hscan' hrest') with rfl | hk | hk
  · rfl
  · exact absurd h hk.keepsMore.ne
  · exact absurd h.symm hk.keepsMore.ne

/-- **The rule among the readings.** A reading of a text is its rule unless a check could keep the
parenthesis directly behind it and a later check could give one back for it. -/
theorem parse_eq_ok_iff_not_trades {text : String} {ss : List Symbol} {e : Expr}
    (hscan : Scans .operand text.toList ss .operator rest) (hrest : Blanks rest)
    (hform : Forms .disjunction ss e) : Expr.parse text = .ok e ↔ ¬ Trades text.toList ss := by
  have hread : CompleteReading text.toList e :=
    completeReading_iff.mpr ⟨ss, rest, hscan, hrest, hform⟩
  have hnests := exists_forms_iff.mp ⟨e, hform⟩
  constructor
  · -- a reading that keeps more would have been found first
    intro hparse htrades
    obtain ⟨ss', hscan', hnests', hkeeps⟩ := htrades.exists_keepsMore hscan hnests
    obtain ⟨e', hform'⟩ := exists_forms_iff.mpr hnests'
    rw [← hform'.checks_eq, ← hform.checks_eq] at hkeeps
    have hread' : CompleteReading text.toList e' :=
      completeReading_iff.mpr ⟨ss', rest, hscan', hrest, hform'⟩
    have hne : e' ≠ e := fun heq => hkeeps.ne (congrArg Expr.checks heq)
    exact hkeeps.asymm (keepsMore_of_parse hparse hread' hne)
  · -- what was found instead keeps more, and has to make up for it
    intro htrades
    obtain ⟨e', hparse⟩ := exists_parse hread
    by_cases heq : e' = e
    · rwa [heq] at hparse
    · have hkeeps := keepsMore_of_parse hparse hread (Ne.symm heq)
      obtain ⟨ss', rest', hscan', hrest', hform'⟩ :=
        completeReading_iff.mp (completeReading_of_parse hparse)
      rw [hform'.checks_eq, hform.checks_eq] at hkeeps
      have hspread := hscan'.spread_unique hrest' hscan hrest
      have hslack := slack_eq_of_spread_eq hspread (exists_forms_iff.mp ⟨e', hform'⟩) hnests
      rcases eq_or_keeps_of_spread_eq hspread with rfl | hfirst | hfirst
      · exact absurd rfl hkeeps.ne
      · exact absurd (hfirst.trades hslack hscan' hscan) htrades
      · exact absurd hfirst.keepsMore hkeeps.asymm

/-- The scan of a rule: it trades nothing. -/
theorem exists_scan_of_parse {text : String} {e : Expr} (h : Expr.parse text = .ok e) :
    ∃ ss rest, Scans .operand text.toList ss .operator rest ∧ Blanks rest ∧
      Forms .disjunction ss e ∧ ¬ Trades text.toList ss := by
  obtain ⟨ss, rest, hscan, hrest, hform⟩ := completeReading_iff.mp (completeReading_of_parse h)
  exact ⟨ss, rest, hscan, hrest, hform, (parse_eq_ok_iff_not_trades hscan hrest hform).mp h⟩

end AccessPolicy
