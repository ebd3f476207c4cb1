import AccessPolicy.Proofs.Rendering

/-!
# Rules in parentheses

Two rules put in parentheses and joined by an operator, as in `(l) and (r)`. The parentheses delimit
the two rules in one reading of this text, but another reading may be preferred: in
`(a:x) and (b:y))` the first check takes the parenthesis of its group, and the second check gives
its own one back. Main statement: `parse_groups`, the preferred reading is the one in which the
parentheses delimit the two rules, unless a group of `(l)` is closed directly behind a check and
some right side of `r` can spare a parenthesis. Around a single rule, parentheses never change anything
(`parse_group`), and `not` in front of them negates the whole rule (`parse_negatedGroup`).

The argument is local. Whatever a check inside of `l` or of `r` could gain from the same rule it
would have gained there already, so only a parenthesis of `l` for one of `r` is left to be traded
(`trades_joined_iff`).
-/

namespace AccessPolicy

variable {p q : Place} {cs mid rest more : List Char} {ss ts after : List Symbol}

/-! ## A text in front of a closing parenthesis -/

theorem endsRun_nil : EndsRun [] := nofun

theorem skipBlanks_append_of_ne_nil (h : skipBlanks cs ≠ []) (more : List Char) :
    skipBlanks (cs ++ more) = skipBlanks cs ++ more := by
  obtain ⟨c, tail, hcons⟩ := List.exists_cons_of_ne_nil h
  obtain ⟨blanks, hb, hcs⟩ := exists_skipBlanks cs
  rw [hcs, List.append_assoc, hcons, List.cons_append,
    skipBlanks_append_cons hb (skipBlanks_head hcons),
    skipBlanks_append_cons hb (skipBlanks_head hcons), List.cons_append]

/-- A keyword in front of something stays one, whatever the text goes on with. -/
theorem Keyword.At.append {k : Keyword} (h : k.At cs rest) (hne : rest ≠ []) (more : List Char) :
    k.At (cs ++ more) (rest ++ more) := by
  obtain ⟨blanks, hb, rfl, hend⟩ := h
  refine ⟨blanks, hb, by simp, fun c hc => hend c ?_⟩
  rwa [List.head?_append_of_ne_nil _ hne] at hc

theorem Keyword.colon_notMem (k : Keyword) {blanks : List Char} (hb : Blanks blanks) :
    ':' ∉ blanks ++ k.chars := by
  intro hmem
  rcases List.mem_append.mp hmem with hmem | hmem
  · cases hb _ hmem
  · cases k <;> simp [chars] at hmem

/-- A text with a colon in it does not become a keyword by going on. -/
theorem Keyword.At.of_append {k : Keyword} (h : k.At (cs ++ more) rest) (hcolon : ':' ∈ cs) :
    ∃ rest', k.At cs rest' := by
  obtain ⟨blanks, hb, heq, hend⟩ := h
  have hword := k.colon_notMem hb
  rw [← List.append_assoc] at heq
  rcases List.append_eq_append_iff.mp heq with ⟨tail, hcs, -⟩ | ⟨tail, hcs, hrest⟩
  · -- the text would end inside of the word
    rw [hcs] at hword
    exact absurd (List.mem_append_left _ hcolon) hword
  · cases tail with
    | nil =>
      rw [List.append_nil] at hcs
      exact absurd (hcs ▸ hcolon) hword
    | cons c tail =>
      refine ⟨c :: tail, blanks, hb, by rw [hcs, List.append_assoc], fun d hd => hend d ?_⟩
      rw [hrest, ← hd]
      rfl

/-- A check has its colon. -/
theorem ReadsCheck.colon_mem {rhs : List Char} {lhs : LeftSide} (h : ReadsCheck cs lhs rhs rest) :
    ':' ∈ cs := by
  cases h
  simp

/-- The run of a right side ends with the closing parentheses behind it. -/
theorem ReadsCheck.append_closing {rhs : List Char} {lhs : LeftSide}
    (h : ReadsCheck cs lhs rhs rest) (hmore : EndsRun more) :
    ReadsCheck (cs ++ ')' :: more) lhs rhs (rest ++ ')' :: more) := by
  cases h with
  | @intro _ written _ after given hlhs hne hrun hafter =>
    cases after with
    | nil =>
      -- one parenthesis more is left to the text
      have hread : ReadsCheck (written ++ ':' :: (rhs ++ (closers (given + 1) ++ more))) lhs rhs
          (closers (given + 1) ++ more) := .intro hlhs hne hrun hmore
      simpa [closers_succ] using hread
    | cons c after =>
      have hblank : EndsRun (c :: after ++ ')' :: more) := fun d hd => hafter d hd
      simpa using ReadsCheck.intro hlhs hne hrun hblank

/-- A symbol is taken as before when a closing parenthesis stands behind the text. A keyword at its
end is no longer one. -/
theorem Lexes.append_closing {s : Symbol} (h : Lexes p cs s q rest)
    (hne : q = .operand → rest ≠ []) (hmore : EndsRun more) :
    Lexes p (cs ++ ')' :: more) s q (rest ++ ')' :: more) := by
  have hskip : ∀ {c tail}, skipBlanks cs = c :: tail →
      skipBlanks (cs ++ ')' :: more) = c :: (tail ++ ')' :: more) := by
    intro c tail hcons
    rw [skipBlanks_append_of_ne_nil (by simp [hcons]), hcons, List.cons_append]
  cases h with
  | not hat => exact .not (hat.append (hne rfl) _)
  | opening h => exact .opening (hskip h)
  | allow h => exact .allow (hskip h)
  | deny h => exact .deny (hskip h)
  | check hnot hopen hcheck =>
    have hfirst : skipBlanks cs ≠ [] := hcheck.skipBlanks_eq.2
    have hcolon : ':' ∈ cs := by
      obtain ⟨blanks, -, hcs⟩ := exists_skipBlanks cs
      rw [hcs]
      exact List.mem_append_right _ hcheck.colon_mem
    refine .check (fun rest' hat => ?_) ?_ ?_
    · obtain ⟨rest', hat⟩ := hat.of_append hcolon
      exact hnot rest' hat
    · rwa [skipBlanks_append_of_ne_nil hfirst, List.head?_append_of_ne_nil _ hfirst]
    · rw [skipBlanks_append_of_ne_nil hfirst]
      exact hcheck.append_closing hmore
  | closing h => exact .closing (hskip h)
  | and hat => exact .and (hat.append (hne rfl) _)
  | or hat => exact .or (hat.append (hne rfl) _)

/-- No operand begins where the text ends. -/
theorem Lexes.ne_nil {s : Symbol} (h : Lexes p cs s q rest) : cs ≠ [] := by
  rintro rfl
  cases h with
  | not hat | and hat | or hat => cases hat.skipBlanks_eq
  | opening h | allow h | deny h | closing h => cases h
  | check _ _ hcheck => exact hcheck.skipBlanks_eq.2 rfl

/-- A text that ends behind an operand is scanned as before when a closing parenthesis stands behind
it. -/
theorem Scans.append_closing (h : Scans p cs ss .operator rest) (hmore : EndsRun more) :
    Scans p (cs ++ ')' :: more) ss .operator (rest ++ ')' :: more) := by
  generalize hq : Place.operator = q at h
  induction h with
  | nil => exact .nil
  | cons hlex hs ih =>
    refine .cons (hlex.append_closing ?_ hmore) (ih hq)
    -- behind a keyword there is an operand
    rintro rfl
    cases hs with
    | nil => cases hq
    | cons hlex' _ => exact hlex'.ne_nil

/-- A text in parentheses is scanned as before, between the two. -/
theorem Scans.group (h : Scans .operand cs ss .operator rest) (hrest : Blanks rest)
    (hmore : EndsRun more) :
    Scans .operand ('(' :: (cs ++ ')' :: more)) (.opening :: (ss ++ [.closing])) .operator more :=
  .cons (.opening (skipBlanks_cons rfl _)) ((h.append_closing hmore).append
    (.single (.closing (skipBlanks_append_cons hrest rfl _))))

/-! ## Groups that are closed directly behind a check -/

/-- In front of anything but a check nothing is gained or lost. -/
theorem closesAtCheck_cons {s : Symbol} (hlex : Lexes p cs s q mid) (hs : s.check? = none) :
    ClosesAtCheck p cs (s :: ss) after ↔ ClosesAtCheck q mid ss after := by
  constructor
  · rintro ⟨before, lhs, rhs, behind, heq, hscan⟩
    cases before with
    | nil =>
      obtain ⟨rfl, -⟩ := List.cons.inj heq
      cases hs
    | cons s' before =>
      obtain ⟨rfl, rfl⟩ := List.cons.inj heq
      cases hscan with
      | cons hlex' hscan =>
        obtain ⟨rfl, rfl⟩ := hlex.same_rest hlex'
        exact ⟨before, lhs, rhs, behind, rfl, hscan⟩
  · rintro ⟨before, lhs, rhs, behind, rfl, hscan⟩
    exact ⟨s :: before, lhs, rhs, behind, rfl, .cons hlex hscan⟩

/-- What is closed in front of a parenthesis is closed there whatever stands behind it. -/
theorem closesAtCheck_append (hscan : Scans p cs (ss ++ [.closing]) .operator mid) :
    ClosesAtCheck p cs (ss ++ .closing :: ts) after ↔
      (∃ inner, ClosesAtCheck p cs (ss ++ [.closing]) inner ∧ after = inner ++ ts) ∨
        ClosesAtCheck .operator mid ts after := by
  constructor
  · rintro ⟨before, lhs, rhs, behind, heq, hdirect⟩
    rcases List.append_eq_append_iff.mp heq with ⟨tail, rfl, htail⟩ | ⟨tail, rfl, htail⟩
    · -- the check stands behind the parenthesis
      cases tail with
      | nil => cases htail
      | cons s tail =>
        obtain ⟨rfl, rfl⟩ := List.cons.inj htail
        have hlater : Scans p cs ((ss ++ [.closing]) ++ (tail ++ [.check lhs rhs])) .operator
            (')' :: behind) := by
          simpa using hdirect
        obtain ⟨q, mid', hfirst, hlater⟩ := hlater.of_append
        obtain ⟨rfl, rfl⟩ := hscan.same_rest hfirst
        exact Or.inr ⟨tail, lhs, rhs, behind, rfl, hlater⟩
    · cases tail with
      | nil => cases htail
      | cons s tail =>
        obtain ⟨rfl, hbehind⟩ := List.cons.inj htail
        cases tail with
        | nil =>
          obtain rfl := (List.cons.inj hbehind).2
          exact Or.inl ⟨[], ⟨before, lhs, rhs, behind, by simp, hdirect⟩, rfl⟩
        | cons s tail =>
          obtain ⟨rfl, rfl⟩ := List.cons.inj hbehind
          exact Or.inl ⟨tail ++ [.closing], ⟨before, lhs, rhs, behind, by simp, hdirect⟩, by simp⟩
  · rintro (⟨inner, ⟨before, lhs, rhs, behind, heq, hdirect⟩, rfl⟩ |
      ⟨before, lhs, rhs, behind, rfl, hdirect⟩)
    · refine ⟨before, lhs, rhs, behind, ?_, hdirect⟩
      rw [List.append_cons, heq, List.append_assoc, List.cons_append, List.cons_append]
    · refine ⟨ss ++ .closing :: before, lhs, rhs, behind, by simp, ?_⟩
      rw [List.append_cons ss, List.append_assoc]
      exact hscan.append hdirect

/-- Behind a check an operator is due. -/
theorem Scans.check_place {before : List Symbol} {lhs : LeftSide} {rhs : List Char}
    (h : Scans p cs (before ++ [.check lhs rhs]) q rest) : q = .operator := by
  obtain ⟨p', mid, -, hcheck⟩ := h.of_append
  cases hcheck.of_single
  rfl

/-- Inside of a group, a parenthesis directly behind a check does not hang on what stands behind the
group; and if something inside could be given back for it, the text trades without the group. -/
theorem ClosesAtCheck.inside {inner : List Symbol} (hscan : Scans .operand cs ss .operator rest)
    (hmore : EndsRun more)
    (h : ClosesAtCheck .operand (cs ++ ')' :: more) (ss ++ [.closing]) inner) :
    (0 < slack inner → Trades cs ss) ∧
      ∀ more', EndsRun more' →
        ClosesAtCheck .operand (cs ++ ')' :: more') (ss ++ [.closing]) inner := by
  obtain ⟨before, lhs, rhs, behind, heq, hdirect⟩ := h
  -- the check is one of the text itself
  obtain ⟨tail, rfl, hclosing⟩ : ∃ tail, ss = (before ++ [.check lhs rhs]) ++ tail ∧
      tail ++ [.closing] = .closing :: inner := by
    rw [List.append_cons before] at heq
    rcases List.append_eq_append_iff.mp heq with ⟨tail, hbefore, htail⟩ | ⟨tail, rfl, htail⟩
    · cases tail with
      | nil => exact ⟨[], by simpa using hbefore.symm, htail⟩
      | cons s tail => simp at htail
    · exact ⟨tail, rfl, htail.symm⟩
  obtain ⟨q, mid, hcheck, htail⟩ := hscan.of_append
  obtain rfl := hcheck.check_place
  -- and so is the parenthesis, or it is the one behind the text
  have hbehind := (hdirect.same_rest (hcheck.append_closing hmore)).2
  have hmid : mid = [] ∨ ∃ mid', mid = ')' :: mid' := by
    cases mid with
    | nil => exact Or.inl rfl
    | cons c mid => exact Or.inr ⟨mid, by rw [(List.cons.inj hbehind).1]⟩
  constructor
  · intro hslack
    cases tail with
    | nil =>
      obtain rfl := (List.cons.inj hclosing).2
      exact absurd hslack (Nat.lt_irrefl 0)
    | cons s tail =>
      obtain ⟨rfl, rfl⟩ := List.cons.inj hclosing
      cases htail with
      | cons hlex _ =>
        obtain ⟨mid', rfl⟩ := hmid.resolve_left hlex.ne_nil
        refine ⟨tail, ⟨before, lhs, rhs, mid', by simp, hcheck⟩, ?_⟩
        simpa [Symbol.spare] using hslack
  · intro more' hmore'
    have hscan' := hcheck.append_closing hmore'
    rw [List.append_assoc, hclosing, ← List.append_cons]
    rcases hmid with rfl | ⟨mid', rfl⟩
    · exact ⟨before, lhs, rhs, _, rfl, hscan'⟩
    · exact ⟨before, lhs, rhs, _, rfl, hscan'⟩

/-! ## One rule in parentheses -/

/-- Inside of a group nothing is traded that is not traded without the group. -/
theorem not_trades_group (hscan : Scans .operand cs ss .operator rest) (h : ¬ Trades cs ss) :
    ¬ Trades ('(' :: (cs ++ [')'])) (.opening :: (ss ++ [.closing])) := by
  rintro ⟨after, hcloses, hslack⟩
  rw [closesAtCheck_cons (.opening (skipBlanks_cons rfl _)) rfl] at hcloses
  exact h ((hcloses.inside hscan endsRun_nil).1 hslack)

theorem toList_group (l : String) : ("(" ++ l ++ ")").toList = '(' :: (l.toList ++ [')']) := by
  simp

/-- **Parentheses around a rule.** They change nothing. -/
theorem parse_group {l : String} {e : Expr} (h : Expr.parse l = .ok e) :
    Expr.parse ("(" ++ l ++ ")") = .ok e := by
  obtain ⟨ss, rest, hscan, hrest, hform, htrades⟩ := exists_scan_of_parse h
  have hgroup := hscan.group hrest endsRun_nil
  have hnot := not_trades_group hscan htrades
  rw [← toList_group] at hgroup hnot
  have hiff := parse_eq_ok_iff_not_trades hgroup blanks_nil (Forms.atom (.group hform)).disjunction
  exact hiff.mpr hnot

/-- Nothing is traded for a symbol at the head of a text that is no check. -/
theorem trades_cons {s : Symbol} (hlex : Lexes .operand cs s .operand mid) (hs : s.check? = none) :
    Trades cs (s :: ss) ↔ Trades mid ss := by
  unfold Trades
  simp only [closesAtCheck_cons hlex hs]

/-- A keyword at the head of a text, in front of a blank. -/
theorem Keyword.at_head (k : Keyword) (rest : List Char) :
    k.At (k.chars ++ ' ' :: rest) (' ' :: rest) := by
  refine ⟨[], blanks_nil, rfl, ?_⟩
  rintro c ⟨⟩
  rfl

theorem lexes_opening_spaced (rest : List Char) :
    Lexes .operand (' ' :: '(' :: rest) .opening .operand rest :=
  .opening (skipBlanks_append_cons blanks_space rfl rest)

theorem toList_negatedGroup (l : String) : ("not (" ++ l ++ ")").toList =
    Keyword.not.chars ++ ' ' :: '(' :: (l.toList ++ [')']) := by
  simp [Keyword.chars]

/-- `not` in front of a rule in parentheses negates just that rule. -/
theorem parse_negatedGroup {l : String} {e : Expr} (h : Expr.parse l = .ok e) :
    Expr.parse ("not (" ++ l ++ ")") = .ok (.not e) := by
  obtain ⟨ss, rest, hscan, hrest, hform, htrades⟩ := exists_scan_of_parse h
  have hlex : Lexes .operand ("not (" ++ l ++ ")").toList .not .operand
      (' ' :: '(' :: (l.toList ++ [')'])) := by
    rw [toList_negatedGroup]
    exact .not (Keyword.not.at_head _)
  have hinner : Scans .operand (l.toList ++ [')']) (ss ++ [.closing]) .operator [] :=
    (hscan.append_closing endsRun_nil).append
      (.single (.closing (skipBlanks_append_cons hrest rfl _)))
  have hwhole := Scans.cons hlex (.cons (lexes_opening_spaced _) hinner)
  have hnot : ¬ Trades ("not (" ++ l ++ ")").toList (.not :: .opening :: (ss ++ [.closing])) := by
    have hgroup := not_trades_group hscan htrades
    rw [trades_cons (.opening (skipBlanks_cons rfl _)) rfl] at hgroup
    rwa [trades_cons hlex rfl, trades_cons (lexes_opening_spaced _) rfl]
  have hforms := (Forms.not (.atom (.group hform))).disjunction
  exact (parse_eq_ok_iff_not_trades hwhole blanks_nil hforms).mpr hnot

/-- **A whole rule in parentheses.** It is the same rule, and `not` in front of it makes its
negation, however many parentheses its right sides end in. -/
theorem parse_enclosed {t : String} {e : Expr} (h : Expr.parse t = .ok e) :
    Expr.parse ("(" ++ t ++ ")") = .ok e ∧
      Expr.parse ("not (" ++ t ++ ")") = .ok (.not e) :=
  ⟨parse_group h, parse_negatedGroup h⟩

/-- In this rule the last check gives back the parenthesis that closes the group, and the others
keep all of theirs. Enclosed, it stays like this. -/
theorem parse_enclosed_spare :
    Expr.parse "a:x) or (b:y)) and c:z)" = .ok (.or (.check (.identifier "a") "x)")
      (.and (.check (.identifier "b") "y))") (.check (.identifier "c") "z"))) ∧
    Expr.parse ("(" ++ "a:x) or (b:y)) and c:z)" ++ ")") =
      .ok (.or (.check (.identifier "a") "x)")
        (.and (.check (.identifier "b") "y))") (.check (.identifier "c") "z"))) ∧
    Expr.parse ("not (" ++ "a:x) or (b:y)) and c:z)" ++ ")") =
      .ok (.not (.or (.check (.identifier "a") "x)")
        (.and (.check (.identifier "b") "y))") (.check (.identifier "c") "z")))) := by
  have h : Expr.parse "a:x) or (b:y)) and c:z)" = .ok (.or (.check (.identifier "a") "x)")
      (.and (.check (.identifier "b") "y))") (.check (.identifier "c") "z"))) := by decide
  exact ⟨h, parse_enclosed h⟩

/-- As the rule that it is, a text has a group that is closed directly behind a check. -/
def ClosesDirectly (text : String) : Prop :=
  ∃ e ss rest after, Expr.parse text = .ok e ∧ Scans .operand text.toList ss .operator rest ∧
    Blanks rest ∧ Forms .disjunction ss e ∧ ClosesAtCheck .operand text.toList ss after

theorem closesDirectly_iff {text : String} {e : Expr} (h : Expr.parse text = .ok e)
    (hscan : Scans .operand text.toList ss .operator rest) (hrest : Blanks rest)
    (hform : Forms .disjunction ss e) :
    ClosesDirectly text ↔ ∃ after, ClosesAtCheck .operand text.toList ss after := by
  constructor
  · rintro ⟨e', ss', rest', after, h', hscan', hrest', hform', hcloses⟩
    obtain rfl := Except.ok.inj (h.symm.trans h')
    have hchecks := hform.checks_eq.symm.trans hform'.checks_eq
    rw [hscan.eq_of_checks hrest hscan' hrest' hchecks]
    exact ⟨after, hcloses⟩
  · rintro ⟨after, hcloses⟩
    exact ⟨e, ss, rest, after, h, hscan, hrest, hform, hcloses⟩

/-! ## Two rules in parentheses -/

/-- The symbols of two rules in parentheses with an operator between them. -/
def joinedSymbols (s : Symbol) (ss ts : List Symbol) : List Symbol :=
  .opening :: (ss ++ .closing :: s :: .opening :: (ts ++ [.closing]))

theorem joinedSymbols_eq (s : Symbol) (ss ts : List Symbol) : joinedSymbols s ss ts =
    (.opening :: (ss ++ [.closing])) ++ s :: (.opening :: (ts ++ [.closing])) := by
  simp [joinedSymbols]

theorem forms_joined_and {ss ts : List Symbol} {e f : Expr} (h : Forms .disjunction ss e)
    (h' : Forms .disjunction ts f) : Forms .disjunction (joinedSymbols .and ss ts) (.and e f) := by
  rw [joinedSymbols_eq]
  exact .conjunction (.and (.unary (.atom (.group h))) (.atom (.group h')))

theorem forms_joined_or {ss ts : List Symbol} {e f : Expr} (h : Forms .disjunction ss e)
    (h' : Forms .disjunction ts f) : Forms .disjunction (joinedSymbols .or ss ts) (.or e f) := by
  rw [joinedSymbols_eq]
  exact .or (.conjunction (.unary (.atom (.group h)))) (.unary (.atom (.group h')))

/-- Two texts in parentheses with an operator between them. -/
def joinedText (s : Symbol) (cs ds : List Char) : List Char :=
  '(' :: (cs ++ ')' :: (s.chars ++ '(' :: (ds ++ [')'])))

/-- An operator is read between two groups, and behind it the parenthesis of the second one. -/
theorem lexes_operator {s : Symbol} (hs : s = .and ∨ s = .or) (rest : List Char) :
    Lexes .operator (s.chars ++ '(' :: rest) s .operand (' ' :: '(' :: rest) := by
  rcases hs with rfl | rfl
  · exact .and (Keyword.and.at_spaced blanks_nil _)
  · exact .or (Keyword.or.at_spaced blanks_nil _)

theorem endsRun_operator {s : Symbol} (hs : s = .and ∨ s = .or) (rest : List Char) :
    EndsRun (s.chars ++ rest) := by
  rcases hs with rfl | rfl <;> (rintro c ⟨⟩; rfl)

section Joined

variable {s : Symbol} {ds rest' : List Char} (hs : s = .and ∨ s = .or)
  (hscan : Scans .operand cs ss .operator rest) (hrest : Blanks rest)
  (hscan' : Scans .operand ds ts .operator rest')

include hs hscan hrest hscan'

theorem scans_joined (hrest' : Blanks rest') :
    Scans .operand (joinedText s cs ds) (joinedSymbols s ss ts) .operator [] := by
  have hleft := hscan.group hrest (endsRun_operator hs ('(' :: (ds ++ [')'])))
  have hright := (hscan'.append_closing endsRun_nil).append
    (.single (.closing (skipBlanks_append_cons hrest' rfl _)))
  have hjoined := hleft.append (.cons (lexes_operator hs _) (.cons (lexes_opening_spaced _) hright))
  simpa [joinedText, joinedSymbols] using hjoined

/-- **Trading between groups.** Where neither of two texts trades on its own, a parenthesis can only
be traded from the first to the second. -/
theorem trades_joined_iff (h : ¬ Trades cs ss) (h' : ¬ Trades ds ts) :
    Trades (joinedText s cs ds) (joinedSymbols s ss ts) ↔
      (∃ inner, ClosesAtCheck .operand (cs ++ [')']) (ss ++ [.closing]) inner) ∧ 0 < slack ts := by
  have hmore := endsRun_operator hs ('(' :: (ds ++ [')']))
  have hfirst : Scans .operand (cs ++ ')' :: (s.chars ++ '(' :: (ds ++ [')']))) (ss ++ [.closing])
      .operator (s.chars ++ '(' :: (ds ++ [')'])) :=
    (hscan.append_closing hmore).append
      (.single (.closing (skipBlanks_append_cons hrest rfl _)))
  have hs' : s.check? = none := by rcases hs with rfl | rfl <;> rfl
  have hsplit : ∀ after, ClosesAtCheck .operand (joinedText s cs ds) (joinedSymbols s ss ts) after ↔
      (∃ inner, ClosesAtCheck .operand (cs ++ ')' :: (s.chars ++ '(' :: (ds ++ [')'])))
        (ss ++ [.closing]) inner ∧ after = inner ++ s :: .opening :: (ts ++ [.closing])) ∨
      ClosesAtCheck .operand (ds ++ [')']) (ts ++ [.closing]) after := by
    intro after
    rw [joinedText, joinedSymbols, closesAtCheck_cons (.opening (skipBlanks_cons rfl _)) rfl,
      closesAtCheck_append hfirst, closesAtCheck_cons (lexes_operator hs _) hs',
      closesAtCheck_cons (lexes_opening_spaced _) rfl]
  have hslack : ∀ inner, slack (inner ++ s :: .opening :: (ts ++ [.closing])) =
      slack inner + slack ts := by
    intro inner
    rcases hs with rfl | rfl <;> simp [Symbol.spare]
  constructor
  · rintro ⟨after, hcloses, hpos⟩
    rcases (hsplit after).mp hcloses with ⟨inner, hinner, rfl⟩ | hinner
    · obtain ⟨htrades, hany⟩ := hinner.inside hscan hmore
      refine ⟨⟨inner, hany [] endsRun_nil⟩, ?_⟩
      -- what comes from the first text itself would have been traded there
      by_contra hzero
      rw [hslack] at hpos
      exact h (htrades (by omega))
    · exact absurd ((hinner.inside hscan' endsRun_nil).1 hpos) h'
  · rintro ⟨⟨inner, hinner⟩, hpos⟩
    have hany := (hinner.inside hscan endsRun_nil).2 _ hmore
    refine ⟨_, (hsplit _).mpr (Or.inl ⟨inner, hany, rfl⟩), ?_⟩
    rw [hslack]
    omega

end Joined

/-- Some right side of two or more characters ends in `)`. -/
def Expr.SparesCloser (e : Expr) : Prop :=
  ∃ c ∈ e.checks, 2 ≤ c.2.length ∧ c.2.getLast? = some ')'

instance : DecidablePred Expr.SparesCloser := fun e =>
  inferInstanceAs (Decidable (∃ c ∈ e.checks, 2 ≤ c.2.length ∧ c.2.getLast? = some ')'))

/-- Two rules in parentheses, joined by an operator that makes `g` of them. -/
theorem parse_joined {s : Symbol} (hs : s = .and ∨ s = .or) {text l r : String} {e f g : Expr}
    (htext : text.toList = joinedText s l.toList r.toList) (hl : Expr.parse l = .ok e)
    (hr : Expr.parse r = .ok f)
    (hg : ∀ ss ts, Forms .disjunction ss e → Forms .disjunction ts f →
      Forms .disjunction (joinedSymbols s ss ts) g) :
    CompleteReading text.toList g ∧
      (Expr.parse text = .ok g ↔ ¬ (ClosesDirectly ("(" ++ l ++ ")") ∧ f.SparesCloser)) := by
  obtain ⟨ss, rest, hscan, hrest, hform, htrades⟩ := exists_scan_of_parse hl
  obtain ⟨ts, rest', hscan', hrest', hform', htrades'⟩ := exists_scan_of_parse hr
  have hjoined := scans_joined hs hscan hrest hscan' hrest'
  have htrade := trades_joined_iff hs hscan hrest hscan' htrades htrades'
  rw [← htext] at hjoined htrade
  have hclosed := hg ss ts hform hform'
  refine ⟨completeReading_iff.mpr ⟨_, _, hjoined, blanks_nil, hclosed⟩, ?_⟩
  have hgroup := hscan.group hrest endsRun_nil
  rw [← toList_group] at hgroup
  rw [parse_eq_ok_iff_not_trades hjoined blanks_nil hclosed, htrade, slack_pos_iff,
    ← hform'.checks_eq, closesDirectly_iff (parse_group hl) hgroup blanks_nil
      (Forms.atom (.group hform)).disjunction, toList_group]
  simp only [closesAtCheck_cons (.opening (skipBlanks_cons rfl _)) rfl, Expr.SparesCloser]

/-- **Rules in parentheses.** The parentheses of `(l) and (r)` and of `(l) or (r)` delimit the two
rules in one of the readings. It is the one that the text is parsed to, unless a parenthesis of
`(l)` that closes a group stands directly behind a check, which takes it, and `r` can spare
another. -/
theorem parse_groups {l r : String} {e f : Expr} (hl : Expr.parse l = .ok e)
    (hr : Expr.parse r = .ok f) :
    (CompleteReading ("(" ++ l ++ ") and (" ++ r ++ ")").toList (.and e f) ∧
      (Expr.parse ("(" ++ l ++ ") and (" ++ r ++ ")") = .ok (.and e f) ↔
        ¬ (ClosesDirectly ("(" ++ l ++ ")") ∧ f.SparesCloser))) ∧
    (CompleteReading ("(" ++ l ++ ") or (" ++ r ++ ")").toList (.or e f) ∧
      (Expr.parse ("(" ++ l ++ ") or (" ++ r ++ ")") = .ok (.or e f) ↔
        ¬ (ClosesDirectly ("(" ++ l ++ ")") ∧ f.SparesCloser))) := by
  constructor
  · exact parse_joined (Or.inl rfl) (by simp [joinedText, Symbol.chars]) hl hr
      fun _ _ => forms_joined_and
  · exact parse_joined (Or.inr rfl) (by simp [joinedText, Symbol.chars]) hl hr
      fun _ _ => forms_joined_or

/-- Groups that are closed directly behind checks keep their parentheses if no later right side can
spare one. -/
theorem parse_groups_nested :
    Expr.parse "not (a:f(x))" = .ok (.not (.check (.identifier "a") "f(x)")) ∧
    Expr.parse "b:y or (c:z)" =
      .ok (.or (.check (.identifier "b") "y") (.check (.identifier "c") "z")) ∧
    Expr.parse ("(" ++ "not (a:f(x))" ++ ") and (" ++ "b:y or (c:z)" ++ ")") =
      .ok (.and (.not (.check (.identifier "a") "f(x)"))
        (.or (.check (.identifier "b") "y") (.check (.identifier "c") "z"))) := by
  have hl : Expr.parse "not (a:f(x))" = .ok (.not (.check (.identifier "a") "f(x)")) := by decide
  have hr : Expr.parse "b:y or (c:z)" =
      .ok (.or (.check (.identifier "b") "y") (.check (.identifier "c") "z")) := by decide
  exact ⟨hl, hr, (parse_groups hl hr).1.2.mpr fun h => absurd h.2 (by decide)⟩

/-- The check of the first group takes the parenthesis behind it, and the check of the second group
gives its own one back. -/
theorem parse_groups_trading :
    Expr.parse "a:x" = .ok (.check (.identifier "a") "x") ∧
    Expr.parse "b:y)" = .ok (.check (.identifier "b") "y)") ∧
    Expr.parse ("(" ++ "a:x" ++ ") and (" ++ "b:y)" ++ ")") =
      .ok (.and (.check (.identifier "a") "x)") (.check (.identifier "b") "y")) ∧
    ¬ ∀ l r e f, Expr.parse l = .ok e → Expr.parse r = .ok f →
      Expr.parse ("(" ++ l ++ ") and (" ++ r ++ ")") = .ok (.and e f) ∧
      Expr.parse ("(" ++ l ++ ") or (" ++ r ++ ")") = .ok (.or e f) := by
  have hl : Expr.parse "a:x" = .ok (.check (.identifier "a") "x") := by decide
  have hr : Expr.parse "b:y)" = .ok (.check (.identifier "b") "y)") := by decide
  have hparse : Expr.parse ("(" ++ "a:x" ++ ") and (" ++ "b:y)" ++ ")") =
      .ok (.and (.check (.identifier "a") "x)") (.check (.identifier "b") "y")) := by decide
  refine ⟨hl, hr, hparse, fun h => ?_⟩
  have hclaimed := (h _ _ _ _ hl hr).1
  rw [hparse] at hclaimed
  revert hclaimed
  decide

/-- A blank in front of the parenthesis keeps the check from taking it. -/
example : Expr.parse "(a:x ) and (b:y))" =
    .ok (.and (.check (.identifier "a") "x") (.check (.identifier "b") "y)")) := by decide

end AccessPolicy
