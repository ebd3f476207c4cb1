import AccessPolicy.Proofs.Greedy
import AccessPolicy.Proofs.LeftNested

/-!
# Rendered expressions

A rendered expression is the layout of its symbols, and a layout of well-formed symbols is scanned
as those symbols (`scans_layout`). So the left-nested form is always one of the readings of a
rendered expression. Main statement: `parse_render_eq_iff`, it is the rule, unless a group is closed
right behind a check and some later check could give a closing parenthesis back (`LosesCloser`). In
a layout nothing stands between the two, so the check takes the parenthesis and the later one pays
for it (`trades_layout_iff`).
-/

namespace AccessPolicy

/-! ## Well-formed expressions -/

/-- A left side that is read back as it is written: no name looks like the beginning of another
atom or like the keyword `not`. -/
def LeftSide.WellFormed : LeftSide → Prop
  | .literal value => value.toList ≠ [] ∧ ∀ c ∈ value.toList, isLeftSideChar c = true
  | .identifier name =>
    name.toList ≠ [] ∧ (∀ c ∈ name.toList, isLeftSideChar c = true) ∧
      (∀ c, name.toList.head? = some c → opensAtom c = false) ∧
      ∀ c more, name.toList = Keyword.not.chars ++ c :: more → opensAtom c = false

/-- A check that is read back as it is written. -/
def WellFormedCheck (c : LeftSide × List Char) : Prop :=
  c.1.WellFormed ∧ c.2 ≠ [] ∧ ∀ d ∈ c.2, isBlank d = false

/-- An expression of checks that are read back as they are written. -/
def Expr.WellFormed (e : Expr) : Prop := ∀ c ∈ e.checks, WellFormedCheck c

theorem LeftSide.WellFormed.written {lhs : LeftSide} (h : lhs.WellFormed) :
    lhs.Written lhs.chars := by
  cases lhs with
  | literal value =>
    have hwritten := LeftSide.Written.quoted (show isQuote '\'' = true from rfl) h.1 h.2
    rwa [String.ofList_toList] at hwritten
  | identifier name =>
    have hwritten := LeftSide.Written.bare h.1 h.2.1
    rwa [String.ofList_toList] at hwritten

/-- A left side begins with a character that begins no other atom. -/
theorem LeftSide.WellFormed.exists_cons {lhs : LeftSide} (h : lhs.WellFormed) :
    ∃ c more, lhs.chars = c :: more ∧ isBlank c = false ∧ opensAtom c = false := by
  cases lhs with
  | literal value => exact ⟨_, _, rfl, rfl, rfl⟩
  | identifier name =>
    obtain ⟨hne, hchars, hopen, -⟩ := h
    obtain ⟨c, more, hcons⟩ := List.exists_cons_of_ne_nil hne
    refine ⟨c, more, hcons, isBlank_of_isLeftSideChar (hchars c ?_), hopen c ?_⟩
    · rw [hcons]
      exact List.mem_cons_self ..
    · rw [hcons]
      rfl

/-- A left side ends no keyword, unless one of its characters begins another atom. -/
theorem opensAtom_of_endsKeyword {c : Char} (h : endsKeyword c = true)
    (hc : isLeftSideChar c = true) : opensAtom c = true := by
  simp only [isLeftSideChar, Bool.not_eq_true', Bool.or_eq_false_iff] at hc
  simp only [endsKeyword, hc.1.1, Bool.false_or, Bool.or_eq_true, decide_eq_true_eq] at h
  rcases h with (h | h) | h
  · simp [opensAtom, h]
  · simp [opensAtom, h]
  · simp [opensAtom, h]

/-- No left side is taken for the keyword `not`. -/
theorem LeftSide.WellFormed.not_at {lhs : LeftSide} (h : lhs.WellFormed) {blanks : List Char}
    (hb : Blanks blanks) (rest rest' : List Char) :
    ¬ Keyword.not.At (blanks ++ (lhs.chars ++ ':' :: rest)) rest' := by
  intro hat
  obtain ⟨blanks', hb', heq, hend⟩ := hat
  obtain ⟨c, more, hcons, hblank, -⟩ := h.exists_cons
  have hskip := congrArg skipBlanks heq
  rw [skipBlanks_append hb', Keyword.skipBlanks_chars, hcons, List.cons_append,
    skipBlanks_append_cons hb hblank, ← List.cons_append, ← hcons] at hskip
  cases lhs with
  | literal value => cases hskip
  | identifier name =>
    obtain ⟨-, hchars, -, hnot⟩ := h
    rcases List.append_eq_append_iff.mp hskip with ⟨tail, hword, hrest⟩ | ⟨tail, hname, hrest⟩
    · -- the colon would be a letter of the keyword, or end it
      cases tail with
      | nil =>
        cases hend ':' (by rw [← List.nil_append rest', ← hrest]; rfl)
      | cons d tail =>
        obtain ⟨rfl, -⟩ := List.cons.inj hrest
        have hmem : ':' ∈ Keyword.not.chars := by rw [hword]; simp
        simp [Keyword.chars] at hmem
    · cases tail with
      | nil => cases hend ':' (by rw [hrest]; rfl)
      | cons d tail =>
        have hd : isLeftSideChar d = true := by
          refine hchars d ?_
          rw [show name.toList = _ from hname]
          simp
        have hopens := opensAtom_of_endsKeyword (hend d (by rw [hrest]; rfl)) hd
        rw [hnot d tail hname] at hopens
        cases hopens

/-- A check that is read is read back as it is written. -/
theorem Lexes.wellFormedCheck {p q : Place} {cs rest : List Char} {s : Symbol}
    {c : LeftSide × List Char} (h : Lexes p cs s q rest) (hc : s.check? = some c) :
    WellFormedCheck c := by
  cases h with
  | @check _ lhs rhs rest hnot hopen h =>
    obtain rfl := Option.some.inj hc
    obtain ⟨blanks, hb, hcs⟩ := exists_skipBlanks cs
    generalize skipBlanks cs = text at hopen h hcs
    cases h with
    | @intro _ written _ after given hlhs hne hrun hafter =>
      refine ⟨?_, hne, hrun⟩
      cases hlhs with
      | quoted hquote hvalue hchars =>
        rw [LeftSide.WellFormed, String.toList_ofList]
        exact ⟨hvalue, hchars⟩
      | bare hname hchars =>
        rw [LeftSide.WellFormed, String.toList_ofList]
        refine ⟨hname, hchars, ?_, ?_⟩
        · intro c hc
          refine hopen c ?_
          rw [List.head?_append, hc]
          rfl
        · -- otherwise the name would have been taken for the keyword
          intro c more heq
          by_contra hopens
          refine hnot (c :: (more ++ ':' :: (rhs ++ (closers given ++ after))))
            ⟨blanks, hb, by rw [hcs, heq]; simp, ?_⟩
          intro d hd
          obtain rfl := Option.some.inj hd
          simp only [opensAtom, Bool.not_eq_false, Bool.or_eq_true, decide_eq_true_eq] at hopens
          rcases hopens with (rfl | rfl) | rfl <;> rfl
  | _ => cases hc

theorem Scans.wellFormed {p q : Place} {cs rest : List Char} {ss : List Symbol}
    (h : Scans p cs ss q rest) : ∀ c ∈ ss.filterMap Symbol.check?, WellFormedCheck c := by
  induction h with
  | nil => nofun
  | cons hlex _ ih =>
    intro c hc
    obtain ⟨s, hs, hsc⟩ := List.mem_filterMap.mp hc
    rcases List.mem_cons.mp hs with rfl | hs
    · exact hlex.wellFormedCheck hsc
    · exact ih c (List.mem_filterMap.mpr ⟨s, hs, hsc⟩)

/-- Whatever is parsed is well-formed. -/
theorem wellFormed_of_parse {text : String} {e : Expr} (h : Expr.parse text = .ok e) :
    e.WellFormed := by
  obtain ⟨ss, rest, hscan, -, hform⟩ := completeReading_iff.mp (completeReading_of_parse h)
  rw [Expr.WellFormed, hform.checks_eq]
  exact hscan.wellFormed

/-! ## Layout -/

/-- A symbol as it is written, operators with the blanks around them. -/
def Symbol.chars : Symbol → List Char
  | .opening => ['(']
  | .closing => [')']
  | .and => [' ', 'a', 'n', 'd', ' ']
  | .or => [' ', 'o', 'r', ' ']
  | .not => ['n', 'o', 't', ' ']
  | .const true => ['@']
  | .const false => ['!']
  | .check lhs rhs => lhs.chars ++ ':' :: rhs

/-- A sequence of symbols as it is written. -/
def layout (ss : List Symbol) : List Char := ss.flatMap Symbol.chars

@[simp] theorem layout_nil : layout [] = [] := rfl

@[simp] theorem layout_cons (s : Symbol) (ss : List Symbol) :
    layout (s :: ss) = s.chars ++ layout ss := rfl

@[simp] theorem layout_append (ss ts : List Symbol) : layout (ss ++ ts) = layout ss ++ layout ts :=
  List.flatMap_append

theorem layout_grouped (needed : Bool) (ss : List Symbol) :
    layout (groupedSymbols needed ss) = Expr.grouped needed (layout ss) := by
  cases needed with
  | false => rfl
  | true => simp [groupedSymbols, Expr.grouped, Symbol.chars]

/-- An expression is written symbol by symbol. -/
theorem layout_symbols (e : Expr) : layout e.symbols = e.chars := by
  induction e with
  | const value => cases value <;> rfl
  | check => simp [Expr.symbols, Expr.chars, Symbol.chars]
  | and left right ihleft ihright =>
    simp [Expr.symbols, Expr.chars, Symbol.chars, layout_grouped, ihleft, ihright]
  | or left right ihleft ihright =>
    simp [Expr.symbols, Expr.chars, Symbol.chars, ihleft, ihright]
  | not operand ih => simp [Expr.symbols, Expr.chars, Symbol.chars, layout_grouped, ih]

/-- Behind a check there are closing parentheses, and then a blank or nothing. -/
theorem Nests.layout_eq_closers {n : Nat} {ss : List Symbol} (h : Nests .operator n ss) :
    ∃ k after, layout ss = closers k ++ after ∧ EndsRun after := by
  generalize hp : Place.operator = p at h
  induction h with
  | done => exact ⟨0, [], rfl, nofun⟩
  | closing _ ih =>
    obtain ⟨k, after, hlayout, hafter⟩ := ih hp
    exact ⟨k + 1, after, by rw [layout_cons, hlayout]; rfl, hafter⟩
  | and _ | or _ => exact ⟨0, _, rfl, by rintro c ⟨⟩; rfl⟩
  | _ => cases hp

theorem blanks_nil : Blanks [] := nofun

theorem blanks_space : Blanks [' '] := by
  intro c hc
  rw [List.mem_singleton.mp hc]
  rfl

theorem Keyword.at_spaced (k : Keyword) {blanks : List Char} (hb : Blanks blanks)
    (rest : List Char) : k.At (blanks ++ ' ' :: (k.chars ++ ' ' :: rest)) (' ' :: rest) := by
  refine ⟨blanks ++ [' '], ?_, by simp, ?_⟩
  · intro c hc
    rcases List.mem_append.mp hc with hc | hc
    · exact hb c hc
    · exact blanks_space c hc
  · rintro c ⟨⟩
    rfl

/-- A well-formed check is taken where it is written, up to the closing parentheses behind it. -/
theorem lexes_check {lhs : LeftSide} {rhs blanks after : List Char}
    (h : WellFormedCheck (lhs, rhs)) (hb : Blanks blanks) (n : Nat) (hafter : EndsRun after) :
    Lexes .operand (blanks ++ (lhs.chars ++ ':' :: (rhs ++ (closers n ++ after)))) (.check lhs rhs)
      .operator (closers n ++ after) := by
  obtain ⟨hlhs, hne, hrun⟩ := h
  obtain ⟨c, more, hcons, hblank, hopen⟩ := hlhs.exists_cons
  have hskip : skipBlanks (blanks ++ (lhs.chars ++ ':' :: (rhs ++ (closers n ++ after)))) =
      lhs.chars ++ ':' :: (rhs ++ (closers n ++ after)) := by
    rw [hcons]
    exact skipBlanks_append_cons hb hblank _
  refine .check (hlhs.not_at hb _) ?_ ?_
  · rw [hskip, hcons]
    rintro _ ⟨⟩
    exact hopen
  · rw [hskip]
    exact .intro hlhs.written hne hrun hafter

/-- In a layout, the next symbol is the one that was written, and behind a check there is nothing
that was written between symbols. -/
theorem lexes_layout {p : Place} {n : Nat} {s : Symbol} {ss : List Symbol} {blanks : List Char}
    (h : Nests p n (s :: ss)) (hwf : ∀ c, s.check? = some c → WellFormedCheck c)
    (hb : Blanks blanks) :
    ∃ q m blanks', Lexes p (blanks ++ layout (s :: ss)) s q (blanks' ++ layout ss) ∧ Nests q m ss ∧
      Blanks blanks' ∧ (s.check? ≠ none → blanks' = []) := by
  cases h with
  | opening h =>
    exact ⟨_, _, [], .opening (skipBlanks_append_cons hb rfl _), h, nofun, fun _ => rfl⟩
  | not h =>
    refine ⟨_, _, [' '], .not ⟨blanks, hb, rfl, ?_⟩, h, blanks_space,
      fun hcheck => absurd rfl hcheck⟩
    rintro c ⟨⟩
    rfl
  | @const _ value _ h =>
    cases value with
    | true => exact ⟨_, _, [], .allow (skipBlanks_append_cons hb rfl _), h, nofun, fun _ => rfl⟩
    | false => exact ⟨_, _, [], .deny (skipBlanks_append_cons hb rfl _), h, nofun, fun _ => rfl⟩
  | @check n lhs rhs ss hnests =>
    -- the run of the right side ends where the closing parentheses behind it do
    obtain ⟨k, after, hlayout, hafter⟩ := hnests.layout_eq_closers
    refine ⟨_, _, [], ?_, hnests, nofun, fun _ => rfl⟩
    rw [layout_cons, Symbol.chars, List.append_assoc, List.cons_append, hlayout]
    exact lexes_check (hwf _ rfl) hb k hafter
  | closing h =>
    exact ⟨_, _, [], .closing (skipBlanks_append_cons hb rfl _), h, nofun, fun _ => rfl⟩
  | and h =>
    exact ⟨_, _, [' '], .and (Keyword.and.at_spaced hb _), h, blanks_space,
      fun hcheck => absurd rfl hcheck⟩
  | or h =>
    exact ⟨_, _, [' '], .or (Keyword.or.at_spaced hb _), h, blanks_space,
      fun hcheck => absurd rfl hcheck⟩

theorem scans_layout_append {after : List Symbol} :
    ∀ {before : List Symbol} {p : Place} {n : Nat} {blanks : List Char},
      Nests p n (before ++ after) → (∀ c ∈ before.filterMap Symbol.check?, WellFormedCheck c) →
      Blanks blanks →
      ∃ q m blanks',
        Scans p (blanks ++ layout (before ++ after)) before q (blanks' ++ layout after) ∧
          Nests q m after ∧ Blanks blanks' := by
  intro before
  induction before with
  | nil => exact fun h _ hb => ⟨_, _, _, .nil, h, hb⟩
  | cons s before ih =>
    intro p n blanks h hwf hb
    have hs : ∀ c, s.check? = some c → WellFormedCheck c := by
      intro c hc
      exact hwf c (List.mem_filterMap.mpr ⟨s, List.mem_cons_self .., hc⟩)
    obtain ⟨q, m, blanks', hlex, hnests, hb', -⟩ := lexes_layout h hs hb
    have hbefore : ∀ c ∈ before.filterMap Symbol.check?, WellFormedCheck c := by
      intro c hc
      obtain ⟨t, ht, htc⟩ := List.mem_filterMap.mp hc
      exact hwf c (List.mem_filterMap.mpr ⟨t, List.mem_cons_of_mem _ ht, htc⟩)
    obtain ⟨q', m', blanks'', hscan, hafter, hb''⟩ := ih hnests hbefore hb'
    exact ⟨q', m', blanks'', .cons hlex hscan, hafter, hb''⟩

/-- **Layouts.** Well-formed symbols are scanned as they are, where they complete a rule. -/
theorem scans_layout {ss : List Symbol} (h : Nests .operand 0 ss)
    (hwf : ∀ c ∈ ss.filterMap Symbol.check?, WellFormedCheck c) :
    ∃ rest, Scans .operand (layout ss) ss .operator rest ∧ Blanks rest := by
  rw [← List.append_nil ss] at h
  obtain ⟨q, m, rest, hscan, hdone, hrest⟩ := scans_layout_append h hwf blanks_nil
  cases hdone
  exact ⟨rest, by simpa using hscan, hrest⟩

/-! ## Readings of rendered expressions -/

theorem checks_symbols (e : Expr) : e.symbols.filterMap Symbol.check? = e.checks := by
  have hgrouped : ∀ needed ss, (groupedSymbols needed ss).filterMap Symbol.check? =
      ss.filterMap Symbol.check? := by
    intro needed ss
    cases needed with
    | false => rfl
    | true =>
      rw [groupedSymbols, if_pos rfl, List.filterMap_cons, List.filterMap_append]
      exact List.append_nil _
  induction e with
  | const | check => rfl
  | and left right ihleft ihright =>
    rw [Expr.symbols, List.filterMap_append, List.filterMap_cons, hgrouped, hgrouped, ihleft,
      ihright]
    rfl
  | or left right ihleft ihright =>
    rw [Expr.symbols, List.filterMap_append, List.filterMap_cons, ihleft, ihright]
    rfl
  | not operand ih =>
    rw [Expr.symbols, List.filterMap_cons, hgrouped, ih]
    rfl

theorem nests_symbols (e : Expr) : Nests .operand 0 e.symbols :=
  exists_forms_iff.mp ⟨_, forms_leftNested e⟩

@[simp] theorem Expr.toList_render (e : Expr) : e.render.toList = e.chars := String.toList_ofList

/-- A rendered expression is scanned as its symbols. -/
theorem scans_symbols {e : Expr} (hwf : e.WellFormed) :
    ∃ rest, Scans .operand e.chars e.symbols .operator rest ∧ Blanks rest := by
  rw [← layout_symbols e]
  exact scans_layout (nests_symbols e) (by rwa [checks_symbols])

/-- The left-nested form is a reading of the rendered expression. -/
theorem completeReading_leftNested {e : Expr} (hwf : e.WellFormed) :
    CompleteReading e.render.toList e.leftNested := by
  obtain ⟨rest, hscan, hrest⟩ := scans_symbols hwf
  rw [Expr.toList_render]
  exact completeReading_iff.mpr ⟨_, rest, hscan, hrest, forms_leftNested e⟩

/-! ## Parentheses that are lost -/

/-- A group is closed right behind a check, and a later check could give a parenthesis back. -/
def LosesCloser (ss : List Symbol) : Prop :=
  ∃ before lhs rhs after, ss = before ++ .check lhs rhs :: .closing :: after ∧ 0 < slack after

theorem losesCloser_cons {s : Symbol} {ss : List Symbol} :
    LosesCloser (s :: ss) ↔
      (s.check? ≠ none ∧ ss.head? = some .closing ∧ 0 < slack ss) ∨ LosesCloser ss := by
  constructor
  · intro ⟨before, lhs, rhs, after, heq, hslack⟩
    cases before with
    | nil =>
      obtain ⟨rfl, rfl⟩ := List.cons.inj heq
      refine Or.inl ⟨nofun, rfl, ?_⟩
      rw [slack_cons]
      omega
    | cons s' before =>
      obtain ⟨rfl, rfl⟩ := List.cons.inj heq
      exact Or.inr ⟨before, lhs, rhs, after, rfl, hslack⟩
  · intro h
    rcases h with ⟨hcheck, hhead, hslack⟩ | ⟨before, lhs, rhs, after, rfl, hslack⟩
    · obtain ⟨after, rfl⟩ := List.head?_eq_some_iff.mp hhead
      rw [slack_cons, show Symbol.closing.spare = 0 from rfl, Nat.zero_add] at hslack
      cases s with
      | check lhs rhs => exact ⟨[], lhs, rhs, after, rfl, hslack⟩
      | _ => exact absurd rfl hcheck
    · exact ⟨s :: before, lhs, rhs, after, rfl, hslack⟩

instance decidableLosesCloser : DecidablePred LosesCloser
  | [] => isFalse fun ⟨before, _, _, _, heq, _⟩ => by simp at heq
  | _ :: ss =>
    have := decidableLosesCloser ss
    decidable_of_iff _ losesCloser_cons.symm

example : LosesCloser [.opening, .check (.identifier "a") ['x'], .closing, .and,
    .check (.identifier "b") ['y', ')']] := by decide

/-- In a layout, whatever closes a group right behind a check stands directly behind it. -/
theorem trades_layout_iff {ss : List Symbol} (h : Nests .operand 0 ss)
    (hwf : ∀ c ∈ ss.filterMap Symbol.check?, WellFormedCheck c) :
    Trades (layout ss) ss ↔ LosesCloser ss := by
  constructor
  · intro htrades
    obtain ⟨after, ⟨before, lhs, rhs, rest, heq, -⟩, hslack⟩ := htrades
    exact ⟨before, lhs, rhs, after, heq, hslack⟩
  · intro ⟨before, lhs, rhs, after, heq, hslack⟩
    subst heq
    rw [List.filterMap_append, List.forall_mem_append] at hwf
    obtain ⟨q, m, blanks, hbefore, hnests, hb⟩ := scans_layout_append h hwf.1 blanks_nil
    have hcheck : ∀ c, (Symbol.check lhs rhs).check? = some c → WellFormedCheck c := by
      intro c hc
      obtain rfl := Option.some.inj hc
      exact hwf.2 _ (List.mem_cons_self ..)
    obtain ⟨q', m', blanks', hlex, hclosing, -, hdirect⟩ := lexes_layout hnests hcheck hb
    obtain rfl := hdirect nofun
    cases hclosing
    exact ⟨after, ⟨before, lhs, rhs, layout after, rfl, hbefore.append (.single hlex)⟩, hslack⟩

/-- **Rendered expressions.** They are parsed, and to their left-nested form unless a parenthesis of
a group is lost to a check. -/
theorem parse_render_eq_iff {e : Expr} (hwf : e.WellFormed) :
    ∃ e', Expr.parse e.render = .ok e' ∧ (e' = e.leftNested ↔ ¬ LosesCloser e.symbols) := by
  have hwfSymbols : ∀ c ∈ e.symbols.filterMap Symbol.check?, WellFormedCheck c := by
    rwa [checks_symbols]
  have htrades := trades_layout_iff (nests_symbols e) hwfSymbols
  rw [layout_symbols, ← Expr.toList_render] at htrades
  obtain ⟨rest, hscan, hrest⟩ := scans_symbols hwf
  rw [← Expr.toList_render] at hscan
  have hiff := parse_eq_ok_iff_not_trades hscan hrest (forms_leftNested e)
  obtain ⟨e', hparse⟩ := exists_parse (completeReading_leftNested hwf)
  refine ⟨e', hparse, ?_⟩
  rw [← htrades, ← hiff, hparse]
  exact ⟨congrArg Except.ok, Except.ok.inj⟩

end AccessPolicy
