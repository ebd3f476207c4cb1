import AccessPolicy.Proofs.Grouping

/-!
# Which expressions are rules

Main statement: `parse_image`, the expressions that texts are parsed to are the well-formed ones.
Whatever is parsed is well-formed (`wellFormed_of_parse`), and that is all that can be said of it:
every well-formed expression is the rule of some text, and the text can be given. `Expr.writtenOut`
puts every operand in parentheses and a blank in front of every closing one.

The blanks are what makes it work. Where each right side ends in front of a blank, no parenthesis
stands directly behind a check, so none can be taken by one, and the text has no reading that is
preferred to the one it was written for (`parse_of_scansApart`).
-/

namespace AccessPolicy

/-! ## Blanks behind checks -/

/-- The symbols at the head of a text, where each right side is followed by a blank or nothing. -/
inductive ScansApart : Place → List Char → List Symbol → Place → List Char → Prop
  | nil {p cs} : ScansApart p cs [] p cs
  | cons {p cs s p' mid ss q rest} (h : Lexes p cs s p' mid)
      (hapart : s.check? ≠ none → EndsRun mid) (hs : ScansApart p' mid ss q rest) :
      ScansApart p cs (s :: ss) q rest

namespace ScansApart

variable {p q r : Place} {cs mid rest : List Char} {ss ts after : List Symbol}

theorem single {s : Symbol} (h : Lexes p cs s q rest) (hs : s.check? = none) :
    ScansApart p cs [s] q rest :=
  .cons h (fun hne => absurd hs hne) .nil

theorem append (h : ScansApart p cs ss q mid) (h' : ScansApart q mid ts r rest) :
    ScansApart p cs (ss ++ ts) r rest := by
  induction h with
  | nil => exact h'
  | cons hlex hapart _ ih => exact .cons hlex hapart (ih h')

theorem scans (h : ScansApart p cs ss q rest) : Scans p cs ss q rest := by
  induction h with
  | nil => exact .nil
  | cons hlex _ _ ih => exact .cons hlex ih

/-- No parenthesis stands directly behind a check. -/
theorem not_closesAtCheck (h : ScansApart p cs ss q rest) : ¬ ClosesAtCheck p cs ss after := by
  induction h with
  | nil =>
    intro ⟨before, lhs, rhs, behind, heq, _⟩
    cases before <;> cases heq
  | @cons p cs s p' mid ss q rest hlex hapart _ ih =>
    intro ⟨before, lhs, rhs, behind, heq, hscan⟩
    cases before with
    | nil =>
      obtain ⟨rfl, -⟩ := List.cons.inj heq
      obtain ⟨-, rfl⟩ := hlex.same_rest hscan.of_single
      -- the parenthesis would have to be a blank
      cases hapart nofun ')' rfl
    | cons s' before =>
      obtain ⟨rfl, rfl⟩ := List.cons.inj heq
      cases hscan with
      | cons hlex' hscan =>
        obtain ⟨rfl, rfl⟩ := hlex.same_rest hlex'
        exact ih ⟨before, lhs, rhs, behind, rfl, hscan⟩

end ScansApart

/-- **Blanks behind checks.** A reading where each right side is followed by a blank or by nothing
is the rule of its text. -/
theorem parse_of_scansApart {text : String} {ss : List Symbol} {rest : List Char} {e : Expr}
    (h : ScansApart .operand text.toList ss .operator rest) (hrest : Blanks rest)
    (hform : Forms .disjunction ss e) : Expr.parse text = .ok e := by
  rw [parse_eq_ok_iff_not_trades h.scans hrest hform]
  intro ⟨after, hcloses, _⟩
  exact h.not_closesAtCheck hcloses

/-! ## Written out -/

/-- An expression with all its operands in parentheses, and a blank next to each of them. -/
def Expr.writtenOut : Expr → String
  | .const value => (Expr.const value).render
  | .check lhs rhs => (Expr.check lhs rhs).render
  | .and left right => "( " ++ left.writtenOut ++ " ) and ( " ++ right.writtenOut ++ " )"
  | .or left right => "( " ++ left.writtenOut ++ " ) or ( " ++ right.writtenOut ++ " )"
  | .not operand => "not ( " ++ operand.writtenOut ++ " )"

/-- The symbols that an expression is written out with. -/
def Expr.outerSymbols : Expr → List Symbol
  | .const value => [.const value]
  | .check lhs rhs => [.check lhs rhs.toList]
  | .and left right => joinedSymbols .and left.outerSymbols right.outerSymbols
  | .or left right => joinedSymbols .or left.outerSymbols right.outerSymbols
  | .not operand => .not :: .opening :: (operand.outerSymbols ++ [.closing])

theorem forms_outerSymbols (e : Expr) : Forms .disjunction e.outerSymbols e := by
  induction e with
  | const => exact .conjunction (.unary (.atom .const))
  | check lhs rhs =>
    have hcheck := @Forms.check lhs rhs.toList
    rw [String.ofList_toList] at hcheck
    exact .conjunction (.unary (.atom hcheck))
  | and left right ihleft ihright => exact forms_joined_and ihleft ihright
  | or left right ihleft ihright => exact forms_joined_or ihleft ihright
  | not operand ih => exact .conjunction (.unary (.not (.atom (.group ih))))

theorem endsRun_blank (cs : List Char) : EndsRun (' ' :: cs) := by
  rintro c ⟨⟩
  rfl

/-- An operand between blanks, whatever follows. -/
def StandsApart (cs : List Char) (ss : List Symbol) : Prop :=
  ∀ rest, EndsRun rest → ScansApart .operand (' ' :: (cs ++ rest)) ss .operator rest

/-- A group is scanned as the operand inside of it. -/
theorem scansApart_group {blanks cs : List Char} {ss : List Symbol} (hb : Blanks blanks)
    (h : StandsApart cs ss) (rest : List Char) :
    ScansApart .operand (blanks ++ '(' :: ' ' :: (cs ++ ' ' :: ')' :: rest))
      (.opening :: (ss ++ [.closing])) .operator rest := by
  have hclosing : Lexes .operator (' ' :: ')' :: rest) .closing .operator rest :=
    .closing (skipBlanks_append_cons blanks_space rfl rest)
  exact .cons (.opening (skipBlanks_append_cons hb rfl _)) (fun hne => absurd rfl hne)
    ((h _ (endsRun_blank _)).append (.single hclosing rfl))

/-- Two groups are scanned one after the other. -/
theorem scansApart_joined {s : Symbol} (hs : s = .and ∨ s = .or) {blanks cs ds : List Char}
    {ss ts : List Symbol} (hb : Blanks blanks) (h : StandsApart cs ss) (h' : StandsApart ds ts)
    (rest : List Char) :
    ScansApart .operand
      (blanks ++ '(' :: ' ' :: (cs ++ ' ' :: ')' ::
        (s.chars ++ '(' :: ' ' :: (ds ++ ' ' :: ')' :: rest))))
      (joinedSymbols s ss ts) .operator rest := by
  have hnone : s.check? = none := by rcases hs with rfl | rfl <;> rfl
  have hright := scansApart_group blanks_space h' rest
  have hjoined := (scansApart_group hb h _).append
    (.cons (lexes_operator hs _) (fun hne => absurd hnone hne) hright)
  simpa [joinedSymbols] using hjoined

/-- A written-out expression is scanned as it is written, whatever follows it behind a blank. -/
theorem scansApart_writtenOut {e : Expr} (hwf : e.WellFormed) {blanks rest : List Char}
    (hb : Blanks blanks) (hrest : EndsRun rest) :
    ScansApart .operand (blanks ++ (e.writtenOut.toList ++ rest)) e.outerSymbols .operator rest := by
  induction e generalizing blanks rest with
  | const value =>
    cases value with
    | true => exact .single (.allow (skipBlanks_append_cons hb rfl rest)) rfl
    | false => exact .single (.deny (skipBlanks_append_cons hb rfl rest)) rfl
  | check lhs rhs =>
    have hlex := lexes_check (hwf _ (List.mem_singleton.mpr rfl)) hb 0 hrest
    have htext : (Expr.check lhs rhs).writtenOut.toList ++ rest =
        lhs.chars ++ ':' :: (rhs.toList ++ (closers 0 ++ rest)) := by
      simp [Expr.writtenOut, Expr.chars]
    rw [htext]
    exact .cons hlex (fun _ => hrest) .nil
  | and left right ihleft ihright =>
    obtain ⟨hleft, hright⟩ := List.forall_mem_append.mp hwf
    have hjoined := scansApart_joined (Or.inl rfl) hb
      (fun _ hmore => ihleft hleft blanks_space hmore)
      (fun _ hmore => ihright hright blanks_space hmore) rest
    simpa [Expr.writtenOut, Expr.outerSymbols, Symbol.chars] using hjoined
  | or left right ihleft ihright =>
    obtain ⟨hleft, hright⟩ := List.forall_mem_append.mp hwf
    have hjoined := scansApart_joined (Or.inr rfl) hb
      (fun _ hmore => ihleft hleft blanks_space hmore)
      (fun _ hmore => ihright hright blanks_space hmore) rest
    simpa [Expr.writtenOut, Expr.outerSymbols, Symbol.chars] using hjoined
  | not operand ih =>
    have hgroup := scansApart_group blanks_space (fun _ hmore => ih hwf blanks_space hmore) rest
    have hnot : Lexes .operand (blanks ++ (Expr.not operand).writtenOut.toList ++ rest) .not
        .operand ([' '] ++ '(' :: ' ' :: (operand.writtenOut.toList ++ ' ' :: ')' :: rest)) := by
      refine .not ⟨blanks, hb, by simp [Expr.writtenOut, Keyword.chars], ?_⟩
      rintro c ⟨⟩
      rfl
    rw [← List.append_assoc]
    exact .cons hnot (fun hne => absurd rfl hne) hgroup

/-- **Writing out.** A well-formed expression is the rule of the text that it is written out to. -/
theorem parse_writtenOut {e : Expr} (hwf : e.WellFormed) : Expr.parse e.writtenOut = .ok e := by
  have hscan := scansApart_writtenOut hwf blanks_nil endsRun_nil
  rw [List.nil_append, List.append_nil] at hscan
  exact parse_of_scansApart hscan blanks_nil (forms_outerSymbols e)

/-- **Rules.** The expressions that texts are parsed to are the well-formed ones, and each of them,
whatever its shape, is the rule of the text that it is written out to. -/
theorem parse_image :
    (∀ text e, Expr.parse text = .ok e → e.WellFormed) ∧
      ∀ e : Expr, e.WellFormed → Expr.parse e.writtenOut = .ok e :=
  ⟨fun _ _ h => wellFormed_of_parse h, fun _ hwf => parse_writtenOut hwf⟩

/-! ## Deciding which expressions are rules -/

theorem head?_all_iff {cs : List Char} {p : Char → Bool} :
    cs.head?.all (fun c => !p c) = true ↔ ∀ c, cs.head? = some c → p c = false := by
  cases cs <;> simp

/-- What stands behind a keyword that a name begins with. -/
theorem afterWord?_all_iff {word cs : List Char} {p : Char → Bool} :
    ((afterWord? word cs).bind List.head?).all (fun c => !p c) = true ↔
      ∀ c more, cs = word ++ c :: more → p c = false := by
  cases h : afterWord? word cs with
  | none =>
    refine iff_of_true rfl fun c more heq => ?_
    rw [afterWord?_eq_some_iff.mpr heq] at h
    cases h
  | some rest =>
    obtain rfl := afterWord?_eq_some_iff.mp h
    cases rest <;> simp

instance : DecidablePred LeftSide.WellFormed
  | .literal value =>
    decidable_of_iff (value.toList ≠ [] ∧ value.toList.all isLeftSideChar = true) <| by
      rw [List.all_eq_true]
      rfl
  | .identifier name =>
    decidable_of_iff (name.toList ≠ [] ∧ name.toList.all isLeftSideChar = true ∧
        name.toList.head?.all (fun c => !opensAtom c) = true ∧
        ((afterWord? Keyword.not.chars name.toList).bind List.head?).all (fun c => !opensAtom c) =
          true) <| by
      rw [List.all_eq_true, head?_all_iff, afterWord?_all_iff]
      rfl

instance : DecidablePred WellFormedCheck := fun c =>
  decidable_of_iff (c.1.WellFormed ∧ c.2 ≠ [] ∧ c.2.all (fun d => !isBlank d) = true) <| by
    simp [WellFormedCheck]

instance : DecidablePred Expr.WellFormed := fun e => List.decidableBAll _ e.checks

/-- A name that begins with a keyword, a name that is one, and right sides that are nothing but
parentheses. -/
theorem parse_image_odd :
    Expr.WellFormed (.and (.not (.check (.identifier "and(") "))"))
      (.or (.check (.identifier "or") ")") (.check (.literal "(") "%(x)s)"))) ∧
    Expr.parse "( not ( and(:)) ) ) and ( ( or:) ) or ( '(':%(x)s) ) )" =
      .ok (.and (.not (.check (.identifier "and(") "))"))
        (.or (.check (.identifier "or") ")") (.check (.literal "(") "%(x)s)"))) := by
  have hwf : Expr.WellFormed (.and (.not (.check (.identifier "and(") "))"))
      (.or (.check (.identifier "or") ")") (.check (.literal "(") "%(x)s)"))) := by decide
  exact ⟨hwf, parse_image.2 _ hwf⟩

/-- A name that would be taken for the keyword is no name. -/
example : ¬ Expr.WellFormed (.check (.identifier "not(a") "x") := by decide

end AccessPolicy
