import AccessPolicy.Proofs.Symbols

/-!
# Chains nested to the left

`a and (b and c)` is written without its parentheses, so its text can only be read as
`(a and b) and c`. `Expr.leftNested` nests every chain of `and` and every chain of `or` that way.
`Regroups` says what may happen to an expression meanwhile: nothing but one association after
the other. What is written and what is checked stays the same, symbol by symbol.
-/

namespace AccessPolicy

/-- The second expression has the first one's chains nested in another way. -/
inductive Regroups : Expr → Expr → Prop
  | refl {e} : Regroups e e
  | trans {e e' e''} (h : Regroups e e') (h' : Regroups e' e'') : Regroups e e''
  | andAssoc {a b c} : Regroups (.and a (.and b c)) (.and (.and a b) c)
  | orAssoc {a b c} : Regroups (.or a (.or b c)) (.or (.or a b) c)
  | and {a a' b b'} (ha : Regroups a a') (hb : Regroups b b') : Regroups (.and a b) (.and a' b')
  | or {a a' b b'} (ha : Regroups a a') (hb : Regroups b b') : Regroups (.or a b) (.or a' b')
  | not {a a'} (h : Regroups a a') : Regroups (.not a) (.not a')

namespace Expr

/-- No chain of one operator goes on in a right operand. -/
def LeftNested : Expr → Prop
  | .const _ | .check _ _ => True
  | .and left right => (∀ a b, right ≠ .and a b) ∧ left.LeftNested ∧ right.LeftNested
  | .or left right => (∀ a b, right ≠ .or a b) ∧ left.LeftNested ∧ right.LeftNested
  | .not operand => operand.LeftNested

/-- A chain of `and` with the operands of a second chain behind it. -/
def extendAnd (left : Expr) : Expr → Expr
  | .and a b => .and (extendAnd left a) b
  | e => .and left e

/-- A chain of `or` with the operands of a second chain behind it. -/
def extendOr (left : Expr) : Expr → Expr
  | .or a b => .or (extendOr left a) b
  | e => .or left e

/-- The expression with every chain nested to the left. -/
def leftNested : Expr → Expr
  | .const value => .const value
  | .check lhs rhs => .check lhs rhs
  | .and left right => extendAnd left.leftNested right.leftNested
  | .or left right => extendOr left.leftNested right.leftNested
  | .not operand => .not operand.leftNested

theorem extendAnd_of_ne {left right : Expr} (h : ∀ a b, right ≠ .and a b) :
    extendAnd left right = .and left right := by
  cases right with
  | and a b => exact absurd rfl (h a b)
  | _ => rfl

theorem extendOr_of_ne {left right : Expr} (h : ∀ a b, right ≠ .or a b) :
    extendOr left right = .or left right := by
  cases right with
  | or a b => exact absurd rfl (h a b)
  | _ => rfl

/-- An expression that is nested to the left is left as it is. -/
theorem leftNested_eq_self {e : Expr} (h : e.LeftNested) : e.leftNested = e := by
  induction e with
  | const | check => rfl
  | and left right ihleft ihright =>
    rw [leftNested, ihleft h.2.1, ihright h.2.2, extendAnd_of_ne h.1]
  | or left right ihleft ihright =>
    rw [leftNested, ihleft h.2.1, ihright h.2.2, extendOr_of_ne h.1]
  | not operand ih => rw [leftNested, ih h]

theorem leftNested_extendAnd {left right : Expr} (hleft : left.LeftNested)
    (hright : right.LeftNested) : (extendAnd left right).LeftNested := by
  induction right with
  | and a b iha _ => exact ⟨hright.1, iha hright.2.1, hright.2.2⟩
  | _ => exact ⟨nofun, hleft, hright⟩

theorem leftNested_extendOr {left right : Expr} (hleft : left.LeftNested)
    (hright : right.LeftNested) : (extendOr left right).LeftNested := by
  induction right with
  | or a b iha _ => exact ⟨hright.1, iha hright.2.1, hright.2.2⟩
  | _ => exact ⟨nofun, hleft, hright⟩

theorem leftNested_leftNested (e : Expr) : e.leftNested.LeftNested := by
  induction e with
  | const | check => trivial
  | and left right ihleft ihright => exact leftNested_extendAnd ihleft ihright
  | or left right ihleft ihright => exact leftNested_extendOr ihleft ihright
  | not operand ih => exact ih

end Expr

theorem regroups_extendAnd (left right : Expr) :
    Regroups (.and left right) (left.extendAnd right) := by
  induction right with
  | and a b iha _ => exact .trans .andAssoc (.and iha .refl)
  | _ => exact .refl

theorem regroups_extendOr (left right : Expr) :
    Regroups (.or left right) (left.extendOr right) := by
  induction right with
  | or a b iha _ => exact .trans .orAssoc (.or iha .refl)
  | _ => exact .refl

theorem regroups_leftNested (e : Expr) : Regroups e e.leftNested := by
  induction e with
  | const | check => exact .refl
  | and left right ihleft ihright => exact .trans (.and ihleft ihright) (regroups_extendAnd _ _)
  | or left right ihleft ihright => exact .trans (.or ihleft ihright) (regroups_extendOr _ _)
  | not operand ih => exact .not ih

theorem Expr.extendAnd_assoc (a b c : Expr) :
    a.extendAnd (b.extendAnd c) = (a.extendAnd b).extendAnd c := by
  induction c with
  | and c d ihc _ => rw [extendAnd, extendAnd, extendAnd, ihc]
  | _ => rfl

theorem Expr.extendOr_assoc (a b c : Expr) :
    a.extendOr (b.extendOr c) = (a.extendOr b).extendOr c := by
  induction c with
  | or c d ihc _ => rw [extendOr, extendOr, extendOr, ihc]
  | _ => rfl

/-- Regrouped expressions have one left-nested form. -/
theorem Regroups.leftNested_eq {e e' : Expr} (h : Regroups e e') :
    e.leftNested = e'.leftNested := by
  induction h with
  | refl => rfl
  | trans _ _ ih ih' => exact ih.trans ih'
  | andAssoc => exact Expr.extendAnd_assoc _ _ _
  | orAssoc => exact Expr.extendOr_assoc _ _ _
  | and _ _ iha ihb | or _ _ iha ihb => rw [Expr.leftNested, iha, ihb, Expr.leftNested]
  | not _ ih => rw [Expr.leftNested, ih, Expr.leftNested]

/-! ## The symbols of an expression -/

/-- Symbols in a group, where one is needed. -/
def groupedSymbols (needed : Bool) (ss : List Symbol) : List Symbol :=
  if needed then .opening :: (ss ++ [.closing]) else ss

/-- The symbols that an expression is written with. -/
def Expr.symbols : Expr → List Symbol
  | .const value => [.const value]
  | .check lhs rhs => [.check lhs rhs.toList]
  | .and left right =>
    groupedSymbols left.groupsUnderAnd left.symbols
      ++ .and :: groupedSymbols right.groupsUnderAnd right.symbols
  | .or left right => left.symbols ++ .or :: right.symbols
  | .not operand => .not :: groupedSymbols operand.groupsUnderNot operand.symbols

/-- Regrouped expressions are written with the same symbols. -/
theorem Regroups.symbols_eq {e e' : Expr} (h : Regroups e e') :
    e.symbols = e'.symbols ∧ e.groupsUnderAnd = e'.groupsUnderAnd ∧
      e.groupsUnderNot = e'.groupsUnderNot := by
  induction h with
  | refl => exact ⟨rfl, rfl, rfl⟩
  | trans _ _ ih ih' => exact ⟨ih.1.trans ih'.1, ih.2.1.trans ih'.2.1, ih.2.2.trans ih'.2.2⟩
  | andAssoc =>
    -- an `and` needs no group under `and`, so its symbols stand in a row either way
    refine ⟨?_, rfl, rfl⟩
    simp [Expr.symbols, Expr.groupsUnderAnd, groupedSymbols]
  | orAssoc =>
    refine ⟨?_, rfl, rfl⟩
    simp [Expr.symbols]
  | and _ _ iha ihb =>
    refine ⟨?_, rfl, rfl⟩
    rw [Expr.symbols, iha.1, iha.2.1, ihb.1, ihb.2.1, Expr.symbols]
  | or _ _ iha ihb =>
    refine ⟨?_, rfl, rfl⟩
    rw [Expr.symbols, iha.1, ihb.1, Expr.symbols]
  | not _ ih =>
    refine ⟨?_, rfl, rfl⟩
    rw [Expr.symbols, ih.1, ih.2.2, Expr.symbols]

/-- The phrase that an expression is written as. -/
def Expr.phrase : Expr → Phrase
  | .const _ | .check _ _ => .atom
  | .and _ _ => .conjunction
  | .or _ _ => .disjunction
  | .not _ => .unary

/-- A phrase is also any looser one. -/
theorem Forms.disjunction {phrase : Phrase} {ss : List Symbol} {e : Expr} (h : Forms phrase ss e) :
    Forms .disjunction ss e := by
  cases phrase with
  | disjunction => exact h
  | conjunction => exact .conjunction h
  | unary => exact .conjunction (.unary h)
  | atom => exact .conjunction (.unary (.atom h))

/-- Whatever is no `or`, or in a group, is an operand of `or`. -/
theorem Forms.conjunction_grouped {e : Expr} (h : Forms e.phrase e.symbols e) :
    Forms .conjunction (groupedSymbols e.groupsUnderAnd e.symbols) e := by
  cases e with
  | const | check => exact .unary (.atom h)
  | and => exact h
  | or => exact .unary (.atom (.group h))
  | not => exact .unary h

/-- Whatever is neither `and` nor `or`, or in a group, is an operand of `not`. -/
theorem Forms.unary_grouped {e : Expr} (h : Forms e.phrase e.symbols e) :
    Forms .unary (groupedSymbols e.groupsUnderNot e.symbols) e := by
  cases e with
  | const | check => exact .atom h
  | and | or => exact .atom (.group h.disjunction)
  | not => exact h

/-- An expression that is nested to the left is what its symbols form. -/
theorem forms_symbols {e : Expr} (h : e.LeftNested) : Forms e.phrase e.symbols e := by
  induction e with
  | const => exact .const
  | check lhs rhs =>
    have hcheck := @Forms.check lhs rhs.toList
    rwa [String.ofList_toList] at hcheck
  | and left right ihleft ihright =>
    refine .and (ihleft h.2.1).conjunction_grouped ?_
    -- a right operand is no chain of `and`, so it is unary, or an `or` in a group
    have hright := ihright h.2.2
    cases right with
    | and a b => exact absurd rfl (h.1 a b)
    | const | check => exact .atom hright
    | or => exact .atom (.group hright)
    | not => exact hright
  | or left right ihleft ihright =>
    refine .or (ihleft h.2.1).disjunction ?_
    have hright := (ihright h.2.2).conjunction_grouped
    cases right with
    | or a b => exact absurd rfl (h.1 a b)
    | _ => exact hright
  | not operand ih => exact .not (ih h).unary_grouped

/-- **Left nesting.** The symbols of an expression form its left-nested form. -/
theorem forms_leftNested (e : Expr) : Forms .disjunction e.symbols e.leftNested := by
  rw [(regroups_leftNested e).symbols_eq.1]
  exact (forms_symbols e.leftNested_leftNested).disjunction

end AccessPolicy
