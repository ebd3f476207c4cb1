import AccessPolicy.Proofs.Acceptance

/-!
# Rules as sequences of symbols

A reading of a text takes two steps, and only the first looks at characters. `Scans` goes through
the text symbol by symbol: where an operand is due it takes `not`, `(`, a constant or a check, and
where an operator is due it takes `)`, `and` or `or`. It knows nothing of groups. `Forms` builds the
tree of the symbols, where an opening parenthesis needs its closing one.

`completeReading_iff`: the complete readings of a text are the trees of its scans. What a check
gives back to the text is then a matter of the scan alone, and what can be done with it one of the
tree.
-/

namespace AccessPolicy

/-- What a rule is written with. -/
inductive Symbol where
  | opening
  | closing
  | and
  | or
  | not
  | const (value : Bool)
  | check (lhs : LeftSide) (rhs : List Char)
  deriving DecidableEq, Repr

/-- What is due: an operand, or what may stand behind one. -/
inductive Place where
  | operand
  | operator
  deriving DecidableEq, Repr

/-- A symbol at the head of a text: the place it is taken at, the place behind it, and the text left
over. -/
inductive Lexes : Place → List Char → Symbol → Place → List Char → Prop
  | not {cs rest} (h : Keyword.not.At cs rest) : Lexes .operand cs .not .operand rest
  | opening {cs rest} (h : skipBlanks cs = '(' :: rest) : Lexes .operand cs .opening .operand rest
  | allow {cs rest} (h : skipBlanks cs = '@' :: rest) :
      Lexes .operand cs (.const true) .operator rest
  | deny {cs rest} (h : skipBlanks cs = '!' :: rest) :
      Lexes .operand cs (.const false) .operator rest
  | check {cs lhs rhs rest} (hnot : ∀ rest', ¬ Keyword.not.At cs rest')
      (hopen : ∀ c, (skipBlanks cs).head? = some c → opensAtom c = false)
      (h : ReadsCheck (skipBlanks cs) lhs rhs rest) :
      Lexes .operand cs (.check lhs rhs) .operator rest
  | closing {cs rest} (h : skipBlanks cs = ')' :: rest) : Lexes .operator cs .closing .operator rest
  | and {cs rest} (h : Keyword.and.At cs rest) : Lexes .operator cs .and .operand rest
  | or {cs rest} (h : Keyword.or.At cs rest) : Lexes .operator cs .or .operand rest

/-- The symbols at the head of a text, one after the other. -/
inductive Scans : Place → List Char → List Symbol → Place → List Char → Prop
  | nil {p cs} : Scans p cs [] p cs
  | cons {p cs s p' mid ss q rest} (h : Lexes p cs s p' mid) (hs : Scans p' mid ss q rest) :
      Scans p cs (s :: ss) q rest

/-- The tree of a sequence of symbols, as a phrase of the grammar. -/
inductive Forms : Phrase → List Symbol → Expr → Prop
  | conjunction {ss e} (h : Forms .conjunction ss e) : Forms .disjunction ss e
  | or {ss left ts right} (hleft : Forms .disjunction ss left)
      (hright : Forms .conjunction ts right) : Forms .disjunction (ss ++ .or :: ts) (.or left right)
  | unary {ss e} (h : Forms .unary ss e) : Forms .conjunction ss e
  | and {ss left ts right} (hleft : Forms .conjunction ss left) (hright : Forms .unary ts right) :
      Forms .conjunction (ss ++ .and :: ts) (.and left right)
  | not {ss operand} (h : Forms .unary ss operand) : Forms .unary (.not :: ss) (.not operand)
  | atom {ss e} (h : Forms .atom ss e) : Forms .unary ss e
  | const {value} : Forms .atom [.const value] (.const value)
  | group {ss e} (h : Forms .disjunction ss e) : Forms .atom (.opening :: (ss ++ [.closing])) e
  | check {lhs rhs} : Forms .atom [.check lhs rhs] (.check lhs (String.ofList rhs))

/-- The checks of an expression from left to right. -/
def Expr.checks : Expr → List (LeftSide × List Char)
  | .const _ => []
  | .check lhs rhs => [(lhs, rhs.toList)]
  | .and left right | .or left right => left.checks ++ right.checks
  | .not operand => operand.checks

/-- The check that a symbol is. -/
def Symbol.check? : Symbol → Option (LeftSide × List Char)
  | .check lhs rhs => some (lhs, rhs)
  | _ => none

/-- The checks of a tree are those among its symbols. -/
theorem Forms.checks_eq {phrase : Phrase} {ss : List Symbol} {e : Expr} (h : Forms phrase ss e) :
    e.checks = ss.filterMap Symbol.check? := by
  induction h with
  | conjunction _ ih | unary _ ih | atom _ ih => exact ih
  | or _ _ ihleft ihright | and _ _ ihleft ihright =>
    rw [Expr.checks, ihleft, ihright, List.filterMap_append]
    rfl
  | not _ ih =>
    rw [Expr.checks, ih]
    rfl
  | const => rfl
  | group _ ih =>
    rw [ih, List.filterMap_cons, List.filterMap_append]
    exact (List.append_nil _).symm
  | check => rw [Expr.checks, String.toList_ofList]; rfl

/-! ## Scanning -/

namespace Scans

variable {p q r : Place} {cs mid rest : List Char} {ss ts : List Symbol}

theorem single {s : Symbol} (h : Lexes p cs s q rest) : Scans p cs [s] q rest := .cons h .nil

theorem append (h : Scans p cs ss q mid) (h' : Scans q mid ts r rest) :
    Scans p cs (ss ++ ts) r rest := by
  induction h with
  | nil => exact h'
  | cons hlex _ ih => exact .cons hlex (ih h')

theorem of_append : ∀ {ss : List Symbol} {p : Place} {cs : List Char},
    Scans p cs (ss ++ ts) r rest → ∃ q mid, Scans p cs ss q mid ∧ Scans q mid ts r rest
  | [], _, _, h => ⟨_, _, .nil, h⟩
  | _ :: _, _, _, .cons hlex hs => by
    obtain ⟨q, mid, h1, h2⟩ := of_append hs
    exact ⟨q, mid, .cons hlex h1, h2⟩

theorem of_single {s : Symbol} (h : Scans p cs [s] q rest) : Lexes p cs s q rest := by
  cases h with
  | cons hlex hs => cases hs; exact hlex

end Scans

/-- Where anything but `not` is taken as the beginning of an operand, `not` is not recognised. -/
theorem Lexes.not_at {cs rest : List Char} {s : Symbol} {p : Place}
    (h : Lexes .operand cs s p rest) (hs : s ≠ .not) (rest' : List Char) :
    ¬ Keyword.not.At cs rest' := by
  intro hat
  have hskip := hat.skipBlanks_eq
  cases h with
  | not => exact hs rfl
  | opening h => simp [h, Keyword.chars] at hskip
  | allow h => simp [h, Keyword.chars] at hskip
  | deny h => simp [h, Keyword.chars] at hskip
  | check hnot _ _ => exact hnot _ hat

/-! ## Readings and scans -/

/-- Every reading is a scan whose symbols form the tree. -/
theorem Reads.scans {phrase : Phrase} {cs rest : List Char} {e : Expr} (h : Reads phrase cs e rest)
    (hnot : phrase = .atom → ∀ rest', ¬ Keyword.not.At cs rest') :
    ∃ ss, Scans .operand cs ss .operator rest ∧ Forms phrase ss e := by
  induction h with
  | conjunction _ ih =>
    obtain ⟨ss, hscan, hform⟩ := ih nofun
    exact ⟨ss, hscan, .conjunction hform⟩
  | or _ hor _ ihleft ihright =>
    obtain ⟨ss, hscan, hform⟩ := ihleft nofun
    obtain ⟨ts, hscan', hform'⟩ := ihright nofun
    exact ⟨_, hscan.append (.cons (.or hor) hscan'), .or hform hform'⟩
  | unary _ ih =>
    obtain ⟨ss, hscan, hform⟩ := ih nofun
    exact ⟨ss, hscan, .unary hform⟩
  | and _ hand _ ihleft ihright =>
    obtain ⟨ss, hscan, hform⟩ := ihleft nofun
    obtain ⟨ts, hscan', hform'⟩ := ihright nofun
    exact ⟨_, hscan.append (.cons (.and hand) hscan'), .and hform hform'⟩
  | not hat _ ih =>
    obtain ⟨ss, hscan, hform⟩ := ih nofun
    exact ⟨_, .cons (.not hat) hscan, .not hform⟩
  | atom hat _ ih =>
    obtain ⟨ss, hscan, hform⟩ := ih fun _ => hat
    exact ⟨ss, hscan, .atom hform⟩
  | allow hb =>
    exact ⟨_, .single (.allow (skipBlanks_append_cons hb rfl _)), .const⟩
  | deny hb =>
    exact ⟨_, .single (.deny (skipBlanks_append_cons hb rfl _)), .const⟩
  | group hb _ hb' ih =>
    obtain ⟨ss, hscan, hform⟩ := ih nofun
    have hclosing := hscan.append (.single (.closing (skipBlanks_append_cons hb' rfl _)))
    exact ⟨_, .cons (.opening (skipBlanks_append_cons hb rfl _)) hclosing, .group hform⟩
  | check hb hopen hcheck =>
    have hskip := (skipBlanks_append hb _).trans hcheck.skipBlanks_eq.1
    exact ⟨_, .single (.check (hnot rfl) (by rwa [hskip]) (by rwa [hskip])), .check⟩

/-- Symbols that are scanned and form a tree are a reading. -/
theorem Forms.reads {phrase : Phrase} {ss : List Symbol} {e : Expr} (h : Forms phrase ss e) :
    ∀ {cs rest : List Char} {q : Place}, Scans .operand cs ss q rest →
      q = .operator ∧ Reads phrase cs e rest := by
  induction h with
  | conjunction _ ih =>
    intro cs rest q hscan
    exact ⟨(ih hscan).1, .conjunction (ih hscan).2⟩
  | or _ _ ihleft ihright =>
    intro cs rest q hscan
    obtain ⟨p, mid, hleft, hright⟩ := hscan.of_append
    obtain ⟨rfl, hreads⟩ := ihleft hleft
    cases hright with
    | cons hlex hright =>
      cases hlex with
      | or hor => exact ⟨(ihright hright).1, .or hreads hor (ihright hright).2⟩
  | unary _ ih =>
    intro cs rest q hscan
    exact ⟨(ih hscan).1, .unary (ih hscan).2⟩
  | and _ _ ihleft ihright =>
    intro cs rest q hscan
    obtain ⟨p, mid, hleft, hright⟩ := hscan.of_append
    obtain ⟨rfl, hreads⟩ := ihleft hleft
    cases hright with
    | cons hlex hright =>
      cases hlex with
      | and hand => exact ⟨(ihright hright).1, .and hreads hand (ihright hright).2⟩
  | not _ ih =>
    intro cs rest q hscan
    cases hscan with
    | cons hlex hscan =>
      cases hlex with
      | not hat => exact ⟨(ih hscan).1, .not hat (ih hscan).2⟩
  | @atom ss e h ih =>
    intro cs rest q hscan
    -- the first symbol of an atom is not `not`, so the keyword does not stand there
    refine ⟨(ih hscan).1, .atom ?_ (ih hscan).2⟩
    cases h with
    | const | group | check =>
      cases hscan with
      | cons hlex _ => exact hlex.not_at nofun
  | const =>
    intro cs rest q hscan
    obtain ⟨blanks, hb, hcs⟩ := exists_skipBlanks cs
    cases hscan.of_single with
    | allow h =>
      rw [hcs, h]
      exact ⟨rfl, .allow hb⟩
    | deny h =>
      rw [hcs, h]
      exact ⟨rfl, .deny hb⟩
  | @group ss e _ ih =>
    intro cs rest q hscan
    cases hscan with
    | cons hlex hscan =>
      obtain ⟨p, mid, hinner, hclosing⟩ := hscan.of_append
      cases hlex with
      | opening hopening =>
        obtain ⟨rfl, hreads⟩ := ih hinner
        cases hclosing.of_single with
        | closing hclosing =>
          obtain ⟨blanks, hb, hcs⟩ := exists_skipBlanks cs
          obtain ⟨blanks', hb', hmid⟩ := exists_skipBlanks mid
          rw [hcs, hopening]
          rw [hmid, hclosing] at hreads
          exact ⟨rfl, .group hb hreads hb'⟩
  | check =>
    intro cs rest q hscan
    obtain ⟨blanks, hb, hcs⟩ := exists_skipBlanks cs
    cases hscan.of_single with
    | check _ hopen hcheck =>
      refine ⟨rfl, ?_⟩
      rw [hcs]
      exact .check hb hopen hcheck

/-- The complete readings of a text are the trees of its scans. -/
theorem completeReading_iff {cs : List Char} {e : Expr} :
    CompleteReading cs e ↔ ∃ ss rest, Scans .operand cs ss .operator rest ∧ Blanks rest ∧
      Forms .disjunction ss e := by
  constructor
  · rintro ⟨rest, hreads, hblanks⟩
    obtain ⟨ss, hscan, hform⟩ := hreads.scans nofun
    exact ⟨ss, rest, hscan, hblanks, hform⟩
  · rintro ⟨ss, rest, hscan, hblanks, hform⟩
    exact ⟨rest, (hform.reads hscan).2, hblanks⟩

end AccessPolicy
