import AccessPolicy.Proofs.Closers

/-!
# Which sequences of symbols are rules

`Nests` goes through symbols from left to right and looks at two things only: whether an operand or
an operator is due, and how many groups are open. That is all a rule needs
(`exists_forms_iff`), so a closing parenthesis may change its place as long as no group is closed
that is not open.
-/

namespace AccessPolicy

/-- The symbols complete a rule where this is due and so many groups are open. -/
inductive Nests : Place → Nat → List Symbol → Prop
  | done : Nests .operator 0 []
  | opening {n ss} (h : Nests .operand (n + 1) ss) : Nests .operand n (.opening :: ss)
  | not {n ss} (h : Nests .operand n ss) : Nests .operand n (.not :: ss)
  | const {n value ss} (h : Nests .operator n ss) : Nests .operand n (.const value :: ss)
  | check {n lhs rhs ss} (h : Nests .operator n ss) : Nests .operand n (.check lhs rhs :: ss)
  | closing {n ss} (h : Nests .operator n ss) : Nests .operator (n + 1) (.closing :: ss)
  | and {n ss} (h : Nests .operand n ss) : Nests .operator n (.and :: ss)
  | or {n ss} (h : Nests .operand n ss) : Nests .operator n (.or :: ss)

/-- The symbols of a phrase go where an operand is due, and an operator is due behind them. -/
theorem Forms.nests {phrase : Phrase} {ss : List Symbol} {e : Expr} (h : Forms phrase ss e) :
    ∀ {n : Nat} {rest : List Symbol}, Nests .operator n rest → Nests .operand n (ss ++ rest) := by
  induction h with
  | conjunction _ ih | unary _ ih | atom _ ih => exact ih
  | or _ _ ihleft ihright =>
    intro n rest hrest
    rw [List.append_assoc]
    exact ihleft (.or (ihright hrest))
  | and _ _ ihleft ihright =>
    intro n rest hrest
    rw [List.append_assoc]
    exact ihleft (.and (ihright hrest))
  | not _ ih => exact fun hrest => .not (ih hrest)
  | const => exact .const
  | group _ ih =>
    intro n rest hrest
    rw [List.cons_append, List.append_assoc]
    exact .opening (ih (.closing hrest))
  | check => exact .check

/-- Every group that is opened is closed. -/
theorem Nests.count_closing {p : Place} {n : Nat} {ss : List Symbol} (h : Nests p n ss) :
    ss.count .closing = ss.count .opening + n := by
  induction h with
  | done => rfl
  | opening _ ih | closing _ ih =>
    simp only [List.count_cons, beq_self_eq_true, if_true, ih]
    simp
    try omega
  | _ => simpa [List.count_cons]

/-- What may stand behind a rule with so many groups open around it. -/
def ClosesGroup : Nat → List Symbol → Prop
  | 0, ss => ss = []
  | n + 1, ss => ∃ rest, ss = .closing :: rest ∧ Nests .operator n rest

/-- Where an operand is due there is one; and a chain that has begun goes on to the end of its
group. `outer` is what stands in the chain of `or` in front of the chain of `and`. -/
theorem nests_forms : ∀ (k : Nat) {n : Nat} {ss : List Symbol}, ss.length ≤ k →
    (Nests .operand n ss → ∃ ts rest e, ss = ts ++ rest ∧ Forms .unary ts e ∧
      Nests .operator n rest) ∧
    ∀ (outer : List Symbol) {before : List Symbol} {left : Expr}, Nests .operator n ss →
      (∀ ts e, Forms .conjunction ts e → ∃ e', Forms .disjunction (outer ++ ts) e') →
      Forms .conjunction before left →
      ∃ ts rest e, ss = ts ++ rest ∧ Forms .disjunction (outer ++ (before ++ ts)) e ∧
        ClosesGroup n rest := by
  intro k
  induction k with
  | zero =>
    intro n ss hlen
    obtain rfl := List.length_eq_zero_iff.mp (Nat.le_zero.mp hlen)
    refine ⟨nofun, ?_⟩
    intro outer before left h houter hbefore
    cases h with
    | done =>
      obtain ⟨e, he⟩ := houter _ _ hbefore
      exact ⟨[], [], e, rfl, by rwa [List.append_nil], rfl⟩
  | succ k ih =>
    intro n ss hlen
    constructor
    · intro h
      cases h with
      | const h => exact ⟨[_], _, _, rfl, .atom .const, h⟩
      | check h => exact ⟨[_], _, _, rfl, .atom .check, h⟩
      | @not _ ss h =>
        obtain ⟨ts, rest, e, rfl, hform, hrest⟩ := (ih (Nat.le_of_succ_le_succ hlen)).1 h
        exact ⟨_, rest, _, rfl, .not hform, hrest⟩
      | @opening _ ss h =>
        -- an operand, and behind it the chain up to the parenthesis that closes the group
        obtain ⟨ts, rest, e, rfl, hform, hrest⟩ := (ih (Nat.le_of_succ_le_succ hlen)).1 h
        have hlen' : rest.length ≤ k := by
          simp only [List.length_cons, List.length_append] at hlen
          omega
        obtain ⟨ts', rest', e', rfl, hform', rest'', rfl, hclose⟩ :=
          (ih hlen').2 [] hrest (fun _ e h => ⟨e, .conjunction h⟩) (.unary hform)
        refine ⟨.opening :: ((ts ++ ts') ++ [.closing]), rest'', e', ?_, ?_, hclose⟩
        · simp
        · exact .atom (.group hform')
    · intro outer before left h houter hbefore
      cases h with
      | done =>
        obtain ⟨e, he⟩ := houter _ _ hbefore
        exact ⟨[], [], e, rfl, by rwa [List.append_nil], rfl⟩
      | closing h =>
        obtain ⟨e, he⟩ := houter _ _ hbefore
        exact ⟨[], _, e, rfl, by rwa [List.append_nil], _, rfl, h⟩
      | @and _ ss h =>
        obtain ⟨ts, rest, e, rfl, hform, hrest⟩ := (ih (Nat.le_of_succ_le_succ hlen)).1 h
        have hlen' : rest.length ≤ k := by
          simp only [List.length_cons, List.length_append] at hlen
          omega
        obtain ⟨ts', rest', e', rfl, hform', hclose⟩ :=
          (ih hlen').2 outer hrest houter (.and hbefore hform)
        refine ⟨.and :: (ts ++ ts'), rest', e', by simp, ?_, hclose⟩
        simpa using hform'
      | @or _ ss h =>
        -- the chain of `and` ends here; with it the chain of `or` in front of it grows
        obtain ⟨ts, rest, e, rfl, hform, hrest⟩ := (ih (Nat.le_of_succ_le_succ hlen)).1 h
        have hlen' : rest.length ≤ k := by
          simp only [List.length_cons, List.length_append] at hlen
          omega
        obtain ⟨before', hbefore'⟩ := houter _ _ hbefore
        obtain ⟨ts', rest', e', rfl, hform', hclose⟩ :=
          (ih hlen').2 (outer ++ (before ++ [.or])) hrest
            (fun us e h => ⟨_, by simpa using Forms.or hbefore' h⟩) (.unary hform)
        refine ⟨.or :: (ts ++ ts'), rest', e', by simp, ?_, hclose⟩
        simpa using hform'

/-- **Rules.** Symbols are a rule as soon as operands and operators take turns and every closing
parenthesis closes a group. -/
theorem exists_forms_iff {ss : List Symbol} :
    (∃ e, Forms .disjunction ss e) ↔ Nests .operand 0 ss := by
  constructor
  · rintro ⟨e, h⟩
    have hnests := h.nests .done
    rwa [List.append_nil] at hnests
  · intro h
    obtain ⟨ts, rest, e, rfl, hform, hrest⟩ := (nests_forms _ (Nat.le_refl _)).1 h
    obtain ⟨ts', rest', e', rfl, hform', rfl⟩ :=
      (nests_forms _ (Nat.le_refl _)).2 [] hrest (fun _ e h => ⟨e, .conjunction h⟩)
        (.unary hform)
    exact ⟨e', by simpa using hform'⟩

/-- The beginning of a rule does not look at what it is followed by. -/
theorem Nests.replace {ss ss' : List Symbol} (h : ∀ p n, Nests p n ss → Nests p n ss') :
    ∀ (before : List Symbol) {p : Place} {n : Nat},
      Nests p n (before ++ ss) → Nests p n (before ++ ss')
  | [], p, n, hnests => h p n hnests
  | _ :: before, _, _, .opening hnests => .opening (replace h before hnests)
  | _ :: before, _, _, .not hnests => .not (replace h before hnests)
  | _ :: before, _, _, .const hnests => .const (replace h before hnests)
  | _ :: before, _, _, .check hnests => .check (replace h before hnests)
  | _ :: before, _, _, .closing hnests => .closing (replace h before hnests)
  | _ :: before, _, _, .and hnests => .and (replace h before hnests)
  | _ :: before, _, _, .or hnests => .or (replace h before hnests)

/-- A group that is closed behind a later check instead is open in between. -/
theorem Nests.closeLater {lhs : LeftSide} {rhs rhs' : List Char} {after : List Symbol} :
    ∀ (before : List Symbol) {p : Place} {n : Nat}, Nests p n (before ++ .check lhs rhs :: after) →
      Nests p (n + 1) (before ++ .check lhs rhs' :: .closing :: after)
  | [], _, _, .check h => .check (.closing h)
  | _ :: before, _, _, .opening h => .opening (closeLater before h)
  | _ :: before, _, _, .not h => .not (closeLater before h)
  | _ :: before, _, _, .const h => .const (closeLater before h)
  | _ :: before, _, _, .check h => .check (closeLater before h)
  | _ :: before, _, _, .closing h => .closing (closeLater before h)
  | _ :: before, _, _, .and h => .and (closeLater before h)
  | _ :: before, _, _, .or h => .or (closeLater before h)

/-! ## Beginnings of rules -/

/-- The symbols lead from one place of a rule to another: whatever completes a rule there completes
one from here, with the symbols in front of it. -/
def Leads (p : Place) (n : Nat) (ss : List Symbol) (q : Place) (m : Nat) : Prop :=
  ∀ rest, Nests q m rest → Nests p n (ss ++ rest)

namespace Leads

variable {p q r : Place} {n k m : Nat} {ss ts : List Symbol}

theorem nil : Leads p n [] p n := fun _ h => h

theorem append (h : Leads p n ss q k) (h' : Leads q k ts r m) : Leads p n (ss ++ ts) r m := by
  intro rest hrest
  rw [List.append_assoc]
  exact h _ (h' rest hrest)

theorem opening : Leads .operand n [.opening] .operand (n + 1) := fun _ => .opening

theorem not : Leads .operand n [.not] .operand n := fun _ => .not

theorem const {value : Bool} : Leads .operand n [.const value] .operator n := fun _ => .const

theorem check {lhs : LeftSide} {rhs : List Char} :
    Leads .operand n [.check lhs rhs] .operator n := fun _ => .check

theorem closing : Leads .operator (n + 1) [.closing] .operator n := fun _ => .closing

theorem and : Leads .operator n [.and] .operand n := fun _ => .and

theorem or : Leads .operator n [.or] .operand n := fun _ => .or

/-- Where an operator is due, the open groups may be closed. -/
theorem closers : ∀ n, Leads .operator n (List.replicate n .closing) .operator 0
  | 0 => nil
  | n + 1 => closing.append (closers n)

end Leads

end AccessPolicy
