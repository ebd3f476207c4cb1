import AccessPolicy.Expr.Reading

/-!
# Looking for a reading

`readings` lists everything that can happen; to find a rule, the first reading that suits is
enough, and looking at the others could take exponentially longer. `searchWithin` tries the
readings in the same order and stops at the first that `accept` takes.

Main statement: `searchWithin_eq_first`, the search finds exactly the first reading of the list
that is accepted.
-/

namespace AccessPolicy

namespace Trace

/-- The first result that `accept` gives for an expression found. -/
def first (t : Trace) (accept : Expr → List Char → Option α) : Option α :=
  t.findSome? fun
    | .found e rest => accept e rest
    | .failed _ => none

@[simp] theorem first_nil (accept : Expr → List Char → Option α) :
    first [] accept = none := rfl

@[simp] theorem first_found (e : Expr) (rest : List Char) (accept : Expr → List Char → Option α) :
    first [.found e rest] accept = accept e rest := by
  cases h : accept e rest <;> simp [first, h]

@[simp] theorem first_failed (f : Failure) (accept : Expr → List Char → Option α) :
    first [.failed f] accept = none := rfl

@[simp] theorem first_failure (rest : List Char) (expected : Expectation)
    (accept : Expr → List Char → Option α) :
    first (failure rest expected) accept = none := rfl

theorem first_append (s t : Trace) (accept : Expr → List Char → Option α) :
    first (s ++ t) accept = (first s accept).or (first t accept) := by
  simp [first, List.findSome?_append]

/-- Going on from the expressions found is the same as accepting through what goes on. -/
theorem first_andThen (t : Trace) (next : Expr → List Char → Trace)
    (accept : Expr → List Char → Option α) :
    (t.andThen next).first accept = t.first fun e rest => (next e rest).first accept := by
  induction t with
  | nil => rfl
  | cons s t ih =>
    have hsteps : andThen (s :: t) next = andThen [s] next ++ andThen t next :=
      @List.flatMap_append _ _ [s] t _
    have hfirst := fun a => first_append (α := α) [s] t a
    rw [hsteps, first_append, ih, show s :: t = [s] ++ t from rfl, hfirst]
    cases s <;> simp [andThen]

end Trace

/-- The first reading of a goal that is accepted, looking no more than `depth` goals deep. -/
def searchWithin (depth : Nat) (goal : Goal) (cs : List Char)
    (accept : Expr → List Char → Option α) : Option α :=
  match depth, goal with
  | 0, _ => none
  | depth + 1, .disjunction =>
    searchWithin depth .conjunction cs fun left rest =>
      searchWithin depth (.disjunctionAfter left) rest accept
  | depth + 1, .disjunctionAfter left =>
    match Keyword.or.accept cs with
    | none => accept left cs
    | some cs => searchWithin depth .conjunction cs fun right rest =>
        searchWithin depth (.disjunctionAfter (.or left right)) rest accept
  | depth + 1, .conjunction =>
    searchWithin depth .unary cs fun left rest =>
      searchWithin depth (.conjunctionAfter left) rest accept
  | depth + 1, .conjunctionAfter left =>
    match Keyword.and.accept cs with
    | none => accept left cs
    | some cs => searchWithin depth .unary cs fun right rest =>
        searchWithin depth (.conjunctionAfter (.and left right)) rest accept
  | depth + 1, .unary =>
    match Keyword.not.accept cs with
    | none => searchWithin depth .atom cs accept
    | some cs => searchWithin depth .unary cs fun operand rest => accept (.not operand) rest
  | depth + 1, .atom =>
    match skipBlanks cs with
    | [] => none
    | '@' :: rest => accept (.const true) (skipBlanks rest)
    | '!' :: rest => accept (.const false) (skipBlanks rest)
    | '(' :: inner => searchWithin depth .disjunction inner fun e rest =>
        match skipBlanks rest with
        | ')' :: rest => accept e (skipBlanks rest)
        | _ => none
    | cs => (checkReadings cs).first fun e rest => accept e (skipBlanks rest)

/-- The search finds the first reading that is accepted. -/
theorem searchWithin_eq_first (depth : Nat) (goal : Goal) (cs : List Char)
    (accept : Expr → List Char → Option α) :
    searchWithin depth goal cs accept = (readingsWithin depth goal cs).first accept := by
  induction depth generalizing goal cs accept with
  | zero => rfl
  | succ depth ih =>
    cases goal with
    | disjunction | conjunction =>
      simp only [searchWithin, readingsWithin, Trace.first_andThen, ih]
    | disjunctionAfter left =>
      cases h : Keyword.or.accept cs <;>
        simp [searchWithin, readingsWithin, h, Trace.first_andThen, ih]
    | conjunctionAfter left =>
      cases h : Keyword.and.accept cs <;>
        simp [searchWithin, readingsWithin, h, Trace.first_andThen, ih]
    | unary =>
      cases h : Keyword.not.accept cs <;>
        simp [searchWithin, readingsWithin, h, Trace.first_andThen, ih]
    | atom =>
      simp only [searchWithin, readingsWithin]
      generalize skipBlanks cs = text
      split
      · rfl
      · simp
      · simp
      · simp only [Trace.first_andThen, ih]
        congr 1
        funext e rest
        generalize skipBlanks rest = text
        split <;> simp
      · simp [Trace.first_andThen]

end AccessPolicy
