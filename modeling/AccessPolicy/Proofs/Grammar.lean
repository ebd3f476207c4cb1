import AccessPolicy.Expr
import AccessPolicy.Expr.Lexis

/-!
# The grammar of rules as a relation

What a text may be read as, without any order of trying and without any commitment of a search:
`Reads phrase cs e rest` says that `cs` begins with a `phrase` whose tree is `e`, and that `rest` is
left over. Every production of the grammar is one constructor.

Two places of the grammar look further than the phrase they read. `not` is a keyword wherever it is
recognised (`Keyword.At`), so an atom is a unary phrase only where it is not; and a check begins
with none of `@`, `!` and `(`. One place is ambiguous: `ReadsCheck` takes the whole run of
characters up to the next blank as the right side, less any number of `)` at its end, as long as one
character stays.

`CompleteReading` is a reading of a whole text, up to blanks around it.
-/

namespace AccessPolicy

/-- Nothing but blanks. -/
def Blanks (cs : List Char) : Prop := ∀ c ∈ cs, isBlank c = true

/-- The keyword is recognised where `cs` begins: after blanks the text goes on with it, and then
ends or goes on with a blank, a quote, `(`, `@` or `!`. -/
def Keyword.At (k : Keyword) (cs rest : List Char) : Prop :=
  ∃ blanks, Blanks blanks ∧ cs = blanks ++ (k.chars ++ rest) ∧
    ∀ c, rest.head? = some c → endsKeyword c = true

/-- The ways to write a left side: bare, or between two quotes of one kind. -/
inductive LeftSide.Written : LeftSide → List Char → Prop
  | bare {name : List Char} (hne : name ≠ []) (hchars : ∀ c ∈ name, isLeftSideChar c = true) :
      Written (.identifier (String.ofList name)) name
  | quoted {quote : Char} {value : List Char} (hquote : isQuote quote = true) (hne : value ≠ [])
      (hchars : ∀ c ∈ value, isLeftSideChar c = true) :
      Written (.literal (String.ofList value)) (quote :: (value ++ [quote]))

/-- A run of `)`. -/
abbrev closers (n : Nat) : List Char := List.replicate n ')'

/-- A maximal run of characters that are no blanks ends in front of this text. -/
def EndsRun (cs : List Char) : Prop := ∀ c, cs.head? = some c → isBlank c = true

/-- A check at the head of a text: of the maximal run after the colon, `given` closing parentheses
are not part of the right side. -/
inductive ReadsCheck : List Char → LeftSide → List Char → List Char → Prop
  | intro {lhs : LeftSide} {written rhs after : List Char} {given : Nat}
      (hlhs : lhs.Written written) (hne : rhs ≠ []) (hrun : ∀ c ∈ rhs, isBlank c = false)
      (hafter : EndsRun after) :
      ReadsCheck (written ++ ':' :: (rhs ++ (closers given ++ after))) lhs rhs
        (closers given ++ after)

/-- The phrases of the grammar, from the loosest to the tightest. -/
inductive Phrase where
  | disjunction
  | conjunction
  | unary
  | atom
  deriving DecidableEq, Repr

/-- The characters that begin an atom which is no check. -/
def opensAtom (c : Char) : Bool := c = '@' || c = '!' || c = '('

/-- `cs` begins with a phrase whose tree is the expression, and the last text is left over. -/
inductive Reads : Phrase → List Char → Expr → List Char → Prop
  | conjunction {cs e rest} (h : Reads .conjunction cs e rest) : Reads .disjunction cs e rest
  | or {cs left mid cs' right rest} (hleft : Reads .disjunction cs left mid)
      (hor : Keyword.or.At mid cs') (hright : Reads .conjunction cs' right rest) :
      Reads .disjunction cs (.or left right) rest
  | unary {cs e rest} (h : Reads .unary cs e rest) : Reads .conjunction cs e rest
  | and {cs left mid cs' right rest} (hleft : Reads .conjunction cs left mid)
      (hand : Keyword.and.At mid cs') (hright : Reads .unary cs' right rest) :
      Reads .conjunction cs (.and left right) rest
  | not {cs cs' operand rest} (hnot : Keyword.not.At cs cs') (h : Reads .unary cs' operand rest) :
      Reads .unary cs (.not operand) rest
  | atom {cs e rest} (hnot : ∀ cs', ¬ Keyword.not.At cs cs') (h : Reads .atom cs e rest) :
      Reads .unary cs e rest
  | allow {blanks rest} (hb : Blanks blanks) :
      Reads .atom (blanks ++ '@' :: rest) (.const true) rest
  | deny {blanks rest} (hb : Blanks blanks) :
      Reads .atom (blanks ++ '!' :: rest) (.const false) rest
  | group {blanks inner e blanks' rest} (hb : Blanks blanks)
      (h : Reads .disjunction inner e (blanks' ++ ')' :: rest)) (hb' : Blanks blanks') :
      Reads .atom (blanks ++ '(' :: inner) e rest
  | check {blanks cs lhs rhs rest} (hb : Blanks blanks)
      (hopen : ∀ c, cs.head? = some c → opensAtom c = false) (h : ReadsCheck cs lhs rhs rest) :
      Reads .atom (blanks ++ cs) (.check lhs (String.ofList rhs)) rest

/-- The expression is the tree of a reading of the whole text, up to blanks around it. -/
def CompleteReading (cs : List Char) (e : Expr) : Prop :=
  ∃ rest, Reads .disjunction cs e rest ∧ Blanks rest

/-! ## Blanks and keywords -/

/-- Blanks in front of a text are skipped with those it begins with. -/
theorem skipBlanks_append {blanks : List Char} (hb : Blanks blanks) (cs : List Char) :
    skipBlanks (blanks ++ cs) = skipBlanks cs :=
  List.dropWhile_append_of_pos hb

/-- A text that begins with no blank is left as it is. -/
theorem skipBlanks_cons {c : Char} (hc : isBlank c = false) (cs : List Char) :
    skipBlanks (c :: cs) = c :: cs := by
  rw [skipBlanks, List.dropWhile_cons_of_neg (by simp [hc])]

theorem skipBlanks_append_cons {blanks : List Char} (hb : Blanks blanks) {c : Char}
    (hc : isBlank c = false) (cs : List Char) : skipBlanks (blanks ++ c :: cs) = c :: cs :=
  (skipBlanks_append hb _).trans (skipBlanks_cons hc cs)

/-- What is skipped is blank. -/
theorem exists_skipBlanks (cs : List Char) :
    ∃ blanks, Blanks blanks ∧ cs = blanks ++ skipBlanks cs := by
  refine ⟨cs.takeWhile isBlank, ?_, List.takeWhile_append_dropWhile.symm⟩
  exact List.all_eq_true.mp List.all_takeWhile

@[simp] theorem skipBlanks_skipBlanks (cs : List Char) :
    skipBlanks (skipBlanks cs) = skipBlanks cs := by
  obtain ⟨blanks, hb, hcs⟩ := exists_skipBlanks cs
  rw [← skipBlanks_append hb, ← hcs]

theorem blanks_iff {cs : List Char} : Blanks cs ↔ skipBlanks cs = [] := by
  constructor
  · intro h
    have := skipBlanks_append h []
    rwa [List.append_nil] at this
  · intro h
    obtain ⟨blanks, hb, hcs⟩ := exists_skipBlanks cs
    rw [h, List.append_nil] at hcs
    rwa [hcs]

theorem isBlank_of_isLeftSideChar {c : Char} (h : isLeftSideChar c = true) : isBlank c = false := by
  simp only [isLeftSideChar, Bool.not_eq_true', Bool.or_eq_false_iff] at h
  exact h.1.1.1

theorem isBlank_of_isQuote {c : Char} (h : isQuote c = true) : isBlank c = false := by
  simp only [isQuote, Bool.or_eq_true, decide_eq_true_eq] at h
  rcases h with rfl | rfl <;> rfl

theorem Keyword.endsBefore_iff {cs : List Char} :
    Keyword.endsBefore cs = true ↔ ∀ c, cs.head? = some c → endsKeyword c = true := by
  cases cs <;> simp [Keyword.endsBefore]

/-- No keyword begins with a blank. -/
theorem Keyword.skipBlanks_chars (k : Keyword) (rest : List Char) :
    skipBlanks (k.chars ++ rest) = k.chars ++ rest := by
  cases k <;> exact skipBlanks_cons rfl _

/-- The search accepts a keyword exactly where the grammar recognises it. -/
theorem Keyword.accept_eq_some_iff {k : Keyword} {cs rest : List Char} :
    k.accept cs = some rest ↔ k.At cs rest := by
  rw [Keyword.accept, Option.filter_eq_some_iff, afterWord?_eq_some_iff, Keyword.endsBefore_iff]
  constructor
  · rintro ⟨hcs, hend⟩
    obtain ⟨blanks, hb, heq⟩ := exists_skipBlanks cs
    exact ⟨blanks, hb, by rw [heq, hcs], hend⟩
  · rintro ⟨blanks, hb, rfl, hend⟩
    exact ⟨by rw [skipBlanks_append hb, k.skipBlanks_chars], hend⟩

theorem Keyword.accept_eq_none_iff {k : Keyword} {cs : List Char} :
    k.accept cs = none ↔ ∀ rest, ¬ k.At cs rest := by
  simp only [← Keyword.accept_eq_some_iff, Option.eq_none_iff_forall_ne_some, ne_eq]

/-- Blanks in front of a text do not matter to the keywords in it. -/
theorem Keyword.accept_skipBlanks (k : Keyword) (cs : List Char) :
    k.accept (skipBlanks cs) = k.accept cs := by
  simp [Keyword.accept]

/-- At one place at most one keyword is recognised. -/
theorem Keyword.At.unique {k k' : Keyword} {cs rest rest' : List Char} (h : k.At cs rest)
    (h' : k'.At cs rest') : k = k' ∧ rest = rest' := by
  obtain ⟨blanks, hb, rfl, -⟩ := h
  obtain ⟨blanks', hb', heq, -⟩ := h'
  have hskip := congrArg skipBlanks heq
  rw [skipBlanks_append hb, skipBlanks_append hb', k.skipBlanks_chars, k'.skipBlanks_chars] at hskip
  cases k <;> cases k' <;> simp_all [Keyword.chars]

end AccessPolicy
