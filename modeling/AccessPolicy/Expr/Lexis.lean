/-!
# The words of the rule language

The character classes of rule text and its three keywords.

Only space, tab and newline separate words; every other character may stand on the right of a
check. A keyword is recognised after blanks, and only where the text then ends or goes on with a
blank, a quote, `(`, `@` or `!` (`Keyword.accept`): so `and` is found in `@ and@` and not in
`@ android:x`.
-/

namespace AccessPolicy

/-- The characters that separate words. -/
def isBlank (c : Char) : Bool := c = ' ' || c = '\t' || c = '\n'

/-- The characters that open and close a literal. -/
def isQuote (c : Char) : Bool := c = '\'' || c = '"'

/-- The characters that a left side is made of: no blank, no quote, no colon, no backslash. -/
def isLeftSideChar (c : Char) : Bool := !(isBlank c || isQuote c || c = ':' || c = '\\')

/-- The characters that may follow a keyword directly. -/
def endsKeyword (c : Char) : Bool := isBlank c || isQuote c || c = '(' || c = '@' || c = '!'

/-- The text after its leading blanks. -/
def skipBlanks (cs : List Char) : List Char := cs.dropWhile isBlank

/-- What follows `word` in a text that begins with it. -/
def afterWord? : (word text : List Char) → Option (List Char)
  | [], text => some text
  | _ :: _, [] => none
  | w :: word, c :: text => if c = w then afterWord? word text else none

/-- The reserved words of the rule language. -/
inductive Keyword where
  | and
  | or
  | not
  deriving DecidableEq, Repr

namespace Keyword

/-- A keyword as it is written. -/
def chars : Keyword → List Char
  | .and => ['a', 'n', 'd']
  | .or => ['o', 'r']
  | .not => ['n', 'o', 't']

/-- Whether a keyword may end in front of this text. -/
def endsBefore : List Char → Bool
  | [] => true
  | c :: _ => endsKeyword c

/-- The text after the keyword, where the keyword is recognised. -/
def accept (k : Keyword) (cs : List Char) : Option (List Char) :=
  (afterWord? k.chars (skipBlanks cs)).filter endsBefore

end Keyword

/-- A text that begins with `word` is `word` and what follows it. -/
theorem afterWord?_eq_some_iff {word text rest : List Char} :
    afterWord? word text = some rest ↔ text = word ++ rest := by
  induction word generalizing text with
  | nil => simp [afterWord?]
  | cons w word ih =>
    cases text with
    | nil => simp [afterWord?]
    | cons c text =>
      by_cases h : c = w
      · simp [afterWord?, h, ih]
      · simp [afterWord?, h]

/-- Skipping blanks stops in front of a character that is no blank. -/
theorem skipBlanks_head {cs : List Char} {c : Char} {rest : List Char}
    (h : skipBlanks cs = c :: rest) : isBlank c = false := by
  have := List.head_dropWhile_not isBlank (l := cs) (by rw [show cs.dropWhile isBlank = _ from h]; simp)
  simpa [show cs.dropWhile isBlank = _ from h] using this

end AccessPolicy
