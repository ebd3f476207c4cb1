import AccessPolicy.Text.Printable

/-!
# Quoted text

How messages show a name: between quotes, with everything that could blur the message escaped.

* the quotes are single, unless the text holds a single quote and no double one;
* the quote in use and the backslash follow a backslash;
* newline, carriage return and tab are `\n`, `\r` and `\t`;
* any other unprintable character is `\xhh`, `\uhhhh` or `\Uhhhhhhhh`, the shortest that fits;
* every other character stands for itself.

`quoteList` and `quotePairs` show lists and name–value pairs of such texts.
-/

namespace AccessPolicy.Text

/-- The lower-case hexadecimal digit of a number below sixteen. -/
def hexDigit (n : Nat) : Char :=
  if n < 10 then Char.ofNat ('0'.toNat + n) else Char.ofNat ('a'.toNat + (n - 10))

/-- The last `width` hexadecimal digits of `n`. -/
def hexDigits : (width : Nat) → (n : Nat) → List Char
  | 0, _ => []
  | width + 1, n => hexDigits width (n / 16) ++ [hexDigit (n % 16)]

/-- A code point as an escape of two, four or eight hexadecimal digits. -/
def codePointEscape (n : Nat) : List Char :=
  if n < 0x100 then ['\\', 'x'] ++ hexDigits 2 n
  else if n < 0x10000 then ['\\', 'u'] ++ hexDigits 4 n
  else ['\\', 'U'] ++ hexDigits 8 n

/-- One character as it stands between two `quote`s. -/
def escapeChar (quote c : Char) : List Char :=
  if c = quote ∨ c = '\\' then ['\\', c]
  else if c = '\n' then ['\\', 'n']
  else if c = '\r' then ['\\', 'r']
  else if c = '\t' then ['\\', 't']
  else if isPrintable c then [c]
  else codePointEscape c.toNat

/-- The quote that needs no escape where there is a choice; the single one otherwise. -/
def quoteFor (cs : List Char) : Char :=
  if '\'' ∈ cs ∧ '"' ∉ cs then '"' else '\''

/-- A text between quotes. -/
def quote (s : String) : String :=
  let cs := s.toList
  let q := quoteFor cs
  String.ofList (q :: cs.flatMap (escapeChar q) ++ [q])

/-- A list of quoted texts, between square brackets. -/
def quoteList (items : List String) : String :=
  "[" ++ ", ".intercalate (items.map quote) ++ "]"

/-- Names with their values, all quoted, between braces. -/
def quotePairs (items : List (String × String)) : String :=
  "\x7b" ++ ", ".intercalate (items.map fun (name, value) => quote name ++ ": " ++ quote value)
    ++ "\x7d"

end AccessPolicy.Text
