import AccessPolicy.Document.Glyph
import AccessPolicy.Document.Value

/-!
# Scalars

Every node of a document has a *tag*, which says what it is to be. Where none is written, a plain
text is what it looks like (`Tag.ofLook`):

* nothing: the empty text, `~` and `null`;
* a truth value: `yes`, `no`, `true`, `false`, `on` and `off`;
* an integer: decimal, octal after `0`, hexadecimal after `0x`, binary after `0b`, and in base 60 with
  colons; underscores may stand between the digits;
* a number with a point, also with an exponent that has a sign, in base 60 with colons, and `.inf` and
  `.nan`;
* a date, maybe with a time of day;
* `<<`, which as a key merges a mapping into the one around it, and `=`, the default key;
* in all other cases a text.

Words are known in lower case, capitalised and in upper case. A line break at the end does not
change the look.

`readScalar` makes a value from a text as its tag says. It takes more than what looks right, because
a tag may stand in front of any text, and refuses some of what looks right: the calendar may lack
the day.
-/

namespace AccessPolicy.Document

/-- What a node is to be. -/
inductive Tag where
  | null
  | bool
  | int
  | float
  | date
  | text
  | binary
  | sequence
  | mapping
  /-- A mapping of which only the keys count. -/
  | set
  /-- A sequence of mappings with one entry each, for the sake of their order. -/
  | pairs
  /-- The key that merges mappings. -/
  | merge
  /-- The default key, which is a text as a key and nothing elsewhere. -/
  | default
  /-- Anything else; nothing is known about it. -/
  | other
  deriving DecidableEq, Repr, Inhabited

/-! ## Looks -/

/-- An ASCII digit or an underscore. -/
def isDigitOrUnderscore (c : Char) : Bool := c.isDigit || c = '_'

/-- A text without its sign, and whether that is a minus. -/
def splitSign : List Char → Bool × List Char
  | '-' :: rest => (true, rest)
  | '+' :: rest => (false, rest)
  | cs => (false, cs)

/-- The parts of a text between its colons. -/
def colonParts (cs : List Char) : List (List Char) := cs.splitOn ':'

/-- A part of a number in base 60 after the first: below sixty, in one or two digits. -/
def isSixtieth : List Char → Bool
  | [a] => a.isDigit
  | [a, b] => '0' ≤ a && a ≤ '5' && b.isDigit
  | _ => false

/-- Whether parts after the first belong to a number in base 60: there is one, and all are below
sixty. -/
def areSixtieths (parts : List (List Char)) : Bool := !parts.isEmpty && parts.all isSixtieth

/-- A hexadecimal digit or an underscore. -/
def isHexOrUnderscore (c : Char) : Bool := (hexValue? c).isSome || c = '_'

/-- Whether digits without a sign look like an integer. -/
def looksNatural : List Char → Bool
  | ['0'] => true
  | '0' :: 'b' :: digits => !digits.isEmpty && digits.all fun c => c = '0' || c = '1' || c = '_'
  | '0' :: 'x' :: digits => !digits.isEmpty && digits.all isHexOrUnderscore
  | '0' :: digits => digits.all fun c => ('0' ≤ c && c ≤ '7') || c = '_'
  | c :: digits =>
    c.isDigit && match colonParts digits with
      | [] => true
      | [whole] => whole.all isDigitOrUnderscore
      | whole :: sixtieths => whole.all isDigitOrUnderscore && areSixtieths sixtieths
  | [] => false

/-- Whether what follows a number with a point is nothing, or an exponent: `e`, a sign and digits. -/
def looksExponent : List Char → Bool
  | [] => true
  | e :: sign :: digits =>
    (e = 'e' || e = 'E') && (sign = '+' || sign = '-') && !digits.isEmpty && digits.all Char.isDigit
  | _ => false

/-- Whether digits without a sign, with a point in them, look like a number. -/
def looksPointed (cs : List Char) : Bool :=
  match colonParts (cs.takeWhile (· ≠ '.')), cs.dropWhile (· ≠ '.') with
  | first :: sixtieths, '.' :: places =>
    let after := places.dropWhile isDigitOrUnderscore
    first.head?.any Char.isDigit && first.all isDigitOrUnderscore
      && if sixtieths.isEmpty then looksExponent after
        else areSixtieths sixtieths && after.isEmpty
  | _, _ => false

/-- Whether a text is a word in lower case, capitalised or in upper case. -/
def isWord (word : String) (cs : List Char) : Bool :=
  let lower := word.toList
  cs = lower || cs = lower.map Char.toUpper
    || cs = (lower.take 1).map Char.toUpper ++ lower.drop 1

/-- Whether a text looks like a number with a point. -/
def looksDecimal (cs : List Char) : Bool :=
  match (splitSign cs).2 with
  | '.' :: rest =>
    isWord "inf" rest || ((splitSign cs).2 = cs &&
      (["nan", "NaN", "NAN"].any (·.toList = rest)
        || (rest.head?.any Char.isDigit && looksExponent (rest.dropWhile isDigitOrUnderscore))))
  | unsigned => looksPointed unsigned

/-- A text that is a date as it is written: the numbers in it. -/
structure WrittenDate where
  day : Day
  clock : Option (Clock × Option Int)

/-- The number that decimal digits write. -/
def decimalNumber (digits : List Char) : Nat :=
  digits.foldl (fun n c => 10 * n + (c.toNat - '0'.toNat)) 0

/-- The number that a text writes in decimal digits, as many as one of these numbers. -/
def digits? (lengths : List Nat) (cs : List Char) : Option Nat :=
  if lengths.contains cs.length ∧ cs.all Char.isDigit then some (decimalNumber cs) else none

/-- The microseconds that the digits after the point of a second write. -/
def microseconds (digits : List Char) : Nat :=
  decimalNumber ((digits ++ List.replicate 6 '0').take 6)

/-- The offset, in seconds, that a text writes. -/
def writtenOffset? : List Char → Option Int
  | [] => none
  | ['Z'] => some 0
  | sign :: offset =>
    if sign ≠ '+' ∧ sign ≠ '-' then none
    else do
      let (hours, minutes) ← match colonParts offset with
        | [hours] => pure (← digits? [1, 2] hours, 0)
        | [hours, minutes] => pure (← digits? [1, 2] hours, ← digits? [2] minutes)
        | _ => none
      let seconds : Int := 3600 * hours + 60 * minutes
      return if sign = '-' then -seconds else seconds

/-- The time of day that a text writes, maybe with a fraction of a second and an offset. -/
def writtenClock? (cs : List Char) : Option (Clock × Option Int) :=
  match colonParts cs with
  | hour :: minute :: rest => do
    let rest := [':'].intercalate rest
    let (fraction, zone) := match rest.drop 2 with
      | '.' :: after => (after.takeWhile Char.isDigit, after.dropWhile Char.isDigit)
      | after => ([], after)
    let offset ← if zone.isEmpty then pure none else
      (writtenOffset? (zone.dropWhile isSpacing)).map some
    return (⟨← digits? [1, 2] hour, ← digits? [2] minute, ← digits? [2] (rest.take 2),
      microseconds fraction⟩, offset)
  | _ => none

/-- The time of day after a day: behind a `T`, or behind spaces and tabs. -/
def clockAfterDay? : List Char → Option (Clock × Option Int)
  | c :: rest =>
    if c = 'T' ∨ c = 't' then writtenClock? rest
    else if isSpacing c then writtenClock? (rest.dropWhile isSpacing)
    else none
  | [] => none

/-- The date that a text writes. -/
def writtenDate? (cs : List Char) : Option WrittenDate :=
  match cs.splitOn '-' with
  | year :: month :: rest => do
    let rest := ['-'].intercalate rest
    let day : Day := ⟨← digits? [4] year, ← digits? [1, 2] month,
      ← digits? [1, 2] (rest.takeWhile Char.isDigit)⟩
    match rest.dropWhile Char.isDigit with
    | [] => return ⟨day, none⟩
    | after => return ⟨day, some (← clockAfterDay? after)⟩
  | _ => none

/-- Whether a text looks like a date. Without a time of day, month and day have two digits each. -/
def looksDate (cs : List Char) : Bool :=
  match writtenDate? cs with
  | none => false
  | some ⟨_, some _⟩ => true
  | some ⟨_, none⟩ => cs.length = 10

/-- A text without the line break at its end. -/
def dropLastBreak (cs : List Char) : List Char :=
  if cs.getLast? = some '\n' then cs.dropLast else cs

/-- What a plain text looks like. -/
def Tag.ofLook (text : String) : Tag :=
  let cs := dropLastBreak text.toList
  let isAny (words : List String) := words.any fun word => isWord word cs
  if text.isEmpty ∨ cs = ['~'] ∨ isAny ["null"] then .null
  else if isAny ["yes", "no", "true", "false", "on", "off"] then .bool
  else if looksDecimal cs then .float
  else if looksNatural (splitSign cs).2 then .int
  else if cs = ['<', '<'] then .merge
  else if looksDate cs then .date
  else if cs = ['='] then .default
  else .text

/-! ## Numbers -/

/-- The characters that may stand around a number. -/
def isNumberSpace (c : Char) : Bool :=
  let n := c.toNat
  (9 ≤ n && n ≤ 13) || (28 ≤ n && n ≤ 32) || n = 0x85 || n = 0xA0 || n = 0x1680
    || (0x2000 ≤ n && n ≤ 0x200A) || n = 0x2028 || n = 0x2029 || n = 0x202F || n = 0x205F
    || n = 0x3000

/-- A text without the spaces around it. -/
def trimNumber (cs : List Char) : List Char :=
  ((cs.dropWhile isNumberSpace).reverse.dropWhile isNumberSpace).reverse

/-- The value of a digit in a base, where a letter counts from ten on. -/
def digitIn? (base : Nat) (c : Char) : Option Nat := (hexValue? c).filter (· < base)

/-- The mark that may stand in front of the digits in a base. -/
def baseMark? (base : Nat) : Option Char :=
  if base = 16 then some 'x' else if base = 8 then some 'o' else if base = 2 then some 'b' else none

/-- Digits without the mark of their base. -/
def dropBaseMark (base : Nat) : List Char → List Char
  | '0' :: c :: rest =>
    if baseMark? base = some c.toLower ∧ rest.head?.any (digitIn? base · |>.isSome) then rest
    else '0' :: c :: rest
  | cs => cs

/-- The integer that a text writes in a base. Only in base ten the number of digits is limited. -/
def integerIn (base : Nat) (cs : List Char) : Except Malformed Int :=
  let (negative, unsigned) := splitSign (trimNumber cs)
  let written := dropBaseMark base unsigned
  let digits := (written.map (digitIn? base)).takeWhile (·.isSome)
  if base = 10 ∧ digitLimit < digits.length then .error (.unfit (.integerTooLong digits.length))
  else if digits.isEmpty ∨ digits.length < written.length then
    .error (.unfit (.noInteger base (String.ofList cs)))
  else
    let n := digits.foldl (fun n digit => base * n + digit.getD 0) 0
    .ok (Decimal.signed negative n)

/-- The integer that a text without a sign writes. -/
def readUnsignedInteger : List Char → Except Malformed Int
  | [] => .error .emptyNumber
  | ['0'] => .ok 0
  | '0' :: 'b' :: digits => integerIn 2 digits
  | '0' :: 'x' :: digits => integerIn 16 digits
  | '0' :: rest => integerIn 8 ('0' :: rest)
  | cs => do
    let parts ← (colonParts cs).mapM (integerIn 10)
    .ok (parts.foldl (fun n part => 60 * n + part) 0)

/-- The integer that a text writes. -/
def readInteger (text : String) : Except Malformed Int :=
  match text.toList.filter (· ≠ '_') with
  | [] => .error .emptyNumber
  | cs =>
    let (negative, unsigned) := splitSign cs
    (readUnsignedInteger unsigned).map fun n => if negative then -n else n

/-- The exponent that ends an approximate number; its sign may be missing. -/
def exponent? : List Char → Option Int
  | [] => some 0
  | 'e' :: rest =>
    let (negative, digits) := splitSign rest
    if digits.isEmpty ∨ !digits.all Char.isDigit then none
    else some (Decimal.signed negative (decimalNumber digits))
  | _ => none

/-- The approximate number that digits without a sign write; a point may stand anywhere. -/
def unsignedDecimal? (negative : Bool) (cs : List Char) : Option Decimal :=
  let whole := cs.takeWhile Char.isDigit
  let (places, after) := match cs.dropWhile Char.isDigit with
    | '.' :: rest => (rest.takeWhile Char.isDigit, rest.dropWhile Char.isDigit)
    | rest => ([], rest)
  if whole.isEmpty ∧ places.isEmpty then none
  else (exponent? after).map fun e =>
    .ofScientific negative (decimalNumber (whole ++ places)) (e - places.length)

/-- The approximate number that a text in lower case writes; `origin` is that of the text. -/
def decimalOf (origin : Nat) (cs : List Char) : Except Malformed Decimal :=
  let (negative, unsigned) := splitSign (trimNumber cs)
  if unsigned = "inf".toList ∨ unsigned = "infinity".toList then .ok (.infinite negative)
  else if unsigned = "nan".toList then .ok (.notANumber (origin + 1))
  else match unsignedDecimal? negative unsigned with
    | some d => .ok d
    | none => .error (.unfit (.noDecimal (String.ofList cs)))

/-- The approximate number that a text in lower case without a sign writes. The `.nan` of every text
is one and the same; any other that is no number is its own. -/
def readUnsignedDecimal (origin : Nat) (cs : List Char) : Except Malformed Decimal :=
  if cs = ".inf".toList then .ok (.infinite false)
  else if cs = ".nan".toList then .ok (.notANumber 0)
  else match colonParts cs with
    | [_] => decimalOf origin cs
    | parts => do
      let digits ← parts.mapM (decimalOf origin)
      if Decimal.placeLimit < digits.length then .error .tooManyPlaces
      else .ok (Decimal.sexagesimal digits)

/-- The approximate number that a text writes. -/
def readDecimal (origin : Nat) (text : String) : Except Malformed Decimal :=
  match (text.toList.filter (· ≠ '_')).map Char.toLower with
  | [] => .error .emptyNumber
  | cs =>
    let (negative, unsigned) := splitSign cs
    (readUnsignedDecimal origin unsigned).map fun d => if negative then d.negate else d

/-! ## Values -/

/-- The truth value of a word, whose ASCII letters may be capital. -/
def readTruthValue (text : String) : Except Malformed Bool :=
  let word := String.ofList (text.toList.map Char.toLower)
  if ["yes", "true", "on"].contains word then .ok true
  else if ["no", "false", "off"].contains word then .ok false
  else .error (.noTruthValue word)

/-- The date of a text. -/
def readDate (text : String) : Except Malformed Moment :=
  match writtenDate? (dropLastBreak text.toList) with
  | none => .error .noDate
  | some ⟨day, none⟩ => (Moment.ofDay day).mapError fun e => .unfit (.outOfRange e)
  | some ⟨day, some (clock, offset)⟩ =>
    (Moment.ofTime day clock offset).mapError fun e => .unfit (.outOfRange e)

/-- The value of a base-64 digit. -/
def sixBits? (c : Char) : Option Nat :=
  if c.isUpper then some (c.toNat - 'A'.toNat)
  else if c.isLower then some (c.toNat - 'a'.toNat + 26)
  else if c.isDigit then some (c.toNat - '0'.toNat + 52)
  else if c = '+' then some 62
  else if c = '/' then some 63
  else none

/-- The bytes that base-64 digits write. Four digits write three bytes; `held` are the bits that the
last `count` digits of a group leave over, and `padding` is the number of equals signs right in front.
Two signs, or one after three digits, end the data; anything else that is no digit is skipped. -/
def readBinary (count held padding : Nat) : List Char → Except Malformed (List UInt8)
  | [] => if count = 0 then .ok [] else .error .badBinary
  | c :: rest =>
    if c = '=' then
      if 2 ≤ count ∧ 4 ≤ count + padding + 1 then .ok []
      else readBinary count held (if 2 ≤ count then padding + 1 else padding) rest
    else match sixBits? c with
      | none => readBinary count held padding rest
      | some digit =>
        let bits := 64 * held + digit
        let byte (drop : Nat) := UInt8.ofNat (bits / drop)
        match count with
        | 0 => readBinary 1 digit 0 rest
        | 1 => (readBinary 2 (bits % 16) 0 rest).map (byte 16 :: ·)
        | 2 => (readBinary 3 (bits % 4) 0 rest).map (byte 4 :: ·)
        | _ => (readBinary 0 0 0 rest).map (byte 1 :: ·)

/-- The value of a text with a tag; `origin` tells the text from all others. -/
def readScalar (tag : Tag) (origin : Nat) (text : String) : Except Malformed Value :=
  match tag with
  | .null => .ok .null
  | .text => .ok (.text text)
  | .bool => (readTruthValue text).map .bool
  | .int => (readInteger text).map .int
  | .float => (readDecimal origin text).map .decimal
  | .date => (readDate text).map .date
  | .binary =>
    if text.toList.all fun c => c.toNat < 0x80 then (readBinary 0 0 0 text.toList).map .bytes
    else .error .badBinary
  | _ => .error .unsuitableTag

end AccessPolicy.Document
