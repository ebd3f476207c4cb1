/-!
# Approximate numbers

A number with a point is kept as a binary floating-point number of 64 bits keeps it, and shown by
the fewest decimal digits that read back as the same one.

`round64` takes a fraction to the nearest such number, of two equally near ones to the one with the
even significand. `shortest` tries one digit, two digits and so on, each time the two neighbours on
that decimal grid, until one of them rounds back; of two that do, the nearer is taken. So the shortest
digits stand for the number itself (`Decimal.exact`), and sums and products of such numbers are
exact ones, rounded.
-/

namespace AccessPolicy.Document

/-- A number given approximately: `digits` times the power of ten, or none at all. -/
inductive Decimal where
  | finite (negative : Bool) (digits : Nat) (power : Int)
  | infinite (negative : Bool)
  /-- No number. Two of these are the same only if they are of one origin. -/
  | notANumber (origin : Nat)
  deriving DecidableEq, Repr, Inhabited

/-- A fraction of natural numbers. -/
structure Fraction where
  num : Nat
  den : Nat

/-- A fraction times a power of `base`. -/
def Fraction.scale (q : Fraction) (base : Nat) (power : Int) : Fraction :=
  if 0 ≤ power then ⟨q.num * base.pow power.toNat, q.den⟩
  else ⟨q.num, q.den * base.pow (-power).toNat⟩

/-- The natural number nearest to a fraction, the even one of two. -/
def Fraction.round (q : Fraction) : Nat :=
  let n := q.num / q.den
  let rest := 2 * (q.num % q.den)
  if rest < q.den ∨ (rest = q.den ∧ n % 2 = 0) then n else n + 1

/-- A fraction as a significand with a binary exponent; no exponent is less than that of the
smallest floating-point numbers. -/
def significandAt (q : Fraction) (exponent : Int) : Nat × Int :=
  let exponent := max exponent (-1074)
  ((q.scale 2 (-exponent)).round, exponent)

/-- The significand and the binary exponent of the floating-point number nearest to a fraction: the
least exponent for which 53 binary digits are enough. -/
def round64 (q : Fraction) : Nat × Int :=
  let least : Int := (Nat.log2 q.num : Int) - (Nat.log2 q.den : Int) - 53
  let fits (exponent : Int) := (significandAt q exponent).1 < Nat.pow 2 53
  if fits least then significandAt q least
  else if fits (least + 1) then significandAt q (least + 1)
  else significandAt q (least + 2)

/-- A neighbour of a fraction among the multiples of a power of ten that rounds to `target`, the
nearer one first. -/
def onGrid? (q : Fraction) (target : Nat × Int) (power : Int) : Option (Nat × Int) :=
  let scaled := q.scale 10 (-power)
  let below := scaled.num / scaled.den
  let nearer := scaled.round
  let farther := if nearer = below then below + 1 else below
  [nearer, farther].findSome? fun d =>
    if d ≠ 0 ∧ round64 (Fraction.scale ⟨d, 1⟩ 10 power) = target then some (d, power) else none

/-- Leaves out the zeros at the end of a decimal. -/
def trimZeros : (fuel digits : Nat) → (power : Int) → Nat × Int
  | 0, digits, power => (digits, power)
  | fuel + 1, digits, power =>
    if digits % 10 = 0 then trimZeros fuel (digits / 10) (power + 1) else (digits, power)

/-- The decimal of fewest digits that rounds to the same floating-point number as the fraction,
and nearest to that number. -/
def shortest (q : Fraction) : Nat × Int :=
  let target := round64 q
  let value := Fraction.scale ⟨target.1, 1⟩ 2 target.2
  let length : Int := (Nat.toDigits 10 (value.num / value.den)).length
  let lead : Int :=
    if value.num ≥ value.den then length
    else -((Nat.toDigits 10 (value.den / value.num)).length : Int) + 2
  let found := (List.range 18).findSome? fun (n : Nat) => onGrid? value target (lead - n - 1)
  let (digits, power) := found.getD (0, 0)
  trimZeros 20 digits power

namespace Decimal

/-- The approximate number zero. -/
def zero (negative : Bool) : Decimal := .finite negative 0 0

/-- The approximate number nearest to a fraction. -/
def ofFraction (negative : Bool) (q : Fraction) : Decimal :=
  let (significand, exponent) := round64 q
  if q.num = 0 ∨ significand = 0 then zero negative
  else if exponent > 971 then .infinite negative
  else
    let (digits, power) := shortest q
    .finite negative digits power

/-- The approximate number nearest to `digits` times a power of ten. -/
def ofScientific (negative : Bool) (digits : Nat) (power : Int) : Decimal :=
  let size : Int := (Nat.toDigits 10 digits).length + power
  if digits = 0 ∨ size < -400 then zero negative
  else if size > 400 then .infinite negative
  else ofFraction negative (Fraction.scale ⟨digits, 1⟩ 10 power)

/-- The number for which `digits` times a power of ten stands. -/
def exact (digits : Nat) (power : Int) : Fraction :=
  let (significand, exponent) := round64 (Fraction.scale ⟨digits, 1⟩ 10 power)
  Fraction.scale ⟨significand, 1⟩ 2 exponent

/-- A natural number with a sign. -/
def signed (negative : Bool) (n : Nat) : Int := if negative then -(n : Int) else n

/-- The opposite number. -/
def negate : Decimal → Decimal
  | .finite negative digits power => .finite (!negative) digits power
  | .infinite negative => .infinite (!negative)
  | .notANumber origin => .notANumber origin

/-- The sum of two approximate numbers. -/
def plus : Decimal → Decimal → Decimal
  | .notANumber origin, _ | _, .notANumber origin => .notANumber origin
  | .infinite negative, _ | _, .infinite negative => .infinite negative
  | .finite n a p, .finite m b r =>
    let x := exact a p
    let y := exact b r
    let sum := signed n x.num * y.den + signed m y.num * x.den
    ofFraction (sum < 0) ⟨sum.natAbs, x.den * y.den⟩

/-- The product of an approximate number and a natural number, which is rounded as well. -/
def times (d : Decimal) (factor : Nat) : Decimal :=
  match d, ofFraction false ⟨factor, 1⟩ with
  | .finite negative a p, .finite _ b r =>
    let x := exact a p
    let y := exact b r
    ofFraction negative ⟨x.num * y.num, x.den * y.den⟩
  | .finite negative _ _, other => if negative then other.negate else other
  | other, _ => other

/-- The number of places in base 60 of which each is worth no more than some approximate number. -/
def placeLimit : Nat := 174

/-- Approximate numbers end below two to the power 1024. -/
example : 60 ^ (placeLimit - 1) < 2 ^ 1024 ∧ 2 ^ 1024 ≤ 60 ^ placeLimit := by decide +kernel

/-- The number that digits write in base 60, where `base` is the worth of the first; the digits come
in order of their worth. -/
def sexagesimalFrom (base : Nat) (sum : Decimal) : List Decimal → Decimal
  | [] => sum
  | digit :: rest => sexagesimalFrom (60 * base) (sum.plus (digit.times base)) rest

/-- The number that digits write in base 60. Each step is rounded, from the last digit on. -/
def sexagesimal (digits : List Decimal) : Decimal :=
  sexagesimalFrom 1 (zero false) digits.reverse

/-- Whether an approximate number is a given integer. -/
def isInt (d : Decimal) (n : Int) : Bool :=
  match d with
  | .finite negative digits power =>
    let q := exact digits power
    signed negative q.num == n * q.den
  | _ => false

/-- A sign in front of negative numbers. -/
def sign (negative : Bool) : String := if negative then "-" else ""

/-- An exponent, with its sign and at least two digits. -/
def exponentText (e : Int) : String :=
  let digits := toString e.natAbs
  (if e < 0 then "e-" else "e+") ++ (if digits.length < 2 then "0" ++ digits else digits)

/-- Digits with a point somewhere: positional from 0.0001 up to below 10¹⁶, and with one digit in
front of the point and an exponent outside of that. -/
def pointed (digits : List Char) (power : Int) : String :=
  let exponent : Int := digits.length - 1 + power
  if -4 ≤ exponent ∧ exponent < 16 then
    if 0 ≤ power then
      String.ofList (digits ++ List.replicate power.toNat '0') ++ ".0"
    else if 0 ≤ exponent then
      let whole := (exponent + 1).toNat
      String.ofList (digits.take whole) ++ "." ++ String.ofList (digits.drop whole)
    else
      "0." ++ String.ofList (List.replicate (-exponent - 1).toNat '0' ++ digits)
  else
    let tail := digits.drop 1
    String.ofList (digits.take 1)
      ++ (if tail.isEmpty then "" else "." ++ String.ofList tail) ++ exponentText exponent

/-- An approximate number as it is written. -/
def text : Decimal → String
  | .finite negative digits power => sign negative ++ pointed (Nat.toDigits 10 digits) power
  | .infinite negative => sign negative ++ "inf"
  | .notANumber _ => "nan"

end Decimal
end AccessPolicy.Document
