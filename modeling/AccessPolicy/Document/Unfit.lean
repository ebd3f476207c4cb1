import AccessPolicy.Document.Calendar
import AccessPolicy.Text.Quoted

/-!
# Scalars that are not what they have to be

A scalar has to be a number or a date where it looks like one or where its tag says so, and may turn
out to be none: digits may be missing, and the calendar may not have the day. An escape may ask for
a character that there is not. `Unfit` says what is wrong; `Unfit.message` says it in words.
-/

namespace AccessPolicy.Document

/-- What is wrong with a scalar. -/
inductive Unfit where
  /-- An escape of a number that no character has. -/
  | noCharacter
  /-- A text that writes no integer in a base. -/
  | noInteger (base : Nat) (text : String)
  /-- More decimal digits than an integer may have. -/
  | integerTooLong (digits : Nat)
  /-- A text that writes no approximate number. -/
  | noDecimal (text : String)
  /-- A date that the calendar, or the clock, does not have. -/
  | outOfRange (why : CalendarError)
  deriving DecidableEq, Repr

/-- The number of decimal digits that an integer may have. -/
def digitLimit : Nat := 4300

/-- What is wrong, in words. A text that is no integer is quoted up to 200 characters. -/
def Unfit.message : Unfit → String
  | .noCharacter => "chr() arg not in range(0x110000)"
  | .noInteger base text =>
    "invalid literal for int() with base " ++ toString base ++ ": "
      ++ String.ofList ((Text.quote text).toList.take 200)
  | .integerTooLong digits =>
    "Exceeds the limit (" ++ toString digitLimit
      ++ " digits) for integer string conversion: value has " ++ toString digits
      ++ " digits; use sys.set_int_max_str_digits() to increase the limit"
  | .noDecimal text => "could not convert string to float: " ++ Text.quote text
  | .outOfRange why => why.message

end AccessPolicy.Document
