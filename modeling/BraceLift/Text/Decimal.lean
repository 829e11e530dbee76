/-
Whole numbers written in decimal.

Numbers are printed without a sign or leading zeros. A number that is
read may have one plus sign in front and any leading zeros, and has to
stay below a bound; digits are looked at from the left, so of a text
with a bad character and too large a value the fault met first is the
one reported.
-/
import BraceLift.Text.Basic

namespace BraceLift.Text

/-- A natural number in decimal. -/
def ofNat (n : Nat) : Text :=
  Nat.toDigits 10 n

/-- An integer in decimal, with a minus sign if it is negative. -/
def ofInt : Int → Text
  | .ofNat n => ofNat n
  | .negSucc n => '-' :: ofNat (n + 1)

/-- Why a text is no number below the bound. -/
inductive NumberFault where
  | empty
  | badDigit
  | tooLarge
  deriving DecidableEq

/-- The value after some more digits, the ones before them being worth
`value`. -/
def readDigits (bound : Nat) : Nat → Text → Except NumberFault Nat
  | value, [] => .ok value
  | value, c :: rest =>
      if c.isDigit then
        let next := value * 10 + (c.toNat - '0'.toNat)
        if next < bound then readDigits bound next rest else .error .tooLarge
      else .error .badDigit

/-- Reads a number below `bound`. -/
def readNat (bound : Nat) : Text → Except NumberFault Nat
  | [] => .error .empty
  | ['+'] => .error .badDigit
  | '+' :: digits => readDigits bound 0 digits
  | digits => readDigits bound 0 digits

end BraceLift.Text
