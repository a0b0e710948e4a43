/-
How a binary64 number is typed.

A literal is an optional sign, then `inf`, `infinity` or `nan` in any letter
case, or digits with at most one point and at least one digit, and after them
optionally `e` or `E` and an integer, itself with an optional sign. Nothing
stands before or after it, blanks included, and only the ASCII digits count.

Its value is the number nearest to the exact decimal, whatever the count of
digits and the size of the exponent. Exponents past all finite numbers are
settled by the count of digits, so no power of ten grows with them.
-/
import MetricStream.Binary64
import MetricStream.Text.Sign

namespace MetricStream.Binary64

/-- What a number was typed as. -/
inductive Literal where
  /-- `digits · 10 ^ exponent`, the digits those on both sides of the point. -/
  | decimal (negative : Bool) (digits : List Char) (exponent : Int)
  | infinity (negative : Bool)
  | notANumber
deriving DecidableEq

namespace Literal

/-- The exponent after the digits: zero where there is none. -/
def readExponent? : List Char → Option Int
  | [] => some 0
  | c :: cs =>
    if c = 'e' ∨ c = 'E' then
      let (negative, digits) := Text.takeSign cs
      if digits ≠ [] ∧ digits.all Char.isDigit then
        let n := Nat.ofDigitChars 10 digits 0
        some (if negative then -(n : Int) else n)
      else none
    else none

/-- Digits, point and exponent of an unsigned decimal. -/
def readDecimal? (negative : Bool) (cs : List Char) : Option Literal :=
  let whole := cs.takeWhile Char.isDigit
  let afterWhole := cs.dropWhile Char.isDigit
  let afterPoint := match afterWhole with
    | '.' :: rest => rest
    | _ => []
  let fraction := afterPoint.takeWhile Char.isDigit
  let rest := match afterWhole with
    | '.' :: _ => afterPoint.dropWhile Char.isDigit
    | _ => afterWhole
  let digits := whole ++ fraction
  if digits = [] then none
  else (readExponent? rest).map fun e => .decimal negative digits (e - fraction.length)

/-- The literal that the text is, or nothing. -/
def read? (cs : List Char) : Option Literal :=
  let (negative, body) := Text.takeSign cs
  let word := body.map Char.toLower
  if word = "inf".toList ∨ word = "infinity".toList then some (.infinity negative)
  else if word = "nan".toList then some .notANumber
  else readDecimal? negative body

/-- Decimal exponents past this reach no finite number, up or down. -/
def farExponent : Int := 400

/-- The number nearest to `n · 10 ^ exponent`, where `n` has `count` digits. -/
def decimalValue (negative : Bool) (n count : Nat) (exponent : Int) : Binary64 :=
  if n = 0 then .finite negative .zero
  else if farExponent < exponent then .infinite negative
  else if count + exponent < -farExponent then .finite negative .zero
  else if 0 ≤ exponent then ofRatio negative (n * tenTo exponent.toNat * one) 1
  else ofRatio negative (n * one) (tenTo (-exponent).toNat)

/-- The number that the literal stands for. -/
def value : Literal → Binary64
  | .decimal negative digits exponent =>
    decimalValue negative (Nat.ofDigitChars 10 digits 0) digits.length exponent
  | .infinity negative => .infinite negative
  | .notANumber => .nan

end Literal

/-- The number that a text spells, or nothing. -/
def read? (s : String) : Option Binary64 := (Literal.read? s.toList).map Literal.value

end MetricStream.Binary64
