/-
Numbers as text: the shortest decimal, laid out.

A `Layout` holds what a format decides: which numbers are written
positionally, whether a positive exponent shows its sign, which of two equally
near decimals is taken, and the texts of the values that have no digits.
Positional text always has a digit on either side of the point; scientific
text has one digit before the point, and no point if it is the only one.
-/
import MetricStream.Decimal.Shortest

namespace MetricStream.Decimal

/-- The decisions of a number format. -/
structure Layout where
  /-- The least exponent of the leading digit that is written positionally. -/
  plainFrom : Int
  /-- The first exponent of the leading digit past those written positionally. -/
  plainBelow : Int
  /-- A positive exponent is written with its sign. -/
  plusSign : Bool
  tie : Tie
  nan : String
  infinity : String
  negativeInfinity : String

namespace Layout

/-- Digits with the point after the leading one and an exponent. -/
def scientific (l : Layout) (digits : List Char) (lead : Int) : List Char :=
  let mantissa := match digits with
    | [] => []
    | [d] => [d]
    | d :: ds => d :: '.' :: ds
  let sign := if lead < 0 then ['-'] else if l.plusSign then ['+'] else []
  mantissa ++ 'e' :: (sign ++ Nat.toDigits 10 lead.natAbs)

/-- Digits with the point where it belongs and zeros where there are none. -/
def positional (digits : List Char) (lead : Int) : List Char :=
  if lead < 0 then
    '0' :: '.' :: (List.replicate (-lead - 1).toNat '0' ++ digits)
  else
    let whole := lead.toNat + 1
    let before := digits.take whole ++ List.replicate (whole - digits.length) '0'
    let after := digits.drop whole
    before ++ '.' :: (if after = [] then ['0'] else after)

/-- A magnitude's text. -/
def magnitude (l : Layout) (m : Magnitude) : List Char :=
  if m.units = 0 then ['0', '.', '0']
  else
    let d := shortest l.tie m.units
    let digits := Nat.toDigits 10 d.digits
    let lead := d.exponent + digits.length - 1
    if l.plainFrom ≤ lead ∧ lead < l.plainBelow then positional digits lead
    else l.scientific digits lead

/-- The number's text. -/
def text (l : Layout) : Binary64 → String
  | .finite negative m => String.ofList ((if negative then ['-'] else []) ++ l.magnitude m)
  | .infinite false => l.infinity
  | .infinite true => l.negativeInfinity
  | .nan => l.nan

end Layout

end MetricStream.Decimal
