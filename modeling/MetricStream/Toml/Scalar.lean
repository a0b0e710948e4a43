/-
TOML values of one word: numbers, booleans, dates and times.

A word is read whole: it is a value or the document is malformed. Digits may be
parted by single underscores, a decimal integer has no leading zero, and dates
and times name a day and a time that exist. Some words have the form of a number
and stand for none; they are values that nothing can read.
-/
import MetricStream.Binary64.Literal
import MetricStream.Toml.Text
import MetricStream.Toml.Value

namespace MetricStream.Toml

/-- A character of such a word: all but those that part values. -/
def isWord (c : Char) : Bool := !"=,[]\x7b\x7d# \t\r\n".toList.contains c

/-! ## Numbers -/

/-- Digits of a kind with single underscores between them, without the
underscores. -/
def grouped? (isDigit : Char → Bool) : List Char → Option (List Char)
  | [] => none
  | [c] => if isDigit c then some [c] else none
  | c :: '_' :: cs =>
    if isDigit c then (grouped? isDigit cs).map (c :: ·) else none
  | c :: cs => if isDigit c then (grouped? isDigit cs).map (c :: ·) else none

/-- The value of digits in a base. -/
def digitsValue (base : Nat) (cs : List Char) : Nat :=
  cs.foldl (fun n c => n * base + (Text.hexValue? c).getD 0) 0

/-- A digit of a base. -/
def isDigitOf (base : Nat) (c : Char) : Bool :=
  match Text.hexValue? c with
  | some d => d < base
  | none => false

/-- A natural number in a base; without a digit it is unreadable. -/
def naturalIn? (base : Nat) : List Char → Option Value
  | [] => some .unreadable
  | cs => (grouped? (isDigitOf base) cs).map fun digits => .integer (digitsValue base digits)

/-- Every underscore stands right after a digit, those of base sixteen included,
and right before one. `before` says that the text follows such a digit. -/
def underscoresFit : Bool → List Char → Bool
  | _, [] => true
  | before, '_' :: cs => before && cs.head?.any (isDigitOf 16) && underscoresFit false cs
  | _, c :: cs => underscoresFit (isDigitOf 16 c) cs

/-- A decimal integer. It starts with its sign, its digits, or both, and has no
leading zero and no mark of a float. A sign may be parted from the digits too.
From the first underscore on, its digits need not be decimal ones: it is then
unreadable. -/
def decimal? (cs : List Char) : Option Value :=
  let (negative, body) := Text.takeSign cs
  let digits := body.filter (· != '_')
  if body.isEmpty || (body.head? == some '0' && body != ['0'])
      || body.any (fun c => c == '.' || c == 'e' || c == 'E')
      || !underscoresFit (body.length < cs.length) body then none
  else if digits.all Char.isDigit then
    let n := Nat.ofDigitChars 10 digits 0
    some (.integer (if negative then -(n : Int) else n))
  else if (body.dropWhile Char.isDigit).head? == some '_' then some .unreadable
  else none

/-- An integer, in the base that its first two characters name. -/
def integer? : List Char → Option Value
  | '0' :: 'x' :: cs => naturalIn? 16 cs
  | '0' :: 'o' :: cs => naturalIn? 8 cs
  | '0' :: 'b' :: cs => naturalIn? 2 cs
  | cs => decimal? cs

/-- The digits before the point, without a leading zero. Where an underscore
parts them from a sign, zeros may lead. -/
def wholeDigits? (signed : Bool) (cs : List Char) : Option (List Char) :=
  match cs with
  | '_' :: rest => if signed then grouped? Char.isDigit rest else none
  | _ =>
    match grouped? Char.isDigit cs with
    | some ('0' :: _ :: _) => none
    | digits => digits

/-- The digits of an exponent, with its sign. -/
def exponentText? : List Char → Option (List Char)
  | [] => some []
  | c :: cs =>
    if c = 'e' ∨ c = 'E' then
      let (negative, body) := Text.takeSign cs
      (grouped? Char.isDigit body).map fun digits =>
        'e' :: ((if negative then ['-'] else []) ++ digits)
    else none

/-- What follows the digits before the point: a fraction, an exponent, or
both. -/
def floatTail? : List Char → Option (List Char)
  | '.' :: cs =>
    let fraction := cs.takeWhile fun c => c.isDigit || c == '_'
    match grouped? Char.isDigit fraction, exponentText? (cs.drop fraction.length) with
    | some digits, some exponent => some ('.' :: (digits ++ exponent))
    | _, _ => none
  | [] => none
  | cs => exponentText? cs

/-- A floating point number: a sign and a word, or digits with a fraction or an
exponent. -/
def float? (cs : List Char) : Option Value :=
  let (negative, body) := Text.takeSign cs
  if body = "inf".toList then some (.float (.infinite negative))
  else if body = "nan".toList then some (.float .nan)
  else
    let whole := body.takeWhile fun c => c.isDigit || c == '_'
    match wholeDigits? (body.length < cs.length) whole, floatTail? (body.drop whole.length) with
    | some digits, some tail =>
      match Binary64.read? (String.ofList ((if negative then ['-'] else []) ++ digits ++ tail)) with
      | some x => some (if x.isFinite then .float x else .unreadable)
      | none => none
    | _, _ => none

/-! ## Dates and times -/

/-- The number of exactly `count` decimal digits at the front. -/
def fixedDigits? (count : Nat) (cs : List Char) : Read Nat :=
  let digits := cs.take count
  if digits.length = count ∧ digits.all Char.isDigit then
    some (Nat.ofDigitChars 10 digits 0, cs.drop count)
  else none

/-- How many days a month has. -/
def daysIn (year month : Nat) : Nat :=
  match month with
  | 2 => if year % 4 = 0 ∧ (year % 100 ≠ 0 ∨ year % 400 = 0) then 29 else 28
  | 4 | 6 | 9 | 11 => 30
  | _ => 31

/-- The text after a date. -/
def dateRest? (cs : List Char) : Option (List Char) := do
  let (year, cs) ← fixedDigits? 4 cs
  let cs ← match cs with | '-' :: cs => some cs | _ => none
  let (month, cs) ← fixedDigits? 2 cs
  let cs ← match cs with | '-' :: cs => some cs | _ => none
  let (day, cs) ← fixedDigits? 2 cs
  if 1 ≤ month ∧ month ≤ 12 ∧ 1 ≤ day ∧ day ≤ daysIn year month then some cs else none

/-- The text after the seconds of a time, which may be left out. -/
def secondsRest? (cs : List Char) : Option (List Char) :=
  match cs with
  | ':' :: cs => do
    let (second, cs) ← fixedDigits? 2 cs
    if second ≤ 60 then
      match cs with
      | '.' :: cs =>
        let digits := cs.takeWhile Char.isDigit
        if digits = [] then none else some (cs.drop digits.length)
      | cs => some cs
    else none
  | cs => some cs

/-- The text after a time of day. -/
def timeRest? (cs : List Char) : Option (List Char) := do
  let (hour, cs) ← fixedDigits? 2 cs
  let cs ← match cs with | ':' :: cs => some cs | _ => none
  let (minute, cs) ← fixedDigits? 2 cs
  if hour ≤ 23 ∧ minute ≤ 59 then secondsRest? cs else none

/-- The text is an offset from universal time, or none. -/
def isOffset (cs : List Char) : Bool :=
  match cs with
  | [] => true
  | ['Z'] => true
  | ['z'] => true
  | c :: cs =>
    (c == '+' || c == '-') &&
      match fixedDigits? 2 cs with
      | some (hour, ':' :: cs) =>
        match fixedDigits? 2 cs with
        | some (minute, []) => hour ≤ 23 && minute ≤ 59
        | _ => false
      | _ => false

/-- The text is a date, a time, or both. -/
def isDate (cs : List Char) : Bool :=
  match dateRest? cs with
  | some [] => true
  | some (c :: rest) =>
    (c == 'T' || c == 't' || c == ' ') &&
      match timeRest? rest with
      | some rest => isOffset rest
      | none => false
  | none => timeRest? cs == some []

/-! ## Words -/

/-- A date may be parted from its time by one blank; this is the word with the
time, if a time follows. -/
def withTime (word : List Char) (rest : List Char) : List Char × List Char :=
  match dateRest? word, rest with
  | some [], ' ' :: after =>
    match fixedDigits? 2 after with
    | some _ =>
      let time := after.takeWhile isWord
      (word ++ ' ' :: time, after.drop time.length)
    | none => (word, rest)
  | _, _ => (word, rest)

/-- The value of a word. -/
def word? (cs : List Char) : Option Value :=
  if cs = "true".toList then some (.boolean true)
  else if cs = "false".toList then some (.boolean false)
  else match integer? cs with
    | some v => some v
    | none =>
      match float? cs with
      | some v => some v
      | none => if isDate cs then some (.date (String.ofList cs)) else none

/-- The value of the word at the front. -/
def scalar (cs : List Char) : Read Value :=
  let (word, rest) := withTime (cs.takeWhile isWord) (cs.dropWhile isWord)
  (word? word).map fun v => (v, rest)

end MetricStream.Toml
