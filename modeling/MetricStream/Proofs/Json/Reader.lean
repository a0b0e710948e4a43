/-
Reading JSON.

The grammar of RFC 8259, as a function from texts to values: blanks between the parts,
numbers without zeros in front, strings in which no character below the space stands as it
is, every escape, with two units of UTF-16 for the characters past the first 65536. A text
of anything else, or with anything after its value, is not read. Fields keep their order,
the same name twice is two fields, and a number is kept as the text it is written with.

This is what a receiver of a submission does, and so the specification of what is rendered:
it has no part in the program. Reading takes a bound on how deep and how far it goes, for
which the length of the text will do: there is a character for every step.
-/
import MetricStream.Json
import MetricStream.Text.Hex
import MetricStream.Text.Sign

namespace MetricStream

namespace Json

/-! ## Numbers -/

def isDigits (cs : List Char) : Bool := cs ≠ [] && cs.all Char.isDigit

/-- Nothing, or an exponent. -/
def isExponent : List Char → Bool
  | [] => true
  | c :: cs => (c = 'e' || c = 'E') && isDigits (Text.takeSign cs).2

/-- What may follow the whole part of a number: a point and digits, an exponent, or both. -/
def isTail : List Char → Bool
  | '.' :: cs => isDigits (cs.takeWhile Char.isDigit) && isExponent (cs.dropWhile Char.isDigit)
  | cs => isExponent cs

/-- A number without its sign. The whole part starts with a zero only if it is one. -/
def isUnsigned (cs : List Char) : Bool :=
  let whole := cs.takeWhile Char.isDigit
  (whole = ['0'] || whole.head?.any (· ≠ '0')) && isTail (cs.dropWhile Char.isDigit)

def isNumber : List Char → Bool
  | '-' :: cs => isUnsigned cs
  | cs => isUnsigned cs

/-- The characters that numbers are written with. -/
def isNumberChar (c : Char) : Bool := c.isDigit || c ∈ ['-', '+', '.', 'e', 'E']

def readNumber (cs : List Char) : Option (Json × List Char) :=
  let text := cs.takeWhile isNumberChar
  if isNumber text then some (.number (String.ofList text), cs.dropWhile isNumberChar) else none

/-! ## Strings -/

/-- Four hexadecimal digits: a unit of UTF-16. -/
def readUnit : List Char → Option (Nat × List Char)
  | a :: b :: c :: d :: cs => do
    let a ← Text.hexValue? a
    let b ← Text.hexValue? b
    let c ← Text.hexValue? c
    let d ← Text.hexValue? d
    some (((a * 16 + b) * 16 + c) * 16 + d, cs)
  | _ => none

/-- A character by its code: one unit, or two surrogates of which the first is the high
one. -/
def readCode (cs : List Char) : Option (Char × List Char) := do
  let (unit, cs) ← readUnit cs
  if unit < 0xD800 ∨ 0xDFFF < unit then some (Char.ofNat unit, cs)
  else if 0xDBFF < unit then none
  else match cs with
    | '\\' :: 'u' :: cs => do
      let (low, cs) ← readUnit cs
      if 0xDC00 ≤ low ∧ low ≤ 0xDFFF then
        some (Char.ofNat (0x10000 + (unit - 0xD800) * 0x400 + (low - 0xDC00)), cs)
      else none
    | _ => none

/-- What the letters after a backslash stand for. -/
def letters : List (Char × Char) :=
  [('"', '"'), ('\\', '\\'), ('/', '/'), ('b', Char.ofNat 0x08), ('f', Char.ofNat 0x0C), ('n', '\n'),
    ('r', '\r'), ('t', '\t')]

/-- One character of a string, as it is or escaped. -/
def readChar : List Char → Option (Char × List Char)
  | [] => none
  | '\\' :: cs =>
    match cs with
    | [] => none
    | c :: cs => if c = 'u' then readCode cs else (letters.lookup c).map (·, cs)
  | c :: cs => if c = '"' ∨ c.toNat < 0x20 then none else some (c, cs)

/-- Characters up to the closing quote. -/
def readChars : Nat → List Char → Option (List Char × List Char)
  | 0, _ => none
  | fuel + 1, cs =>
    match cs with
    | '"' :: cs => some ([], cs)
    | cs => do
      let (c, cs) ← readChar cs
      let (text, cs) ← readChars fuel cs
      some (c :: text, cs)

/-- A string, after its opening quote. -/
def readString (cs : List Char) : Option (String × List Char) :=
  (readChars cs.length cs).map fun (text, cs) => (String.ofList text, cs)

/-! ## Values -/

def isBlank (c : Char) : Bool := c ∈ [' ', '\t', '\n', '\r']

def skip (cs : List Char) : List Char := cs.dropWhile isBlank

/-- The values with names. -/
def readName : List Char → Option (Json × List Char)
  | 'n' :: 'u' :: 'l' :: 'l' :: cs => some (.null, cs)
  | 't' :: 'r' :: 'u' :: 'e' :: cs => some (.bool true, cs)
  | 'f' :: 'a' :: 'l' :: 's' :: 'e' :: cs => some (.bool false, cs)
  | _ => none

mutual

/-- One value, and what stands after it. -/
def readValue : Nat → List Char → Option (Json × List Char)
  | 0, _ => none
  | fuel + 1, cs =>
    match skip cs with
    | [] => none
    | c :: cs =>
      if c = '"' then (readString cs).map fun (text, cs) => (.string text, cs)
      else if c = '[' then
        match skip cs with
        | ']' :: cs => some (.array [], cs)
        | cs => (readItems fuel cs).map fun (items, cs) => (.array items, cs)
      else if c = '{' then
        match skip cs with
        | '}' :: cs => some (.object [], cs)
        | cs => (readFields fuel cs).map fun (fields, cs) => (.object fields, cs)
      else if isNumberChar c then readNumber (c :: cs)
      else readName (c :: cs)

/-- The items of an array that has some, up to its end. -/
def readItems : Nat → List Char → Option (List Json × List Char)
  | 0, _ => none
  | fuel + 1, cs => do
    let (item, cs) ← readValue fuel cs
    match skip cs with
    | ',' :: cs =>
      let (items, cs) ← readItems fuel cs
      some (item :: items, cs)
    | ']' :: cs => some ([item], cs)
    | _ => none

/-- The fields of an object that has some, up to its end. -/
def readFields : Nat → List Char → Option (List (String × Json) × List Char)
  | 0, _ => none
  | fuel + 1, cs =>
    match skip cs with
    | '"' :: cs => do
      let (name, cs) ← readString cs
      match skip cs with
      | ':' :: cs =>
        let (value, cs) ← readValue fuel cs
        match skip cs with
        | ',' :: cs =>
          let (fields, cs) ← readFields fuel cs
          some ((name, value) :: fields, cs)
        | '}' :: cs => some ([(name, value)], cs)
        | _ => none
      | _ => none
    | _ => none

end

/-- The value of a text. -/
def read? (text : String) : Option Json := do
  let (value, rest) ← readValue text.toList.length text.toList
  if skip rest = [] then some value else none

end Json

end MetricStream
