/-
Octets read as text.

`decodeStrict` is UTF-8 with no leniency: overlong forms, surrogates and
numbers past the last code point are refused. `decodeLossy` accepts every
sequence of octets: each maximal ill-formed part becomes one replacement
character. `decodeMarked` does the same after looking for a byte order mark,
which decides between UTF-8 and the two orders of UTF-16 and is not part of
the text.
-/
namespace MetricStream.Text.Octets

/-- The character that stands for what could not be read. -/
def replacement : Char := Char.ofNat 0xFFFD

/-- What the first octet of a character says of the rest: how many octets
follow, its own share of the code point, and the least and the greatest value
of the octet after it. -/
def lead? (b : UInt8) : Option (Nat × Nat × Nat × Nat) :=
  let n := b.toNat
  if n ≤ 0x7F then some (0, n, 0x80, 0xBF)
  else if 0xC2 ≤ n && n ≤ 0xDF then some (1, n - 0xC0, 0x80, 0xBF)
  else if n == 0xE0 then some (2, n - 0xE0, 0xA0, 0xBF)
  else if n == 0xED then some (2, n - 0xE0, 0x80, 0x9F)
  else if 0xE1 ≤ n && n ≤ 0xEF then some (2, n - 0xE0, 0x80, 0xBF)
  else if n == 0xF0 then some (3, n - 0xF0, 0x90, 0xBF)
  else if 0xF1 ≤ n && n ≤ 0xF3 then some (3, n - 0xF0, 0x80, 0xBF)
  else if n == 0xF4 then some (3, n - 0xF0, 0x80, 0x8F)
  else none

/-- Takes the `owed` octets that continue a character, the first of them in
`low … high`: the code point, or none at the first octet that does not fit,
and the octets from there on. -/
def continuation (owed value low high : Nat) (bs : List UInt8) : Option Nat × List UInt8 :=
  match owed, bs with
  | 0, bs => (some value, bs)
  | _ + 1, [] => (none, [])
  | owed + 1, b :: bs =>
    if low ≤ b.toNat && b.toNat ≤ high then
      continuation owed (value * 64 + (b.toNat - 0x80)) 0x80 0xBF bs
    else (none, b :: bs)

/-- The character at the front, or none for a maximal ill-formed part, and the
octets after it. -/
def next (b : UInt8) (bs : List UInt8) : Option Char × List UInt8 :=
  match lead? b with
  | none => (none, bs)
  | some (owed, value, low, high) =>
    let (point, rest) := continuation owed value low high bs
    (point.map Char.ofNat, rest)

theorem continuation_length (owed value low high : Nat) (bs : List UInt8) :
    (continuation owed value low high bs).2.length ≤ bs.length := by
  induction bs generalizing owed value low high with
  | nil => cases owed <;> simp [continuation]
  | cons b bs ih =>
    cases owed with
    | zero => simp [continuation]
    | succ owed =>
      simp only [continuation]
      split
      · exact Nat.le_succ_of_le (ih _ _ _ _)
      · simp

theorem next_length (b : UInt8) (bs : List UInt8) : (next b bs).2.length ≤ bs.length := by
  unfold next
  split
  · simp
  · exact continuation_length _ _ _ _ _

/-- The text of well-formed octets, or nothing. -/
def decodeStrict : List UInt8 → Option (List Char)
  | [] => some []
  | b :: bs =>
    match (next b bs).1 with
    | none => none
    | some c => (decodeStrict (next b bs).2).map (c :: ·)
termination_by bs => bs.length
decreasing_by
  have := next_length b bs
  simp only [List.length_cons]
  omega

/-- The text of any octets. -/
def decodeLossy : List UInt8 → List Char
  | [] => []
  | b :: bs => (next b bs).1.getD replacement :: decodeLossy (next b bs).2
termination_by bs => bs.length
decreasing_by
  have := next_length b bs
  simp only [List.length_cons]
  omega

/-! ## UTF-16 -/

/-- The order of the two octets of a unit. -/
inductive Order where
  | big
  | little

/-- A unit of 16 bits. -/
def Order.unit (order : Order) (first second : UInt8) : Nat :=
  match order with
  | .big => first.toNat * 256 + second.toNat
  | .little => second.toNat * 256 + first.toNat

def isHighSurrogate (n : Nat) : Bool := 0xD800 ≤ n && n ≤ 0xDBFF
def isLowSurrogate (n : Nat) : Bool := 0xDC00 ≤ n && n ≤ 0xDFFF

/-- The text of units of 16 bits. A surrogate without its partner becomes one
replacement character, and so does what is cut off at the end. -/
def decodeUnits (order : Order) : List UInt8 → List Char
  | [] => []
  | [_] => [replacement]
  | a :: b :: bs =>
    let n := order.unit a b
    if isHighSurrogate n then
      match bs with
      | [] => [replacement]
      | [_] => [replacement]
      | c :: d :: rest =>
        let m := order.unit c d
        if isLowSurrogate m then
          Char.ofNat (0x10000 + (n - 0xD800) * 0x400 + (m - 0xDC00)) :: decodeUnits order rest
        else replacement :: decodeUnits order (c :: d :: rest)
    else if isLowSurrogate n then replacement :: decodeUnits order bs
    else Char.ofNat n :: decodeUnits order bs

/-- The text of any octets, in the encoding that a byte order mark at their
front names, and in UTF-8 without one. -/
def decodeMarked : List UInt8 → List Char
  | 0xEF :: 0xBB :: 0xBF :: bs => decodeLossy bs
  | 0xFE :: 0xFF :: bs => decodeUnits .big bs
  | 0xFF :: 0xFE :: bs => decodeUnits .little bs
  | bs => decodeLossy bs

end MetricStream.Text.Octets
