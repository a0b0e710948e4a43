/-
Hosts: where an address leads.

A host is a name, or a network address: four octets, which may be written as
one to four numbers of three bases, or eight groups of 16 bits in brackets. Each
has one spelling here. The spelling of a name that is more than plain ASCII, or
that has a label of such a name in it, is a matter of the network's: it is given.
-/
import MetricStream.Power
import MetricStream.Text.Blank
import MetricStream.Text.Octets
import MetricStream.Text.Percent

namespace MetricStream.Delivery.Host

/-- The value of digits in a base, if each of them is one. -/
def numberIn? (base : Nat) (cs : List Char) : Option Nat :=
  cs.foldl (fun n c => do
    let n ← n
    let d ← Text.hexValue? c
    if d < base then some (n * base + d) else none) (some 0)

/-! ## Addresses of four octets -/

/-- A number: hexadecimal after `0x`, octal after another leading zero, and
decimal otherwise. -/
def number? (cs : List Char) : Option Nat :=
  match cs with
  | [] => none
  | '0' :: 'x' :: ds => numberIn? 16 ds
  | '0' :: 'X' :: ds => numberIn? 16 ds
  | '0' :: d :: ds => numberIn? 8 (d :: ds)
  | cs => numberIn? 10 cs

/-- The pieces of a host between its points; one point may end it. -/
def pieces (cs : List Char) : List (List Char) :=
  let all := Text.cut '.' cs
  if 1 < all.length && all.getLast? = some [] then all.dropLast else all

/-- A host whose last piece is a number is a network address. -/
def isNumeric (cs : List Char) : Bool :=
  match (pieces cs).getLast? with
  | some piece => piece ≠ [] && (piece.all Char.isDigit || (number? piece).isSome)
  | none => false

/-- The 32 bits of the numbers of an address: each but the last is one octet,
and the last fills what is left. -/
def value? (numbers : List Nat) : Option Nat :=
  match numbers.getLast? with
  | none => none
  | some last =>
    let front := numbers.dropLast
    let places := 4 - front.length
    if 3 < front.length || front.any (255 < ·) then none
    else if twoTo (8 * places) ≤ last then none
    else some (front.zipIdx.foldr (fun (n, i) sum => n * twoTo (8 * (3 - i)) + sum) last)

/-- The four octets of an address. -/
def octetsText (n : Nat) : String :=
  ".".intercalate ([24, 16, 8, 0].map fun k => (n / twoTo k % 256).repr)

/-! ## Addresses of eight groups -/

/-- A group: up to four hexadecimal digits. -/
def group? (cs : List Char) : Option Nat :=
  if cs ≠ [] && cs.length ≤ 4 then numberIn? 16 cs else none

/-- One of four decimal numbers. It has no zero in front. -/
def octet? (cs : List Char) : Option Nat :=
  if cs = [] || (cs.head? = some '0' && 1 < cs.length) then none
  else (numberIn? 10 cs).filter (· ≤ 255)

/-- What the last piece of an address stands for: a group, or four octets that
are two of them. -/
def lastGroups? (cs : List Char) : Option (List Nat) :=
  if cs.contains '.' then
    match (Text.cut '.' cs).mapM octet? with
    | some [a, b, c, d] => some [a * 256 + b, c * 256 + d]
    | _ => none
  else (group? cs).map ([·])

/-- The groups between colons. Where an address ends, its last piece may be
four octets. -/
def groups? (ends : Bool) (cs : List Char) : Option (List Nat) :=
  if cs = [] then some []
  else do
    let pieces := Text.cut ':' cs
    let front ← pieces.dropLast.mapM group?
    let last ← if ends then lastGroups? (pieces.getLastD []) else (group? (pieces.getLastD [])).map ([·])
    some (front ++ last)

/-- What stands before and after the first two colons in a row. -/
def atGap? : List Char → Option (List Char × List Char)
  | [] => none
  | ':' :: ':' :: cs => some ([], cs)
  | c :: cs => (atGap? cs).map fun (front, back) => (c :: front, back)

/-- The eight groups of an address. Two colons in a row stand for the zeros that
are missing, one of them at least. -/
def eightGroups? (cs : List Char) : Option (List Nat) :=
  match atGap? cs with
  | none => (groups? true cs).filter (·.length = 8)
  | some (front, back) => do
    let front ← groups? false front
    let back ← groups? true back
    if front.length + back.length < 8 then
      some (front ++ List.replicate (8 - front.length - back.length) 0 ++ back)
    else none

/-- Where the first of the longest runs of zeros starts, and its length. -/
def longestZeros (groups : List Nat) : Nat × Nat :=
  (List.range groups.length).foldl (fun best i =>
    let n := ((groups.drop i).takeWhile (· = 0)).length
    if best.2 < n then (i, n) else best) (0, 0)

/-- An address in brackets, its longest run of zeros as two colons. -/
def groupsText (groups : List Nat) : String :=
  let text (groups : List Nat) : String :=
    ":".intercalate (groups.map fun g => String.ofList (Nat.toDigits 16 g))
  let (start, length) := longestZeros groups
  if length < 2 then "[" ++ text groups ++ "]"
  else "[" ++ text (groups.take start) ++ "::" ++ text (groups.drop (start + length)) ++ "]"

/-! ## Names -/

/-- What no host may hold. -/
def isForbidden (c : Char) : Bool :=
  c.toNat ≤ 0x20 || c.toNat == 0x7F
    || ['#', '/', ':', '<', '>', '?', '@', '[', '\\', ']', '^', '|', '%'].contains c

/-- A name that is its own spelling but for the case of its letters: plain ASCII,
without a label that stands for a name that is not. -/
def isPlain (name : List Char) : Bool :=
  name.all (·.toNat < 0x80) && (Text.cut '.' name).all fun label => !"xn--".toList.isPrefixOf label

/-- The one spelling of a name. -/
def spelled? (plainName : String → Option String) (name : List Char) : Option (List Char) :=
  let lower := name.map Char.toLower
  if isPlain lower then some lower else (plainName (String.ofList name)).map String.toList

/-- A host in its one spelling. -/
def read? (plainName : String → Option String) (cs : List Char) : Option String :=
  match cs with
  | '[' :: rest =>
    if rest.getLast? = some ']' then (eightGroups? rest.dropLast).map groupsText else none
  | cs =>
    match spelled? plainName (Text.Octets.decodeLossy (Text.Percent.decode cs)) with
    | none => none
    | some name =>
      if name = [] || name.any isForbidden then none
      else if isNumeric name then (((pieces name).mapM number?).bind value?).map octetsText
      else some (String.ofList name)

/-! ## Hosts in other spellings than their own -/

example : read? (fun _ => none) "0x7f.1".toList = some "127.0.0.1" := by decide +kernel
example : read? (fun _ => none) "Web%2D01.Example".toList = some "web-01.example" := by decide +kernel
example : read? (fun _ => none) "[2001:DB8:0:0:1:0:0:1]".toList = some "[2001:db8::1:0:0:1]" := by
  decide +kernel
example : read? (fun _ => none) "[::127.0.0.1]".toList = some "[::7f00:1]" := by decide +kernel
example : read? (fun _ => none) "[1:2]".toList = none := by decide +kernel

end MetricStream.Delivery.Host
