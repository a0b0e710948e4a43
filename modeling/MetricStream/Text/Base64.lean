/-
Octets as text of sixty-four characters.

Three octets make four characters. What is left of one or two octets at the end
is filled up to four with a sign that stands for none.
-/
namespace MetricStream.Text.Base64

/-- The character of six bits. -/
def digit (n : Nat) : Char :=
  if n < 26 then Char.ofNat ('A'.toNat + n)
  else if n < 52 then Char.ofNat ('a'.toNat + (n - 26))
  else if n < 62 then Char.ofNat ('0'.toNat + (n - 52))
  else if n = 62 then '+'
  else '/'

/-- The characters of three octets. -/
def digits (a b c : Nat) : List Char :=
  [digit (a / 4), digit (a % 4 * 16 + b / 16), digit (b % 16 * 4 + c / 64), digit (c % 64)]

/-- The text of octets. -/
def encode : List UInt8 → List Char
  | [] => []
  | [a] => (digits a.toNat 0 0).take 2 ++ ['=', '=']
  | [a, b] => (digits a.toNat b.toNat 0).take 3 ++ ['=']
  | a :: b :: c :: bs => digits a.toNat b.toNat c.toNat ++ encode bs

example : encode [0x4D, 0x61, 0x6E, 0xFB, 0xF0] = "TWFu+/A=".toList := by decide
example : encode [0xFF] = "/w==".toList := by decide

end MetricStream.Text.Base64
