/-
Quoted text: how messages show a token, a metric name or a path.

The text stands between double quotes. A quote, a backslash, NUL, tab, line
feed and carriage return have a two-character escape; a character that cannot
be shown, or that would attach to the one before it, is named by its code
point in hexadecimal without leading zeros. All else stands as it is, so a
quoted text holds no control character.
-/
import MetricStream.Text.Unprintable
import MetricStream.Text.Combining

namespace MetricStream.Text.Quoted

/-- How one character is written between the quotes. -/
def escape (c : Char) : List Char :=
  if c = '"' then ['\\', '"']
  else if c = '\\' then ['\\', '\\']
  else if c = Char.ofNat 0 then ['\\', '0']
  else if c = '\t' then ['\\', 't']
  else if c = '\n' then ['\\', 'n']
  else if c = '\r' then ['\\', 'r']
  else if isCombining c || isUnprintable c then
    ['\\', 'u', '{'] ++ Nat.toDigits 16 c.toNat ++ ['}']
  else [c]

/-- A text between its quotes. -/
def encode (cs : List Char) : List Char :=
  '"' :: (cs.flatMap escape ++ ['"'])

end Quoted

/-- The text as messages show it. -/
def quote (s : String) : String := String.ofList (Quoted.encode s.toList)

/-! ## One text of each kind of escape -/

example : quote "say \"hi\"\n" = "\"say \\\"hi\\\"\\n\"" := by decide +kernel
example : Quoted.encode [Char.ofNat 0x1B, 'x'] = "\"\\u\x7b1b\x7dx\"".toList := by decide +kernel
example : Quoted.encode [Char.ofNat 0x301] = "\"\\u\x7b301\x7d\"".toList := by decide +kernel

end MetricStream.Text
