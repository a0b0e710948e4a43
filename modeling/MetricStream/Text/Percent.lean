/-
Percent encoding: octets of a text written as a percent sign and two
hexadecimal digits.
-/
import MetricStream.Text.Hex

namespace MetricStream.Text.Percent

/-- An octet as a percent sign and two digits. -/
def escape (b : UInt8) : List Char :=
  ['%', (Nat.digitChar (b.toNat / 16)).toUpper, (Nat.digitChar (b.toNat % 16)).toUpper]

/-- The characters of `keep` as they are, and the octets of all others escaped. -/
def encode (keep : Char → Bool) (cs : List Char) : List Char :=
  cs.flatMap fun c => if keep c then [c] else (String.utf8EncodeChar c).flatMap escape

/-- The octets of a text, with those that are escaped in it. -/
def decode : List Char → List UInt8
  | '%' :: a :: b :: rest =>
    match hexValue? a, hexValue? b with
    | some x, some y => UInt8.ofNat (x * 16 + y) :: decode rest
    | _, _ => String.utf8EncodeChar '%' ++ decode (a :: b :: rest)
  | c :: rest => String.utf8EncodeChar c ++ decode rest
  | [] => []
termination_by cs => cs.length

theorem encode_append (keep : Char → Bool) (cs ds : List Char) :
    encode keep (cs ++ ds) = encode keep cs ++ encode keep ds :=
  List.flatMap_append

theorem encode_kept {keep : Char → Bool} {cs : List Char} (h : ∀ c ∈ cs, keep c = true) :
    encode keep cs = cs := by
  induction cs with
  | nil => rfl
  | cons c cs ih =>
    have hrest : encode keep cs = cs := ih fun d hd => h d (List.mem_cons_of_mem c hd)
    rw [encode, List.flatMap_cons, if_pos (h c List.mem_cons_self)]
    exact congrArg (c :: ·) hrest

example : encode (· ≠ 'é') ['a', 'é'] = "a%C3%A9".toList := by decide +kernel
example : decode "%41%C3%a9%4".toList = [0x41, 0xC3, 0xA9, 0x25, 0x34] := by decide +kernel

end MetricStream.Text.Percent
