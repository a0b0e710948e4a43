/-
Reading a duration under watch.

Reading takes some steps that nobody checks. A power and a product wrap if they have no
word, a division could be one by zero, a text is cut after a number of octets, which
could be inside a character, and of 128 bits 64 are kept. `Watched.read` takes the same
steps and watches these: where one is not safe it ends with a fault. It also says which
check it was that refused a text.

No text leads to a fault, so reading is what it is under watch. The check that refuses
an expression is the first one that its exact numbers do not pass, and one does exactly
if the expression is out of range (`nothing_wraps`).
-/
import MetricStream.Proofs.Duration.Monotone

namespace MetricStream

namespace Duration

/-- What a step that nobody checks can do wrong. -/
inductive Fault where
  /-- A number has no word, and its remainder is taken in its place. -/
  | wrapped
  | dividedByZero
  /-- A text is cut inside a character or behind its end. -/
  | cutCharacter
  /-- Bits of a number are dropped. -/
  | lostBits
deriving DecidableEq, Repr

/-- What reading checks of a group, in this order. -/
inductive Check where
  /-- The digits before the point have a word. -/
  | count
  /-- Their nanoseconds have a word. -/
  | whole
  /-- The digits after the point, of those that are read, have a word. -/
  | numerator
  /-- The nanoseconds of the group have a word. -/
  | sum
  /-- The group is no longer than the longest duration. -/
  | group
  /-- The nanoseconds of the group and those before it have a word. -/
  | runningSum
  /-- The group and those before it are no longer than the longest duration. -/
  | total
deriving DecidableEq, Repr

/-- Why a watched reading ends without a duration. -/
inductive Stop where
  | malformed
  | refused (check : Check)
  | fault (fault : Fault)
deriving DecidableEq, Repr

/-- What the check lets pass. -/
def Check.pass {α : Type} (check : Check) : Option α → Except Stop α
  | some a => .ok a
  | none => .error (.refused check)

namespace Watched

/-- What a step gives, if it is safe. -/
def watch {α : Type} (fault : Fault) (safe : Prop) [Decidable safe] (a : α) : Except Stop α :=
  if safe then .ok a else .error (.fault fault)

/-- That many bits of a number. -/
def keep (bits n : Nat) : Except Stop (BitVec bits) :=
  watch .lostBits (n < twoTo bits) (BitVec.ofNat bits n)

/-- A power of ten. -/
def power (exponent : BitVec 32) : Except Stop Word :=
  watch .wrapped (tenTo exponent.toNat < twoTo 128) (BitVec.ofNat 128 (tenTo exponent.toNat))

def product (a b : Word) : Except Stop Word := watch .wrapped (a.toNat * b.toNat < twoTo 128) (a * b)

def quotient (a b : Word) : Except Stop Word := watch .dividedByZero (b ≠ 0) (a / b)

/-- A text in two, the first of them so many octets long. -/
def cut (text : String) (octets : Nat) : Except Stop (String × String) :=
  if h : (String.Pos.Raw.mk octets).IsValid text then
    .ok ((text.sliceTo (text.pos _ h)).copy, (text.sliceFrom (text.pos _ h)).copy)
  else .error (.fault .cutCharacter)

/-- The sign is told by the first octet, and is cut off as one. -/
def takeSign (typed : String) : Except Stop (Bool × String) :=
  if typed.toByteArray[0]? = some '-'.toUInt8 then do
    let (_, body) ← cut typed 1
    return (true, body)
  else if typed.toByteArray[0]? = some '+'.toUInt8 then do
    let (_, body) ← cut typed 1
    return (false, body)
  else .ok (false, typed)

/-- The nanoseconds of a fraction's digits in a unit. -/
def fractionNanos (digits : String) (scale : Word) : Except Stop Word := do
  let numerator ← Check.numerator.pass (Word.ofDigits? digits.toList)
  -- The exponent of a power has 32 bits.
  let places ← keep 32 digits.utf8ByteSize
  let denominator ← power places
  let scaled ← product numerator scale
  quotient scaled denominator

/-- The nanoseconds of one group. -/
def nanos (g : Group) : Except Stop Word := do
  let scale := BitVec.ofNat 128 g.unit.nanos
  let count ← Check.count.pass (Word.ofDigits? g.whole)
  let whole ← Check.whole.pass (Word.mul? count scale)
  let fraction := String.ofList g.fraction
  let (digits, _) ← cut fraction (min fraction.utf8ByteSize fractionDigits)
  let part ← fractionNanos digits scale
  let sum ← Check.sum.pass (Word.add? whole part)
  Check.group.pass (inRange? sum)

/-- The nanoseconds of the groups added to `total`. -/
def totalFrom (total : Word) : List Group → Except Stop Word
  | [] => .ok total
  | g :: gs => do
    let nanos ← nanos g
    let sum ← Check.runningSum.pass (Word.add? total nanos)
    let sum ← Check.total.pass (inRange? sum)
    totalFrom sum gs

/-- The duration that a text spells, under watch. -/
def read (typed : String) : Except Stop Duration := do
  let (negative, body) ← takeSign typed
  if body.toList = ['0'] then return zero
  else if Group.isExpression body.toList then
    let total ← totalFrom 0 (Group.scan body.toList)
    if negative then return zero
    else
      let kept ← keep 64 total.toNat
      return ⟨kept.toNat⟩
  else throw .malformed

end Watched

/-! ## The check that refuses, in exact numbers -/

namespace Group

/-- The check that refuses a group, if one does. The digits after the point are never
refused, for no more than eighteen are read. -/
def refusal? (g : Group) : Option Check :=
  if twoTo 128 ≤ Nat.ofDigitChars 10 g.whole 0 then some .count
  else if twoTo 128 ≤ Nat.ofDigitChars 10 g.whole 0 * g.unit.nanos then some .whole
  else if twoTo 128 ≤ g.readNanos then some .sum
  else if maxNanos < g.readNanos then some .group
  else none

/-- The check that refuses one of the groups, if one does, where those before them
come to `total` nanoseconds. A running sum has a word, for both of its parts have passed
a lower limit. -/
def refusalFrom? (total : Nat) : List Group → Option Check
  | [] => none
  | g :: gs =>
    match g.refusal? with
    | some check => some check
    | none =>
      if maxNanos < total + g.readNanos then some .total else refusalFrom? (total + g.readNanos) gs

theorem refusal?_eq_none (g : Group) : g.refusal? = none ↔ g.readNanos ≤ maxNanos := by
  have hcount : Nat.ofDigitChars 10 g.whole 0 ≤ Nat.ofDigitChars 10 g.whole 0 * g.unit.nanos :=
    Nat.le_mul_of_pos_right _ g.unit.nanos_pos
  have hwhole : Nat.ofDigitChars 10 g.whole 0 * g.unit.nanos ≤ g.readNanos := Nat.le_add_right _ _
  have hmax := maxNanos_lt
  unfold refusal?
  split_ifs <;> simp <;> omega

theorem refusalFrom?_eq_none {total : Nat} {gs : List Group} (htotal : total ≤ maxNanos) :
    refusalFrom? total gs = none ↔ total + (gs.map readNanos).sum ≤ maxNanos := by
  induction gs generalizing total with
  | nil => simpa [refusalFrom?] using htotal
  | cons g gs ih =>
    have hg := g.refusal?_eq_none
    rw [refusalFrom?, List.map_cons, List.sum_cons, ← Nat.add_assoc]
    split
    · next check hcheck =>
      rw [hcheck] at hg
      simp only [reduceCtorEq, false_iff] at hg ⊢
      omega
    · split
      · simp only [reduceCtorEq, false_iff]
        omega
      · next hle => exact ih (Nat.le_of_not_lt hle)

end Group

namespace Expression

/-- The check that refuses the expression, if one does. -/
def refusal? (e : Expression) : Option Check := Group.refusalFrom? 0 (e.terms.map (·.group))

theorem refusal?_eq_none (e : Expression) : e.refusal? = none ↔ e.readNanos ≤ maxNanos := by
  rw [refusal?, Group.refusalFrom?_eq_none (Nat.zero_le _), Nat.zero_add, List.map_map, readNanos]
  rfl

end Expression

/-! ## Words of numbers -/

namespace Word

theorem toNat_word {n : Nat} (h : n < twoTo 128) : (BitVec.ofNat 128 n).toNat = n :=
  Nat.mod_eq_of_lt h

variable {a b : Nat}

theorem mul?_word (ha : a < twoTo 128) (hb : b < twoTo 128) :
    mul? (BitVec.ofNat 128 a) (BitVec.ofNat 128 b) = ofNat? (a * b) := by
  rw [mul?, toNat_word ha, toNat_word hb, ← BitVec.ofNat_mul]
  rfl

theorem add?_word (ha : a < twoTo 128) (hb : b < twoTo 128) :
    add? (BitVec.ofNat 128 a) (BitVec.ofNat 128 b) = ofNat? (a + b) := by
  rw [add?, toNat_word ha, toNat_word hb, ← BitVec.ofNat_add]
  rfl

end Word

theorem inRange?_word {n : Nat} (h : n < twoTo 128) :
    inRange? (BitVec.ofNat 128 n) = if n ≤ maxNanos then some (BitVec.ofNat 128 n) else none := by
  rw [inRange?, Word.toNat_word h]

namespace Watched

theorem ok_bind {α β : Type} (a : α) (f : α → Except Stop β) : (Except.ok a >>= f) = f a := rfl

/-! ## Steps that nobody checks -/

theorem keep_eq {bits n : Nat} (h : n < twoTo bits) : keep bits n = .ok (BitVec.ofNat bits n) := if_pos h

theorem power_eq {n : Nat} (hn : n < twoTo 32) (h : tenTo n < twoTo 128) :
    power (BitVec.ofNat 32 n) = .ok (BitVec.ofNat 128 (tenTo n)) := by
  have hexponent : (BitVec.ofNat 32 n).toNat = n := Nat.mod_eq_of_lt hn
  rw [power, hexponent]
  exact if_pos h

theorem product_eq {a b : Nat} (ha : a < twoTo 128) (hb : b < twoTo 128) (h : a * b < twoTo 128) :
    product (BitVec.ofNat 128 a) (BitVec.ofNat 128 b) = .ok (BitVec.ofNat 128 (a * b)) := by
  rw [product, Word.toNat_word ha, Word.toNat_word hb, ← BitVec.ofNat_mul]
  exact if_pos h

theorem quotient_eq {a b : Nat} (ha : a < twoTo 128) (hb : b < twoTo 128) (hpos : 0 < b) :
    quotient (BitVec.ofNat 128 a) (BitVec.ofNat 128 b) = .ok (BitVec.ofNat 128 (a / b)) := by
  have hne : BitVec.ofNat 128 b ≠ 0 := by
    intro h
    have hzero := congrArg BitVec.toNat h
    rw [Word.toNat_word hb] at hzero
    exact hpos.ne' hzero
  have hvalue : BitVec.ofNat 128 a / BitVec.ofNat 128 b = BitVec.ofNat 128 (a / b) := by
    apply BitVec.eq_of_toNat_eq
    rw [BitVec.toNat_udiv, Word.toNat_word ha, Word.toNat_word hb,
      Word.toNat_word (Nat.lt_of_le_of_lt (Nat.div_le_self a b) ha)]
  rw [quotient, hvalue]
  exact if_pos hne

theorem cut_append (a b : String) : cut (a ++ b) a.utf8ByteSize = .ok (a, b) := by
  have hvalid : (String.Pos.Raw.mk a.utf8ByteSize).IsValid (a ++ b) :=
    String.Pos.Raw.isValid_rawEndPos.append_right b
  have hsplits : ((a ++ b).pos _ hvalid).Splits a b := String.Pos.splits_append_rawEndPos
  rw [cut, dif_pos hvalid, hsplits.copy_sliceTo_eq, hsplits.copy_sliceFrom_eq]

/-! ## Octets of signs and digits -/

/-- The first octet of a character is the character itself or no ASCII. -/
theorem first_octet (c : Char) :
    ∀ octet ∈ (String.utf8EncodeChar c).head?, octet.toNat = c.toNat ∨ 128 ≤ octet.toNat := by
  intro octet h
  unfold String.utf8EncodeChar at h
  extract_lets code at h
  have hcode : code = c.toNat := rfl
  split at h
  · obtain rfl : UInt8.ofNat code = octet := by simpa using h
    rw [UInt8.toNat_ofNat', ← hcode]
    omega
  · -- The first of two, three or four octets has its highest bits set.
    right
    split_ifs at h <;>
    · obtain rfl := Option.some.inj h
      rw [UInt8.toNat_ofNat']
      omega

theorem utf8Size_ascii {c : Char} (h : c.toNat < 128) : c.utf8Size = 1 :=
  Char.utf8Size_eq_one_iff.2 (Nat.le_of_lt_succ h)

theorem first_octet_eq {sign : Char} (hsign : sign.toNat < 128) (c : Char) (cs : List Char) :
    (String.ofList (c :: cs)).toByteArray[0]? = some sign.toUInt8 ↔ c = sign := by
  have hfirst : (String.ofList (c :: cs)).toByteArray[0]? = (String.utf8EncodeChar c).head? := by
    rw [String.toByteArray_ofList, List.utf8Encode, List.flatMap_cons]
    rcases hoctets : String.utf8EncodeChar c with _ | ⟨octet, octets⟩
    · exact absurd hoctets String.utf8EncodeChar_ne_nil
    · simp [List.getElem_toByteArray]
  rw [hfirst]
  constructor
  · intro h
    have hvalue : sign.toUInt8.toNat = sign.toNat := Nat.mod_eq_of_lt (show sign.toNat < 256 by omega)
    rcases first_octet c _ h with hsame | hfar
    · exact Char.toNat_inj.1 (hsame.symm.trans hvalue)
    · omega
  · rintro rfl
    rw [String.utf8EncodeChar_eq_singleton (utf8Size_ascii hsign)]
    rfl

theorem cut_first {c : Char} (h : c.toNat < 128) (cs : List Char) :
    cut (String.ofList (c :: cs)) 1 = .ok (String.singleton c, String.ofList cs) := by
  have hsize : (String.singleton c).utf8ByteSize = 1 := by
    rw [String.utf8ByteSize_singleton, utf8Size_ascii h]
  rw [String.ofList_cons, ← hsize, cut_append]

/-- **The sign is cut off whole**, and nothing with it. -/
theorem takeSign_eq (typed : String) :
    takeSign typed =
      .ok ((Text.takeSign typed.toList).1, String.ofList (Text.takeSign typed.toList).2) := by
  obtain ⟨cs, rfl⟩ : ∃ cs, typed = String.ofList cs := ⟨typed.toList, String.ofList_toList.symm⟩
  rw [String.toList_ofList]
  rcases cs with _ | ⟨c, cs⟩
  · rfl
  have hminus := @first_octet_eq '-' (by decide) c cs
  have hplus := @first_octet_eq '+' (by decide) c cs
  unfold takeSign
  by_cases hm : c = '-'
  · rw [if_pos (hminus.2 hm), cut_first (by rw [hm]; decide), hm]
    rfl
  by_cases hp : c = '+'
  · rw [if_neg (mt hminus.1 hm), if_pos (hplus.2 hp), cut_first (by rw [hp]; decide), hp]
    rfl
  · have hunsigned : Unsigned (c :: cs) := by
      intro d hd
      obtain rfl : c = d := by simpa using hd
      exact ⟨hp, hm⟩
    rw [if_neg (mt hminus.1 hm), if_neg (mt hplus.1 hp), hunsigned.takeSign]

theorem utf8ByteSize_digits {digits : List Char} (h : ∀ c ∈ digits, c.isDigit = true) :
    (String.ofList digits).utf8ByteSize = digits.length := by
  induction digits with
  | nil => rfl
  | cons c digits ih =>
    obtain ⟨-, hnine⟩ := Char.isDigit_iff_toNat.1 (h c (by simp))
    rw [String.ofList_cons, String.utf8ByteSize_append, String.utf8ByteSize_singleton,
      utf8Size_ascii (Nat.lt_of_le_of_lt hnine (by decide)), ih fun d hd => h d (by simp [hd]),
      List.length_cons, Nat.add_comm]

/-- **Digits are cut between digits.** -/
theorem cut_digits {digits : List Char} (h : ∀ c ∈ digits, c.isDigit = true) (n : Nat) :
    cut (String.ofList digits) (min (String.ofList digits).utf8ByteSize n) =
      .ok (String.ofList (digits.take n), String.ofList (digits.drop n)) := by
  have htext : String.ofList digits = String.ofList (digits.take n) ++ String.ofList (digits.drop n) := by
    rw [← String.ofList_append, List.take_append_drop]
  have hsize : (String.ofList (digits.take n)).utf8ByteSize = min (String.ofList digits).utf8ByteSize n := by
    rw [utf8ByteSize_digits h, utf8ByteSize_digits fun c hc => h c (List.mem_of_mem_take hc),
      List.length_take, Nat.min_comm]
  rw [← hsize]
  conv_lhs => rw [htext]
  exact cut_append _ _

/-! ## Groups -/

theorem pass_word {n : Nat} (h : n < twoTo 128) (check : Check) :
    check.pass (Word.ofNat? n) = .ok (BitVec.ofNat 128 n) := by
  rw [Word.ofNat?, if_pos h]
  rfl

theorem pass_far {n : Nat} (h : twoTo 128 ≤ n) (check : Check) :
    check.pass (Word.ofNat? n) = .error (.refused check) := by
  rw [Word.ofNat?, if_neg (Nat.not_lt.2 h)]
  rfl

theorem fractionNanos_eq {digits : List Char} (h : ∀ c ∈ digits, c.isDigit = true)
    (hlength : digits.length ≤ fractionDigits) (u : TimeUnit) :
    fractionNanos (String.ofList digits) (BitVec.ofNat 128 u.nanos) =
      .ok (BitVec.ofNat 128 (Nat.ofDigitChars 10 digits 0 * u.nanos / tenTo digits.length)) := by
  have hpower := tenTo_length_lt hlength
  have hnumerator := (ofDigitChars_lt h).trans hpower
  have hproduct := ofDigitChars_mul_lt h hlength u
  have hplaces : digits.length < twoTo 32 := Nat.lt_of_le_of_lt hlength (by decide)
  rw [fractionNanos, String.toList_ofList, Word.ofDigits?, pass_word hnumerator, ok_bind,
    utf8ByteSize_digits h, keep_eq hplaces, ok_bind, power_eq hplaces hpower, ok_bind,
    product_eq hnumerator u.nanos_lt hproduct, ok_bind]
  exact quotient_eq hproduct hpower (Nat.pow_pos (by decide))

/-- **A group meets no fault.** It has its exact nanoseconds, or the first check that
these do not pass refuses it. -/
theorem nanos_eq (s : Spelling) :
    nanos s.group =
      match s.group.refusal? with
      | some check => .error (.refused check)
      | none => .ok (BitVec.ofNat 128 s.group.readNanos) := by
  have hfraction : ∀ c ∈ s.group.fraction, c.isDigit = true := s.fraction_digits
  have hcut := cut_digits hfraction fractionDigits
  have hdigits : ∀ c ∈ s.group.fraction.take fractionDigits, c.isDigit = true :=
    fun c hc => hfraction c (List.mem_of_mem_take hc)
  have hlength : (s.group.fraction.take fractionDigits).length ≤ fractionDigits :=
    List.length_take_le _ _
  have hpart := Nat.lt_of_le_of_lt (Nat.div_le_self _ (tenTo (s.group.fraction.take fractionDigits).length))
    (ofDigitChars_mul_lt hdigits hlength s.group.unit)
  rw [nanos, Group.refusal?, Word.ofDigits?]
  by_cases hcount : twoTo 128 ≤ Nat.ofDigitChars 10 s.group.whole 0
  · rw [if_pos hcount, pass_far hcount]
    rfl
  rw [if_neg hcount, pass_word (Nat.lt_of_not_le hcount), ok_bind,
    Word.mul?_word (Nat.lt_of_not_le hcount) s.group.unit.nanos_lt]
  by_cases hwhole : twoTo 128 ≤ Nat.ofDigitChars 10 s.group.whole 0 * s.group.unit.nanos
  · rw [if_pos hwhole, pass_far hwhole]
    rfl
  rw [if_neg hwhole, pass_word (Nat.lt_of_not_le hwhole), ok_bind]
  simp only [hcut, ok_bind]
  rw [fractionNanos_eq hdigits hlength, ok_bind, Word.add?_word (Nat.lt_of_not_le hwhole) hpart,
    ← Group.readNanos]
  by_cases hsum : twoTo 128 ≤ s.group.readNanos
  · rw [if_pos hsum, pass_far hsum]
    rfl
  rw [if_neg hsum, pass_word (Nat.lt_of_not_le hsum), ok_bind, inRange?_word (Nat.lt_of_not_le hsum)]
  by_cases hgroup : maxNanos < s.group.readNanos
  · rw [if_pos hgroup, if_neg (Nat.not_le.2 hgroup)]
    rfl
  · rw [if_neg hgroup, if_pos (Nat.le_of_not_lt hgroup)]
    rfl

/-- **Groups meet no fault**, however many they are. -/
theorem totalFrom_eq (ts : List Term) {total : Nat} (htotal : total ≤ maxNanos) :
    totalFrom (BitVec.ofNat 128 total) (ts.map (·.group)) =
      match Group.refusalFrom? total (ts.map (·.group)) with
      | some check => .error (.refused check)
      | none => .ok (BitVec.ofNat 128 (total + (ts.map (·.group.readNanos)).sum)) := by
  induction ts generalizing total with
  | nil => rfl
  | cons t ts ih =>
    have hmax := maxNanos_lt
    have hnone := t.group.refusal?_eq_none
    rw [List.map_cons, List.map_cons, List.sum_cons, totalFrom, nanos_eq, Group.refusalFrom?]
    rcases hcheck : t.group.refusal? with _ | check
    · have hgroup := hnone.1 hcheck
      have hsum : total + t.group.readNanos < twoTo 128 := by
        have htwice : maxNanos + maxNanos < twoTo 128 := by decide
        omega
      simp only
      rw [ok_bind, Word.add?_word (by omega) (by omega), pass_word hsum, ok_bind, inRange?_word hsum]
      by_cases htoo : maxNanos < total + t.group.readNanos
      · rw [if_pos htoo, if_neg (Nat.not_le.2 htoo)]
        rfl
      · rw [if_neg htoo, if_pos (Nat.le_of_not_lt htoo), ← Nat.add_assoc]
        exact ih (Nat.le_of_not_lt htoo)
    · rfl

/-- **An expression meets no fault.** -/
theorem read_text (e : Expression) :
    read (String.ofList e.text) =
      match e.refusal? with
      | some check => .error (.refused check)
      | none => .ok (if e.sign = some .minus then zero else ⟨e.readNanos⟩) := by
  have hnone := e.refusal?_eq_none
  rw [read, takeSign_eq, ok_bind, String.toList_ofList, e.takeSign_text]
  simp only [String.toList_ofList]
  by_cases hne : e.terms = []
  · have hbody : e.body = ['0'] := by rw [Expression.body, hne]
    have hsum : e.readNanos = 0 := by rw [Expression.readNanos, hne]; rfl
    rw [if_pos hbody, hnone.2 (by rw [hsum]; exact Nat.zero_le _), hsum]
    simp only [zero, ite_self]
    rfl
  have hexpr : Group.isExpression (e.terms.flatMap (·.text)) = true :=
    Group.isExpression_iff.2 ⟨e.terms, hne, rfl⟩
  have htotal := totalFrom_eq e.terms (Nat.zero_le maxNanos)
  rw [Nat.zero_add, ← Expression.refusal?, ← Expression.readNanos] at htotal
  change totalFrom 0 _ = _ at htotal
  rw [Expression.body_of_ne_nil hne, if_neg (Expression.texts_ne_zero hne), if_pos hexpr,
    Group.scan_texts, htotal]
  rcases hcheck : e.refusal? with _ | check
  · have hle := hnone.1 hcheck
    have hword : e.readNanos < twoTo 128 := Nat.lt_of_le_of_lt hle maxNanos_lt
    have hkept : e.readNanos < twoTo 64 := Nat.lt_of_le_of_lt hle (by decide)
    have hvalue : (BitVec.ofNat 64 e.readNanos).toNat = e.readNanos := Nat.mod_eq_of_lt hkept
    simp only [ok_bind, Word.toNat_word hword, keep_eq hkept, hvalue, decide_eq_true_eq]
    split <;> rfl
  · rfl

theorem read_malformed {typed : String} (h : Duration.read typed = .error (.malformed typed)) :
    read typed = .error .malformed := by
  rw [read, takeSign_eq, ok_bind]
  unfold Duration.read at h
  simp only [String.toList_ofList] at h ⊢
  split at h
  · cases h
  · next hzero =>
    split at h
    · split at h <;> cases h
    · next hexpr =>
      rw [if_neg hzero, if_neg hexpr]
      rfl

end Watched

/-- A watched reading comes to the end of the reading that it watches, and to no
fault. -/
inductive Faultless (typed : String) : Except Stop Duration → Except ReadError Duration → Prop where
  | read (d : Duration) : Faultless typed (.ok d) (.ok d)
  | malformed : Faultless typed (.error .malformed) (.error (.malformed typed))
  | refused (check : Check) : Faultless typed (.error (.refused check)) (.error (.outOfRange typed))

theorem faultless (typed : String) : Faultless typed (Watched.read typed) (read typed) := by
  by_cases hexp : ∃ e : Expression, e.text = typed.toList
  · obtain ⟨e, he⟩ := hexp
    obtain rfl : typed = String.ofList e.text := by rw [he, String.ofList_toList]
    rw [Watched.read_text, e.read_text]
    have hnone := e.refusal?_eq_none
    rcases hcheck : e.refusal? with _ | check
    · rw [if_pos (hnone.1 hcheck)]
      exact .read _
    · have hfar : ¬ e.readNanos ≤ maxNanos := fun hle => by simp [hnone.2 hle] at hcheck
      rw [if_neg hfar]
      exact .refused check
  · have hread := read_eq_malformed.2 ⟨rfl, hexp⟩
    rw [Watched.read_malformed hread, hread]
    exact .malformed

/-! ## Digits that are not read -/

theorem Spelling.nanos_le (s : Spelling) : s.nanos ≤ s.shortened.nanos + 1 := by
  have hpos : (0 : ℚ) < tenTo fractionDigits := by
    rw [cast_tenTo]
    positivity
  have hunit : (s.unit.nanos : ℚ) ≤ tenTo fractionDigits := by
    exact_mod_cast s.unit.nanos_le.trans (by decide)
  have hvalue : s.value < s.shortened.value + 1 / tenTo fractionDigits := by
    rw [← mul_lt_mul_iff_left₀ hpos, add_mul, div_mul_cancel₀ _ hpos.ne']
    exact s.value_lt
  have hrest : 1 / (tenTo fractionDigits : ℚ) * s.unit.nanos ≤ 1 := by
    rw [div_mul_eq_mul_div, one_mul]
    exact div_le_one_of_le₀ hunit hpos.le
  have hscale : (0 : ℚ) ≤ s.unit.nanos := Nat.cast_nonneg _
  have hread : 0 ≤ s.shortened.value * s.unit.nanos := mul_nonneg s.shortened_nonneg hscale
  have hsame : s.shortened.unit = s.unit := rfl
  rw [nanos, nanos, hsame, ← Nat.floor_add_one hread]
  refine Nat.floor_le_floor ?_
  calc s.value * s.unit.nanos
      ≤ (s.shortened.value + 1 / tenTo fractionDigits) * s.unit.nanos :=
        mul_le_mul_of_nonneg_right hvalue.le hscale
    _ ≤ s.shortened.value * s.unit.nanos + 1 := by
        rw [add_mul]
        linarith

theorem Expression.nanos_le (e : Expression) : e.nanos ≤ e.readNanos + e.terms.length := by
  rw [nanos, readNanos_eq]
  induction e.terms with
  | nil => exact Nat.le_refl _
  | cons t ts ih =>
    have ht := t.nanos_le
    simp only [List.map_cons, List.sum_cons, List.length_cons]
    omega

/-- **Nothing wraps.** No text leads to a step that goes wrong without a check: no power
and no product is past its word, nothing is divided by zero, no character is cut, and no
bit is lost. Each text comes to the same end under watch and without, and what a check
refuses is out of range. Which check that is, the exact numbers say: the first that they
do not pass, be it on the digits, on their nanoseconds, on the group or on the sum so
far; and there is one exactly if the expression comes to more than the longest duration,
with a minus as without. What is read is the exact sum of the digits that are read, and
so at most a nanosecond a group short of what was typed. -/
theorem nothing_wraps :
    (∀ typed, Faultless typed (Watched.read typed) (read typed)) ∧
    (∀ (e : Expression) check,
      Watched.read (String.ofList e.text) = .error (.refused check) ↔ e.refusal? = some check) ∧
    (∀ e : Expression, (∃ check, e.refusal? = some check) ↔ maxNanos < e.readNanos) ∧
    (∀ e : Expression,
      read (String.ofList e.text) = .error (.outOfRange (String.ofList e.text)) ↔
        maxNanos < e.readNanos) ∧
    (∀ (e : Expression) d, e.sign ≠ some .minus → read (String.ofList e.text) = .ok d →
      d.nanos = e.readNanos ∧ e.nanos ≤ d.nanos + e.terms.length) := by
  refine ⟨faultless, fun e check => ?_, fun e => ?_, fun e => ?_, fun e d hsign hread => ?_⟩
  · rw [Watched.read_text]
    rcases e.refusal? with _ | first <;> simp
  · rw [← Nat.not_le, ← e.refusal?_eq_none, ← ne_eq, Option.ne_none_iff_exists']
  · rw [e.read_text, ← Nat.not_le]
    by_cases hle : e.readNanos ≤ maxNanos <;> simp [hle]
  · rw [e.read_text, if_neg hsign] at hread
    split at hread
    · cases hread
      exact ⟨rfl, e.nanos_le⟩
    · cases hread

open Expression (ofTerms) in
/-- An expression for each check that refuses one. -/
theorem nothing_wraps_each_check :
    let count : Term := ⟨⟨"340282366920938463463374607431768211456".toList, none, .nanosecond, ['n', 's'],
      by simp, by simp, by decide⟩, by decide⟩
    let whole : Term := ⟨⟨"340282366920938463463374607431768211455".toList, none, .microsecond, ['u', 's'],
      by simp, by simp, by decide⟩, by decide⟩
    let sum : Term := ⟨⟨"94522879700260684295381835".toList, some ['4'], .hour, ['h'],
      by simp, by simp, by decide⟩, by decide⟩
    let group : Term := ⟨⟨"9223372036854775808".toList, none, .nanosecond, ['n', 's'],
      by simp, by simp, by decide⟩, by decide⟩
    let longest : Term := ⟨⟨"9223372036854775807".toList, none, .nanosecond, ['n', 's'],
      by simp, by simp, by decide⟩, by decide⟩
    let nines : Term := ⟨⟨['2'], some (List.replicate 40 '9'), .hour, ['h'],
      by simp, by simp, by decide⟩, by decide⟩
    let refusals : List (List Term × Check) :=
      [([count], .count), ([whole], .whole), ([sum], .sum), ([group], .group), ([nines, longest], .total)]
    (∀ refusal ∈ refusals,
      let typed := String.ofList (ofTerms refusal.1).text
      Watched.read typed = .error (.refused refusal.2) ∧ read typed = .error (.outOfRange typed)) ∧
    Faultless "-é" (Watched.read "-é") (.error (.malformed "-é")) ∧
    (ofTerms [nines]).sign ≠ some .minus ∧
    read (String.ofList (ofTerms [nines]).text) = .ok ⟨10799999999999⟩ ∧
    (ofTerms [nines]).nanos ≤ 10799999999999 + 1 := by
  intro count whole sum group longest nines refusals
  obtain ⟨hfaultless, hrefused, hfar, hrange, hexact⟩ := nothing_wraps
  have hchecks : ∀ refusal ∈ refusals, (ofTerms refusal.1).refusal? = some refusal.2 := by
    decide +kernel
  have hmalformed : read "-é" = .error (.malformed "-é") := by decide +kernel
  have hsign : (ofTerms [nines]).sign ≠ some .minus := by decide
  have hread : read (String.ofList (ofTerms [nines]).text) = .ok ⟨10799999999999⟩ := by
    decide +kernel
  refine ⟨?_, hmalformed ▸ hfaultless "-é", hsign, hread, (hexact _ _ hsign hread).2⟩
  intro refusal hmem typed
  have hcheck := hchecks refusal hmem
  exact ⟨(hrefused _ _).2 hcheck, (hrange _).2 ((hfar _).1 ⟨_, hcheck⟩)⟩

end Duration

end MetricStream
