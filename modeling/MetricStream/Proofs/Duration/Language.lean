/-
The language of durations, apart from how it is read.

A group is written as digits, perhaps a point and more digits, and right after
them a name of a unit; an expression is an optional sign and then groups, each
with a digit. `Expression` is this grammar as data, and `text` what it looks
like. Reading accepts exactly the texts of expressions, a text is that of one
expression only, and the scan for groups, which could step over characters,
finds the groups of the expression and steps over none (`read_by_language`).
-/
import Mathlib.Data.List.TakeWhile
import MetricStream.Duration.Reading

namespace MetricStream

namespace Duration

/-- The ways to write a unit. -/
def TimeUnit.names : TimeUnit → List (List Char)
  | .nanosecond => [['n', 's']]
  -- The micro sign and the Greek letter are two characters that look alike.
  | .microsecond => [['u', 's'], [Char.ofNat 0xB5, 's'], [Char.ofNat 0x3BC, 's']]
  | .millisecond => [['m', 's']]
  | .second => [['s']]
  | .minute => [['m']]
  | .hour => [['h']]

/-- A point and what stands after it, if there is a point. -/
def pointed : Option (List Char) → List Char
  | none => []
  | some digits => '.' :: digits

/-- A group as it is written. -/
structure Spelling where
  whole : List Char
  /-- The digits after the point, if there is a point. -/
  fraction : Option (List Char)
  unit : TimeUnit
  name : List Char
  whole_digits : ∀ c ∈ whole, c.isDigit = true
  fraction_digits : ∀ c ∈ fraction.getD [], c.isDigit = true
  name_mem : name ∈ unit.names

namespace Spelling

def text (s : Spelling) : List Char := s.whole ++ (pointed s.fraction ++ s.name)

/-- What there is to compute with. -/
def group (s : Spelling) : Group := ⟨s.whole, s.fraction.getD [], s.unit⟩

end Spelling

/-- A group of an expression: it has a digit. -/
structure Term extends Spelling where
  digit : whole ≠ [] ∨ fraction.getD [] ≠ []

inductive Sign where
  | plus
  | minus
deriving DecidableEq, Repr

def Sign.text : Option Sign → List Char
  | none => []
  | some .plus => ['+']
  | some .minus => ['-']

/-- A duration as it is typed. -/
structure Expression where
  sign : Option Sign
  terms : List Term

namespace Expression

/-- The expression without its sign. No groups at all are written as a zero. -/
def body (e : Expression) : List Char :=
  match e.terms with
  | [] => ['0']
  | terms => terms.flatMap (·.text)

def text (e : Expression) : List Char := Sign.text e.sign ++ e.body

end Expression

/-! ## Units -/

namespace TimeUnit

/-- A name is taken off the front, unless an `s` makes another one of it. -/
theorem lex?_name {u : TimeUnit} {name rest : List Char} (h : name ∈ u.names)
    (hrest : rest.head? ≠ some 's') : lex? (name ++ rest) = some (u, rest) := by
  cases u with
  | minute =>
    obtain rfl := List.mem_singleton.1 h
    cases rest with
    | nil => rfl
    | cons c rest =>
      have hc : c ≠ 's' := by simpa using hrest
      simp [lex?, hc]
  | microsecond =>
    simp only [names, List.mem_cons, List.not_mem_nil, or_false] at h
    rcases h with rfl | rfl | rfl <;> rfl
  | nanosecond => obtain rfl := List.mem_singleton.1 h; rfl
  | millisecond => obtain rfl := List.mem_singleton.1 h; rfl
  | second => obtain rfl := List.mem_singleton.1 h; rfl
  | hour => obtain rfl := List.mem_singleton.1 h; rfl

theorem lex?_eq_some {u : TimeUnit} {cs rest : List Char} (h : lex? cs = some (u, rest)) :
    ∃ name ∈ u.names, cs = name ++ rest := by
  unfold lex? at h
  split at h <;> cases h
  · exact ⟨['n', 's'], by decide, rfl⟩
  · exact ⟨['u', 's'], by decide, rfl⟩
  · exact ⟨[Char.ofNat 0xB5, 's'], by decide, rfl⟩
  · exact ⟨[Char.ofNat 0x3BC, 's'], by decide, rfl⟩
  · exact ⟨['m', 's'], by decide, rfl⟩
  · exact ⟨['s'], by decide, rfl⟩
  · exact ⟨['m'], by decide, rfl⟩
  · exact ⟨['h'], by decide, rfl⟩

theorem not_numeric_of_mem {u : TimeUnit} {name : List Char} (h : name ∈ u.names) {c : Char}
    (hc : c ∈ name) : c.isDigit = false ∧ c ≠ '.' := by
  have hall : ∀ n ∈ u.names, ∀ c ∈ n, c.isDigit = false ∧ c ≠ '.' := by
    cases u <;> simp [TimeUnit.names]
  exact hall name h c hc

theorem ne_nil_of_mem {u : TimeUnit} {name : List Char} (h : name ∈ u.names) : name ≠ [] := by
  have hall : ∀ n ∈ u.names, n ≠ [] := by cases u <;> decide
  exact hall name h

end TimeUnit

/-! ## Digits at the front -/

/-- The text does not go on with a digit. -/
def EndsDigits (rest : List Char) : Prop := ∀ c ∈ rest.head?, c.isDigit = false

theorem EndsDigits.takeWhile {rest : List Char} (h : EndsDigits rest) {digits : List Char}
    (hdigits : ∀ c ∈ digits, c.isDigit = true) : (digits ++ rest).takeWhile Char.isDigit = digits := by
  rw [List.takeWhile_append_of_pos hdigits]
  cases rest with
  | nil => simp
  | cons c rest => simp [h c (by simp)]

theorem EndsDigits.dropWhile {rest : List Char} (h : EndsDigits rest) {digits : List Char}
    (hdigits : ∀ c ∈ digits, c.isDigit = true) : (digits ++ rest).dropWhile Char.isDigit = rest := by
  rw [List.dropWhile_append_of_pos hdigits]
  cases rest with
  | nil => rfl
  | cons c rest => simp [h c (by simp)]

/-- The text does not go on with a number: with neither a digit nor a point. -/
def EndsNumber (rest : List Char) : Prop := ∀ c ∈ rest.head?, c.isDigit = false ∧ c ≠ '.'

theorem EndsNumber.endsDigits {rest : List Char} (h : EndsNumber rest) (fraction : Option (List Char)) :
    EndsDigits (pointed fraction ++ rest) := by
  rcases fraction with _ | digits
  · exact fun c hc => (h c hc).1
  · intro c hc
    obtain rfl : '.' = c := by simpa [pointed] using hc
    rfl

theorem EndsNumber.lexFraction {rest : List Char} (h : EndsNumber rest) {fraction : Option (List Char)}
    (hdigits : ∀ c ∈ fraction.getD [], c.isDigit = true) :
    lexFraction (pointed fraction ++ rest) = (fraction.getD [], rest) := by
  rcases fraction with _ | digits
  · rw [pointed, List.nil_append]
    unfold Duration.lexFraction
    split
    · exact absurd rfl (h '.' rfl).2
    · rfl
  · have hends : EndsDigits rest := h.endsDigits none
    rw [Option.getD_some] at hdigits
    simp [pointed, Duration.lexFraction, hends.takeWhile hdigits, hends.dropWhile hdigits]

theorem lexFraction_eq (cs : List Char) :
    ∃ fraction : Option (List Char), (∀ c ∈ fraction.getD [], c.isDigit = true) ∧
      (lexFraction cs).1 = fraction.getD [] ∧ pointed fraction ++ (lexFraction cs).2 = cs := by
  unfold lexFraction
  split
  · next cs =>
    refine ⟨some (cs.takeWhile Char.isDigit), fun c hc => List.mem_takeWhile_imp hc, rfl, ?_⟩
    simp [pointed]
  · exact ⟨none, by simp, rfl, rfl⟩

/-- A text tells whether there is a point, and what comes after the digits. -/
theorem EndsNumber.pointed_injective {rest rest' : List Char} (h : EndsNumber rest)
    (h' : EndsNumber rest') {fraction fraction' : Option (List Char)}
    (hdigits : ∀ c ∈ fraction.getD [], c.isDigit = true)
    (hdigits' : ∀ c ∈ fraction'.getD [], c.isDigit = true)
    (htext : pointed fraction ++ rest = pointed fraction' ++ rest') :
    fraction = fraction' ∧ rest = rest' := by
  have hlexed := h.lexFraction hdigits
  rw [htext, h'.lexFraction hdigits', Prod.mk.injEq] at hlexed
  obtain ⟨hfraction, rfl⟩ := hlexed
  refine ⟨?_, rfl⟩
  rw [List.append_cancel_right_eq] at htext
  rcases fraction with _ | digits <;> rcases fraction' with _ | digits'
  · rfl
  · cases htext
  · cases htext
  · exact congrArg some (List.cons.inj htext).2

theorem head_number {whole : List Char} {fraction : Option (List Char)}
    (hwhole : ∀ c ∈ whole, c.isDigit = true) (hdigit : whole ≠ [] ∨ fraction.getD [] ≠ [])
    (rest : List Char) :
    ∃ c cs, whole ++ (pointed fraction ++ rest) = c :: cs ∧ (c.isDigit = true ∨ c = '.') := by
  rcases whole with _ | ⟨c, cs⟩
  · rcases fraction with _ | digits
    · simp at hdigit
    · exact ⟨'.', digits ++ rest, rfl, .inr rfl⟩
  · exact ⟨c, cs ++ (pointed fraction ++ rest), rfl, .inl (hwhole c (by simp))⟩

namespace Spelling

theorem endsNumber_name (s : Spelling) (rest : List Char) : EndsNumber (s.name ++ rest) := by
  obtain ⟨c, cs, hname⟩ := List.exists_cons_of_ne_nil (TimeUnit.ne_nil_of_mem s.name_mem)
  intro d hd
  obtain rfl : c = d := by simpa [hname] using hd
  exact TimeUnit.not_numeric_of_mem s.name_mem (by simp [hname])

theorem hasDigit_group (s : Spelling) :
    s.group.hasDigit = true ↔ s.whole ≠ [] ∨ s.fraction.getD [] ≠ [] := by
  rw [Group.hasDigit, Bool.or_eq_true, decide_eq_true_eq, decide_eq_true_eq]
  rfl

end Spelling

namespace Group

theorem lex?_text (s : Spelling) {rest : List Char} (hrest : rest.head? ≠ some 's') :
    lex? (s.text ++ rest) = some (s.group, rest) := by
  have hnumber := s.endsNumber_name rest
  have hends := hnumber.endsDigits s.fraction
  rw [Spelling.text, List.append_assoc, List.append_assoc]
  simp only [lex?, hends.takeWhile s.whole_digits, hends.dropWhile s.whole_digits,
    hnumber.lexFraction s.fraction_digits, TimeUnit.lex?_name s.name_mem hrest, Spelling.group]

theorem lex?_eq_some {cs rest : List Char} {g : Group} (h : lex? cs = some (g, rest)) :
    ∃ s : Spelling, s.group = g ∧ s.text ++ rest = cs := by
  obtain ⟨fraction, hdigits, hfraction, hafter⟩ := lexFraction_eq (cs.dropWhile Char.isDigit)
  unfold lex? at h
  simp only at h
  split at h
  · next u left hu =>
    cases h
    obtain ⟨name, hname, hleft⟩ := TimeUnit.lex?_eq_some hu
    refine ⟨⟨cs.takeWhile Char.isDigit, fraction, u, name, fun c hc => List.mem_takeWhile_imp hc,
      hdigits, hname⟩, by rw [Spelling.group, hfraction], ?_⟩
    rw [Spelling.text, List.append_assoc, List.append_assoc, ← hleft, hafter,
      List.takeWhile_append_dropWhile]
  · cases h

end Group

/-! ## Groups in a row -/

namespace Term

theorem text_head (t : Term) : ∃ c cs, t.text = c :: cs ∧ (c.isDigit = true ∨ c = '.') :=
  head_number t.whole_digits t.digit t.name

/-- What a term, or nothing, can start with is neither a sign nor a unit's `s`. -/
theorem texts_head (ts : List Term) :
    ∀ c ∈ (ts.flatMap (·.text)).head?, c ≠ '+' ∧ c ≠ '-' ∧ c ≠ 's' := by
  rcases ts with _ | ⟨t, ts⟩
  · simp
  obtain ⟨c, cs, htext, hc⟩ := t.text_head
  intro d hd
  obtain rfl : c = d := by simpa [htext] using hd
  rcases hc with hc | rfl
  · refine ⟨?_, ?_, ?_⟩ <;> rintro rfl <;> exact absurd hc (by decide)
  · decide

theorem lex?_texts (t : Term) (ts : List Term) :
    Group.lex? (t.text ++ ts.flatMap (·.text)) = some (t.group, ts.flatMap (·.text)) :=
  Group.lex?_text _ fun h => (texts_head ts 's' h).2.2 rfl

/-- The text decides what the group does not say: whether there is a point, and
which name the unit has. -/
theorem eq_of_group {t u : Term} (hgroup : t.group = u.group) (htext : t.text = u.text) : t = u := by
  have ht := t.endsNumber_name []
  have hu := u.endsNumber_name []
  obtain ⟨⟨whole, fraction, unit, name, _, hdigits, _⟩, _⟩ := t
  obtain ⟨⟨whole', fraction', unit', name', _, hdigits', _⟩, _⟩ := u
  simp only [Spelling.group, Group.mk.injEq] at hgroup
  obtain ⟨rfl, -, rfl⟩ := hgroup
  simp only [Spelling.text, List.append_cancel_left_eq] at htext
  rw [List.append_nil] at ht hu
  obtain ⟨rfl, rfl⟩ := ht.pointed_injective hu hdigits hdigits' htext
  rfl

/-- Groups in a row can be told apart in one way only. -/
theorem texts_injective {ts us : List Term} (h : ts.flatMap (·.text) = us.flatMap (·.text)) : ts = us := by
  induction ts generalizing us with
  | nil =>
    rcases us with _ | ⟨u, us⟩
    · rfl
    · obtain ⟨c, cs, htext, -⟩ := u.text_head
      simp [htext] at h
  | cons t ts ih =>
    rcases us with _ | ⟨u, us⟩
    · obtain ⟨c, cs, htext, -⟩ := t.text_head
      simp [htext] at h
    · simp only [List.flatMap_cons] at h
      have hlex := t.lex?_texts ts
      rw [h, u.lex?_texts us] at hlex
      simp only [Option.some.injEq, Prod.mk.injEq] at hlex
      rw [← hlex.2, List.append_cancel_right_eq] at h
      rw [eq_of_group hlex.1.symm h, ih hlex.2.symm]

end Term

namespace Group

/-- A text is an expression without a sign exactly if it is terms in a row. -/
theorem isExpression_iff {cs : List Char} :
    isExpression cs = true ↔ ∃ ts : List Term, ts ≠ [] ∧ ts.flatMap (·.text) = cs := by
  constructor
  · intro h
    -- The induction is that of the definition: on what is left after a group.
    fun_induction isExpression cs with
    | case1 cs g rest hlex ih =>
      rw [Bool.and_eq_true, Bool.or_eq_true, List.isEmpty_iff] at h
      obtain ⟨hdigit, hrest⟩ := h
      obtain ⟨s, rfl, rfl⟩ := lex?_eq_some hlex
      have hs := s.hasDigit_group.1 hdigit
      rcases hrest with rfl | hrest
      · exact ⟨[⟨s, hs⟩], by simp, by simp⟩
      · obtain ⟨ts, -, rfl⟩ := ih hrest
        exact ⟨⟨s, hs⟩ :: ts, by simp, by simp⟩
    | case2 cs hlex => cases h
  · rintro ⟨ts, hne, rfl⟩
    induction ts with
    | nil => exact absurd rfl hne
    | cons t ts ih =>
      rw [List.flatMap_cons, isExpression]
      split
      · next g rest hlex =>
        rw [t.lex?_texts ts] at hlex
        cases hlex
        rw [t.hasDigit_group.2 t.digit, Bool.true_and, Bool.or_eq_true]
        rcases ts with _ | ⟨u, us⟩
        · exact .inl rfl
        · exact .inr (ih (by simp))
      · next hlex =>
        rw [t.lex?_texts ts] at hlex
        cases hlex

/-! ## What the scan takes and what it steps over -/

/-- A group that the scan found. -/
structure Find where
  /-- What it stepped over since the group before. -/
  skipped : List Char
  taken : List Char
  group : Group
deriving DecidableEq

/-- The scan with all that it does to the text: the groups found, and what it
stepped over after the last one. -/
def finds (cs : List Char) : List Find × List Char :=
  match cs with
  | [] => ([], [])
  | c :: cs =>
    match _h : lex? (c :: cs) with
    | some (g, rest) =>
      let (found, left) := finds rest
      (⟨[], (c :: cs).take ((c :: cs).length - rest.length), g⟩ :: found, left)
    | none =>
      match finds cs with
      | ([], left) => ([], c :: left)
      | (f :: found, left) => ({ f with skipped := c :: f.skipped } :: found, left)
termination_by cs.length
decreasing_by
  · exact lex?_length _h
  · simp

theorem finds_found {cs rest : List Char} {g : Group} (h : lex? cs = some (g, rest)) :
    finds cs = (⟨[], cs.take (cs.length - rest.length), g⟩ :: (finds rest).1, (finds rest).2) := by
  rcases cs with _ | ⟨c, cs⟩
  · cases h
  rw [finds]
  split
  · next g' rest' h' =>
    rw [h] at h'
    cases h'
    rfl
  · next h' =>
    rw [h] at h'
    cases h'

theorem scan_found {cs rest : List Char} {g : Group} (h : lex? cs = some (g, rest)) :
    scan cs = g :: scan rest := by
  rcases cs with _ | ⟨c, cs⟩
  · cases h
  rw [scan]
  split
  · next g' rest' h' =>
    rw [h] at h'
    cases h'
    rfl
  · next h' =>
    rw [h] at h'
    cases h'

theorem scan_skipped {c : Char} {cs : List Char} (h : lex? (c :: cs) = none) :
    scan (c :: cs) = scan cs := by
  rw [scan]
  split
  · next g' rest' h' =>
    rw [h] at h'
    cases h'
  · rfl

theorem scan_eq_finds (cs : List Char) : scan cs = (finds cs).1.map Find.group := by
  fun_induction finds cs with
  | case1 => rw [scan]; rfl
  | case2 c cs g rest hlex found left hfinds ih => simp only [scan_found hlex, ih, hfinds, List.map_cons]
  | case3 c cs hlex left hfinds ih => rw [scan_skipped hlex, ih, hfinds]
  | case4 c cs hlex f found left hfinds ih => rw [scan_skipped hlex, ih, hfinds]; rfl

theorem take_append_rest {cs rest : List Char} {g : Group} (h : lex? cs = some (g, rest)) :
    cs.take (cs.length - rest.length) ++ rest = cs := by
  obtain ⟨s, -, rfl⟩ := lex?_eq_some h
  simp

/-- Every character is either stepped over or taken, and none twice. -/
theorem finds_flatten (cs : List Char) :
    (finds cs).1.flatMap (fun f => f.skipped ++ f.taken) ++ (finds cs).2 = cs := by
  fun_induction finds cs with
  | case1 => rfl
  | case2 c cs g rest hlex found left hfinds ih =>
    rw [hfinds] at ih
    rw [List.flatMap_cons, List.nil_append, List.append_assoc, ih, take_append_rest hlex]
  | case3 c cs hlex left hfinds ih =>
    rw [hfinds] at ih
    exact congrArg (c :: ·) ih
  | case4 c cs hlex f found left hfinds ih =>
    rw [hfinds] at ih
    exact congrArg (c :: ·) ih

theorem finds_texts (ts : List Term) :
    finds (ts.flatMap (·.text)) = (ts.map fun t => ⟨[], t.text, t.group⟩, []) := by
  induction ts with
  | nil => rw [List.flatMap_nil, finds]; rfl
  | cons t ts ih =>
    rw [List.flatMap_cons, finds_found (t.lex?_texts ts), ih, List.length_append, Nat.add_sub_cancel,
      List.take_left, List.map_cons]

/-- The scan finds the groups of an expression, all of them, and nothing else. -/
theorem scan_texts (ts : List Term) : scan (ts.flatMap (·.text)) = ts.map (·.group) := by
  rw [scan_eq_finds, finds_texts, List.map_map]
  rfl

end Group

/-! ## Signs -/

/-- The text starts with no sign. -/
def Unsigned (cs : List Char) : Prop := ∀ c ∈ cs.head?, c ≠ '+' ∧ c ≠ '-'

theorem Unsigned.of_head {c : Char} (hc : c.isDigit = true ∨ c = '.') (cs : List Char) :
    Unsigned (c :: cs) := by
  intro d hd
  obtain rfl : c = d := by simpa using hd
  rcases hc with hc | rfl
  · constructor <;> rintro rfl <;> exact absurd hc (by decide)
  · decide

theorem Unsigned.takeSign {cs : List Char} (h : Unsigned cs) : Text.takeSign cs = (false, cs) := by
  unfold Text.takeSign
  split
  · exact absurd rfl (h '-' rfl).2
  · exact absurd rfl (h '+' rfl).1
  · rfl

theorem Unsigned.takeSign_text {cs : List Char} (h : Unsigned cs) (sign : Option Sign) :
    Text.takeSign (Sign.text sign ++ cs) = (decide (sign = some .minus), cs) := by
  rcases sign with _ | _ | _
  · rw [Sign.text, List.nil_append, h.takeSign]; rfl
  · rfl
  · rfl

theorem Sign.text_injective {s s' : Option Sign} (h : Sign.text s = Sign.text s') : s = s' := by
  rcases s with _ | _ | _ <;> rcases s' with _ | _ | _ <;> first | rfl | cases h

/-- The sign of a text and what is left after it are known from the text. -/
theorem Unsigned.sign_injective {s s' : Option Sign} {cs cs' : List Char} (h : Unsigned cs)
    (h' : Unsigned cs') (htext : Sign.text s ++ cs = Sign.text s' ++ cs') : s = s' ∧ cs = cs' := by
  have hrest : cs = cs' := by
    have htake := h.takeSign_text s
    rw [htext, h'.takeSign_text s'] at htake
    exact (Prod.mk.inj htake).2.symm
  subst hrest
  exact ⟨Sign.text_injective (List.append_cancel_right_eq _ _ _ ▸ htext), rfl⟩

theorem exists_sign (cs : List Char) : ∃ sign, Sign.text sign ++ (Text.takeSign cs).2 = cs := by
  unfold Text.takeSign
  split
  · exact ⟨some .minus, rfl⟩
  · exact ⟨some .plus, rfl⟩
  · exact ⟨none, rfl⟩

namespace Expression

theorem unsigned_body (e : Expression) : Unsigned e.body := by
  obtain ⟨sign, _ | ⟨t, ts⟩⟩ := e
  · intro c hc
    obtain rfl : '0' = c := by simpa [body] using hc
    decide
  · exact fun c hc => ⟨(Term.texts_head (t :: ts) c hc).1, (Term.texts_head (t :: ts) c hc).2.1⟩

theorem takeSign_text (e : Expression) :
    Text.takeSign e.text = (decide (e.sign = some .minus), e.body) :=
  e.unsigned_body.takeSign_text e.sign

theorem body_of_ne_nil {e : Expression} (h : e.terms ≠ []) : e.body = e.terms.flatMap (·.text) := by
  obtain ⟨_, _ | ⟨t, ts⟩⟩ := e
  · exact absurd rfl h
  · rfl

theorem texts_ne_zero {ts : List Term} (hne : ts ≠ []) : ts.flatMap (·.text) ≠ ['0'] := by
  intro h
  have hzero : Group.isExpression ['0'] = true := Group.isExpression_iff.2 ⟨ts, hne, h⟩
  have hnot : Group.isExpression ['0'] = false := by decide +kernel
  rw [hnot] at hzero
  cases hzero

theorem body_injective {e e' : Expression} (h : e.body = e'.body) : e.terms = e'.terms := by
  obtain ⟨_, _ | ⟨t, ts⟩⟩ := e <;> obtain ⟨_, _ | ⟨u, us⟩⟩ := e'
  · rfl
  · exact absurd h.symm (texts_ne_zero (by simp))
  · exact absurd h (texts_ne_zero (by simp))
  · exact Term.texts_injective h

theorem text_injective {e e' : Expression} (h : e.text = e'.text) : e = e' := by
  obtain ⟨hsign, hbody⟩ := e.unsigned_body.sign_injective e'.unsigned_body h
  obtain ⟨sign, terms⟩ := e
  obtain ⟨sign', terms'⟩ := e'
  rw [Expression.mk.injEq]
  exact ⟨hsign, body_injective hbody⟩

end Expression

/-! ## Reading -/

/-- An expression is read as what its groups add up to. -/
theorem read_expression {typed : String} {e : Expression} (h : e.text = typed.toList) :
    read typed =
      match totalFrom 0 (e.terms.map (·.group)) with
      | none => .error (.outOfRange typed)
      | some total => .ok (if e.sign = some .minus then zero else ⟨(total.setWidth 64).toNat⟩) := by
  unfold read
  rw [← h, e.takeSign_text]
  by_cases hne : e.terms = []
  · have hbody : e.body = ['0'] := by rw [Expression.body, hne]
    by_cases hsign : e.sign = some .minus <;> simp [hbody, hne, totalFrom, hsign, zero]
  · have hexpr : Group.isExpression (e.terms.flatMap (·.text)) = true :=
      Group.isExpression_iff.2 ⟨e.terms, hne, rfl⟩
    rw [Expression.body_of_ne_nil hne]
    dsimp only
    rw [if_neg (Expression.texts_ne_zero hne), if_pos hexpr, Group.scan_texts]
    generalize totalFrom _ _ = sum
    rcases sum with _ | total <;> simp

theorem read_eq_malformed {typed given : String} :
    read typed = .error (.malformed given) ↔
      given = typed ∧ ¬ ∃ e : Expression, e.text = typed.toList := by
  constructor
  · intro h
    have hno : ¬ ∃ e : Expression, e.text = typed.toList := by
      rintro ⟨e, he⟩
      rw [read_expression he] at h
      split at h <;> cases h
    refine ⟨?_, hno⟩
    unfold read at h
    simp only at h
    split at h
    · cases h
    split at h
    · split at h <;> cases h
    · cases h
      rfl
  · rintro ⟨rfl, hno⟩
    obtain ⟨sign, hsign⟩ := exists_sign given.toList
    have hzero : (Text.takeSign given.toList).2 ≠ ['0'] := by
      intro h
      rw [h] at hsign
      exact hno ⟨⟨sign, []⟩, hsign⟩
    have hexpr : Group.isExpression (Text.takeSign given.toList).2 ≠ true := by
      intro h
      obtain ⟨ts, hne, hts⟩ := Group.isExpression_iff.1 h
      refine hno ⟨⟨sign, ts⟩, ?_⟩
      rw [Expression.text, Expression.body_of_ne_nil hne, hts, hsign]
    unfold read
    simp only [if_neg hzero, if_neg hexpr]

/-- Behind a minus, a text is read as it is without, and then counts as no time. -/
theorem read_minus {body : String} (h : Unsigned body.toList) :
    (∀ d, read ("-" ++ body) = .ok d ↔ d = zero ∧ ∃ d', read body = .ok d') ∧
    (∀ given, read ("-" ++ body) = .error (.outOfRange given) ↔
      given = "-" ++ body ∧ read body = .error (.outOfRange body)) := by
  have hminus : Text.takeSign ("-" ++ body).toList = (true, body.toList) := by
    rw [String.toList_append]
    rfl
  unfold read
  rw [hminus, h.takeSign]
  simp only
  by_cases hzero : body.toList = ['0']
  · simp [hzero, eq_comm]
  by_cases hexpr : Group.isExpression body.toList = true
  · simp only [if_neg hzero, if_pos hexpr]
    generalize totalFrom _ _ = total?
    rcases total? with _ | total <;> simp [eq_comm]
  · simp [hzero, hexpr]

/-- **The duration language.** A text is malformed exactly if it is that of no
expression. The text of an expression is that of no other one, so its groups
are what they are; and the scan for groups, which takes or steps over each
character of any text once, takes exactly the groups of an expression, in order,
and steps over nothing. Behind a minus, what can be read is no time at all, and
what is out of range remains so. -/
theorem read_by_language :
    (∀ typed given, read typed = .error (.malformed given) ↔
      given = typed ∧ ¬ ∃ e : Expression, e.text = typed.toList) ∧
    (∀ e e' : Expression, e.text = e'.text → e = e') ∧
    (∀ cs, Group.scan cs = (Group.finds cs).1.map (·.group) ∧
      (Group.finds cs).1.flatMap (fun f => f.skipped ++ f.taken) ++ (Group.finds cs).2 = cs) ∧
    (∀ e : Expression, e.terms ≠ [] →
      Group.finds e.body = (e.terms.map fun t => ⟨[], t.text, t.group⟩, [])) ∧
    (∀ body : String, Unsigned body.toList →
      (∀ d, read ("-" ++ body) = .ok d ↔ d = zero ∧ ∃ d', read body = .ok d') ∧
      (∀ given, read ("-" ++ body) = .error (.outOfRange given) ↔
        given = "-" ++ body ∧ read body = .error (.outOfRange body))) := by
  refine ⟨fun _ _ => read_eq_malformed, fun _ _ => Expression.text_injective,
    fun cs => ⟨Group.scan_eq_finds cs, Group.finds_flatten cs⟩, fun e he => ?_,
    fun _ => read_minus⟩
  rw [Expression.body_of_ne_nil he, Group.finds_texts]

/-- Minutes, milliseconds without a whole part and microseconds with a point
alone, read as they are and behind a minus; and a group without a digit. -/
theorem read_by_language_three_groups :
    let e : Expression := ⟨some .plus,
      [⟨⟨['4'], none, .minute, ['m'], by simp, by simp, by decide⟩, by decide⟩,
        ⟨⟨[], some ['5'], .millisecond, ['m', 's'], by simp, by simp, by decide⟩, by decide⟩,
        ⟨⟨['7'], some [], .microsecond, ['μ', 's'], by simp, by simp, by decide⟩, by decide⟩]⟩
    e.text = "+4m.5ms7.μs".toList ∧
    Group.finds "4m.5ms7.μs".toList =
      ([⟨[], ['4', 'm'], ⟨['4'], [], .minute⟩⟩,
        ⟨[], ['.', '5', 'm', 's'], ⟨[], ['5'], .millisecond⟩⟩,
        ⟨[], ['7', '.', 'μ', 's'], ⟨['7'], [], .microsecond⟩⟩], []) ∧
    read "-4m.5ms7.μs" = .ok zero ∧
    (¬ ∃ e : Expression, e.text = "4m.ms".toList) := by
  intro e
  obtain ⟨hmalformed, -, -, hfinds, hminus⟩ := read_by_language
  have hread : read "4m.5ms7.μs" = .ok ⟨240000507000⟩ := by decide +kernel
  have hno : read "4m.ms" = .error (.malformed "4m.ms") := by decide +kernel
  refine ⟨by decide, hfinds e (by decide), ?_, ((hmalformed _ _).1 hno).2⟩
  exact ((hminus "4m.5ms7.μs" (by simp [Unsigned])).1 zero).2 ⟨rfl, _, hread⟩

end Duration

end MetricStream
