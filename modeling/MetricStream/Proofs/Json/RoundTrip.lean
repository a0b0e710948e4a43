/-
What is rendered is read back.

Every string comes back as it was, whatever its characters are, and so does every value
whose numbers are numbers (`read?_render`). So no quote, bracket or comma in a string can
change the shape of what is read, and no two such values have one text. Nothing below the
space stands in a text (`not_control`).
-/
import Mathlib.Data.List.TakeWhile
import Mathlib.Tactic.SplitIfs
import MetricStream.Proofs.Json.Reader

namespace MetricStream

namespace Json

/-! ## Strings -/

theorem readCode_control {n : Nat} (h : n < 0x20) (rest : List Char) :
    readCode ('0' :: '0' :: hexDigit (n / 16) :: hexDigit (n % 16) :: rest) =
      some (Char.ofNat n, rest) := by
  have hhigh : Text.hexValue? (hexDigit (n / 16)) = some (n / 16) := Text.hexValue?_digitChar (by omega)
  have hlow : Text.hexValue? (hexDigit (n % 16)) = some (n % 16) := Text.hexValue?_digitChar (by omega)
  have hzero : Text.hexValue? '0' = some 0 := by decide
  have hcode : (((0 * 16 + 0) * 16 + n / 16) * 16 + n % 16) = n := by omega
  simp only [readCode, readUnit, hzero, hhigh, hlow, Option.bind_eq_bind, Option.bind_some, hcode]
  exact if_pos (.inl (by omega))

theorem readChar_escape (c : Char) (rest : List Char) : readChar (escape c ++ rest) = some (c, rest) := by
  unfold escape
  split_ifs with hquote hslash hback htab hline hfeed hreturn hcontrol
  · subst hquote; rfl
  · subst hslash; rfl
  · subst hback; rfl
  · subst htab; rfl
  · subst hline; rfl
  · subst hfeed; rfl
  · subst hreturn; rfl
  · have hcode := readCode_control hcontrol rest
    rw [Char.ofNat_toNat] at hcode
    exact hcode
  · simp [readChar, hquote, hcontrol]

theorem head_escape (c : Char) : ∃ d ds, escape c = d :: ds ∧ d ≠ '"' := by
  unfold escape
  split_ifs with hquote
  all_goals first
    | exact ⟨_, _, rfl, by decide⟩
    | exact ⟨_, _, rfl, hquote⟩

theorem readChars_escapes (cs rest : List Char) {fuel : Nat} (h : cs.length < fuel) :
    readChars fuel (cs.flatMap escape ++ '"' :: rest) = some (cs, rest) := by
  induction cs generalizing fuel with
  | nil =>
    obtain ⟨fuel, rfl⟩ : ∃ n, fuel = n + 1 := ⟨fuel - 1, by simp at h; omega⟩
    rfl
  | cons c cs ih =>
    obtain ⟨fuel, rfl⟩ : ∃ n, fuel = n + 1 := ⟨fuel - 1, by simp at h; omega⟩
    obtain ⟨d, ds, hescape, hd⟩ := head_escape c
    have hchar := readChar_escape c (cs.flatMap escape ++ '"' :: rest)
    have hrest := ih (show cs.length < fuel by simpa using h)
    rw [List.flatMap_cons, List.append_assoc]
    rw [hescape, List.cons_append] at hchar ⊢
    simp [readChars, hd, hchar, hrest]

theorem length_le_escapes (cs : List Char) : cs.length ≤ (cs.flatMap escape).length := by
  induction cs with
  | nil => simp
  | cons c cs ih =>
    obtain ⟨d, ds, hescape, -⟩ := head_escape c
    rw [List.flatMap_cons, List.length_append, hescape, List.length_cons, List.length_cons]
    omega

/-- **A string is read back.** -/
theorem readString_escapes (s : String) (rest : List Char) :
    readString (s.toList.flatMap escape ++ '"' :: rest) = some (s, rest) := by
  have hlength := length_le_escapes s.toList
  have hfuel : s.toList.length < (s.toList.flatMap escape ++ '"' :: rest).length := by
    rw [List.length_append, List.length_cons]
    omega
  rw [readString, readChars_escapes s.toList rest hfuel, Option.map_some]
  simp only [String.ofList_toList]

/-! ## Numbers -/

theorem isNumberChar_of_isDigit {c : Char} (h : c.isDigit = true) : isNumberChar c = true := by
  simp [isNumberChar, h]

theorem isNumberChar_of_takeSign {cs : List Char}
    (h : ∀ c ∈ (Text.takeSign cs).2, isNumberChar c = true) : ∀ c ∈ cs, isNumberChar c = true := by
  unfold Text.takeSign at h
  split at h
  · exact List.forall_mem_cons.2 ⟨by decide, h⟩
  · exact List.forall_mem_cons.2 ⟨by decide, h⟩
  · exact h

theorem isNumberChar_of_isExponent {cs : List Char} (h : isExponent cs = true) :
    ∀ c ∈ cs, isNumberChar c = true := by
  cases cs with
  | nil => simp
  | cons mark cs =>
    simp only [isExponent, isDigits, Bool.and_eq_true, Bool.or_eq_true, decide_eq_true_eq,
      List.all_eq_true] at h
    obtain ⟨hmark, -, hdigits⟩ := h
    refine List.forall_mem_cons.2 ⟨?_, isNumberChar_of_takeSign fun c hc =>
      isNumberChar_of_isDigit (hdigits c hc)⟩
    rcases hmark with rfl | rfl <;> decide

theorem isNumberChar_of_isTail {cs : List Char} (h : isTail cs = true) :
    ∀ c ∈ cs, isNumberChar c = true := by
  unfold isTail at h
  split at h
  · next cs =>
    rw [Bool.and_eq_true] at h
    refine List.forall_mem_cons.2 ⟨by decide, fun c hc => ?_⟩
    rw [← List.takeWhile_append_dropWhile (p := Char.isDigit) (l := cs), List.mem_append] at hc
    exact hc.elim (fun hc => isNumberChar_of_isDigit (List.mem_takeWhile_imp hc))
      (isNumberChar_of_isExponent h.2 c)
  · exact isNumberChar_of_isExponent h

theorem isNumberChar_of_isUnsigned {cs : List Char} (h : isUnsigned cs = true) :
    cs ≠ [] ∧ ∀ c ∈ cs, isNumberChar c = true := by
  rw [isUnsigned, Bool.and_eq_true] at h
  refine ⟨?_, fun c hc => ?_⟩
  · rintro rfl
    simp at h
  · rw [← List.takeWhile_append_dropWhile (p := Char.isDigit) (l := cs), List.mem_append] at hc
    exact hc.elim (fun hc => isNumberChar_of_isDigit (List.mem_takeWhile_imp hc))
      (isNumberChar_of_isTail h.2 c)

theorem isNumberChar_of_isNumber {cs : List Char} (h : isNumber cs = true) :
    cs ≠ [] ∧ ∀ c ∈ cs, isNumberChar c = true := by
  unfold isNumber at h
  split at h
  · next cs =>
    exact ⟨by simp, List.forall_mem_cons.2 ⟨by decide, (isNumberChar_of_isUnsigned h).2⟩⟩
  · exact isNumberChar_of_isUnsigned h

/-- The text does not go on with a number. -/
def Delimited (rest : List Char) : Prop := ∀ c ∈ rest.head?, isNumberChar c = false

theorem readNumber_text {text rest : List Char} (h : isNumber text = true) (hrest : Delimited rest) :
    readNumber (text ++ rest) = some (.number (String.ofList text), rest) := by
  obtain ⟨-, hchars⟩ := isNumberChar_of_isNumber h
  have htake : (text ++ rest).takeWhile isNumberChar = text := by
    rw [List.takeWhile_append_of_pos hchars]
    cases rest with
    | nil => simp
    | cons c rest => simp [hrest c (by simp)]
  have hdrop : (text ++ rest).dropWhile isNumberChar = rest := by
    rw [List.dropWhile_append_of_pos hchars]
    cases rest with
    | nil => rfl
    | cons c rest => simp [hrest c (by simp)]
  simp only [readNumber, htake, hdrop, if_pos h]

/-! ## Values -/

/-- The value's numbers are numbers. -/
inductive Written : Json → Prop where
  | null : Written .null
  | bool (b : Bool) : Written (.bool b)
  | number {text : String} (h : isNumber text.toList = true) : Written (.number text)
  | string (s : String) : Written (.string s)
  | array {items : List Json} (h : ∀ item ∈ items, Written item) : Written (.array items)
  | object {fields : List (String × Json)} (h : ∀ field ∈ fields, Written field.2) :
    Written (.object fields)

/-- The value's text shows where it starts, and is read back, whatever follows that cannot
be taken for more of a number. -/
structure Legible (j : Json) : Prop where
  head : ∃ c cs, j.render = c :: cs ∧ isBlank c = false ∧ c ≠ ']'
  read : ∀ {fuel : Nat} {rest : List Char}, j.render.length ≤ fuel → Delimited rest →
    readValue fuel (j.render ++ rest) = some (j, rest)

theorem skip_mark (cs : List Char) :
    skip ('"' :: cs) = '"' :: cs ∧ skip (',' :: cs) = ',' :: cs ∧ skip (':' :: cs) = ':' :: cs ∧
      skip ('[' :: cs) = '[' :: cs ∧ skip (']' :: cs) = ']' :: cs ∧
      skip ('{' :: cs) = '{' :: cs ∧ skip ('}' :: cs) = '}' :: cs :=
  ⟨rfl, rfl, rfl, rfl, rfl, rfl, rfl⟩

theorem Legible.length_pos {j : Json} (h : Legible j) : 0 < j.render.length := by
  obtain ⟨c, cs, hrender, -⟩ := h.head
  simp [hrender]

theorem delimited_cons {c : Char} (h : isNumberChar c = false) (rest : List Char) :
    Delimited (c :: rest) := by
  simpa [Delimited] using h

theorem readItems_render {items : List Json} (hne : items ≠ []) (h : ∀ item ∈ items, Legible item)
    {fuel : Nat} (hfuel : (renderItems items).length < fuel) (rest : List Char) :
    readItems fuel (renderItems items ++ ']' :: rest) = some (items, rest) := by
  induction items generalizing fuel with
  | nil => exact absurd rfl hne
  | cons item items ih =>
    obtain ⟨fuel, rfl⟩ : ∃ n, fuel = n + 1 := ⟨fuel - 1, by omega⟩
    have hitem := h item (by simp)
    have hpos := hitem.length_pos
    cases items with
    | nil =>
      rw [renderItems] at hfuel ⊢
      have hread := hitem.read (Nat.le_of_lt_succ hfuel) (delimited_cons (c := ']') (by decide) rest)
      simp only [readItems, hread, Option.bind_eq_bind, Option.bind_some, skip_mark]
    | cons next items =>
      simp only [renderItems, List.length_append, List.length_cons, List.append_assoc,
        List.cons_append] at hfuel ⊢
      have hrest := ih (by simp) (fun i hi => h i (by simp [hi]))
        (show (renderItems (next :: items)).length < fuel by omega)
      have hread := hitem.read (show item.render.length ≤ fuel by omega)
        (delimited_cons (c := ',') (by decide) (renderItems (next :: items) ++ ']' :: rest))
      simp only [readItems, hread, hrest, Option.bind_eq_bind, Option.bind_some, skip_mark]

theorem readFields_render {fields : List (String × Json)} (hne : fields ≠ [])
    (h : ∀ field ∈ fields, Legible field.2) {fuel : Nat} (hfuel : (renderFields fields).length < fuel)
    (rest : List Char) :
    readFields fuel (renderFields fields ++ '}' :: rest) = some (fields, rest) := by
  induction fields generalizing fuel with
  | nil => exact absurd rfl hne
  | cons field fields ih =>
    obtain ⟨fuel, rfl⟩ : ∃ n, fuel = n + 1 := ⟨fuel - 1, by omega⟩
    obtain ⟨name, value⟩ := field
    have hvalue := h (name, value) (by simp)
    cases fields with
    | nil =>
      simp only [renderFields, renderString, List.length_append, List.length_cons, List.append_assoc,
        List.cons_append, List.nil_append] at hfuel ⊢
      have hname := readString_escapes name (':' :: (value.render ++ '}' :: rest))
      have hread := hvalue.read (show value.render.length ≤ fuel by omega)
        (delimited_cons (c := '}') (by decide) rest)
      simp only [readFields, hname, hread, Option.bind_eq_bind, Option.bind_some, skip_mark]
    | cons next fields =>
      simp only [renderFields, renderString, List.length_append, List.length_cons, List.append_assoc,
        List.cons_append, List.nil_append] at hfuel ⊢
      have hrest := ih (by simp) (fun f hf => h f (by simp [hf]))
        (show (renderFields (next :: fields)).length < fuel by omega)
      have hname := readString_escapes name
        (':' :: (value.render ++ ',' :: (renderFields (next :: fields) ++ '}' :: rest)))
      have hread := hvalue.read (show value.render.length ≤ fuel by omega)
        (delimited_cons (c := ',') (by decide) (renderFields (next :: fields) ++ '}' :: rest))
      simp only [readFields, hname, hread, hrest, Option.bind_eq_bind, Option.bind_some, skip_mark]

theorem ne_of_isNumberChar {c : Char} (h : isNumberChar c = true) :
    isBlank c = false ∧ c ≠ '"' ∧ c ≠ '[' ∧ c ≠ ']' ∧ c ≠ '{' := by
  have hmarks : ∀ d ∈ [' ', '\t', '\n', '\r', '"', '[', ']', '{'], isNumberChar d = false := by
    simp [isNumberChar]
  have hne : ∀ d ∈ [' ', '\t', '\n', '\r', '"', '[', ']', '{'], c ≠ d := by
    rintro d hd rfl
    rw [hmarks c hd] at h
    cases h
  simp_all [isBlank]

/-- A value is legible if it is read from its first character on. -/
theorem legible_of_cons {j : Json} {c : Char} {cs : List Char} (hrender : j.render = c :: cs)
    (hblank : isBlank c = false) (hclose : c ≠ ']')
    (hread : ∀ (fuel : Nat) (rest : List Char), cs.length ≤ fuel → Delimited rest →
      readValue (fuel + 1) (c :: (cs ++ rest)) = some (j, rest)) : Legible j := by
  refine ⟨⟨c, cs, hrender, hblank, hclose⟩, fun {fuel rest} hfuel hrest => ?_⟩
  rw [hrender, List.length_cons] at hfuel
  obtain ⟨fuel, rfl⟩ : ∃ n, fuel = n + 1 := ⟨fuel - 1, by omega⟩
  rw [hrender, List.cons_append]
  exact hread fuel rest (Nat.le_of_succ_le_succ hfuel) hrest

theorem legible_number {text : String} (h : isNumber text.toList = true) : Legible (.number text) := by
  obtain ⟨hne, hchars⟩ := isNumberChar_of_isNumber h
  obtain ⟨c, cs, hcons⟩ := List.exists_cons_of_ne_nil hne
  have hc : isNumberChar c = true := hchars c (by simp [hcons])
  obtain ⟨hblank, hquote, hopen, hclose, hbrace⟩ := ne_of_isNumberChar hc
  refine legible_of_cons (by rw [render, hcons]) hblank hclose fun fuel rest _ hrest => ?_
  have hread := readNumber_text h hrest
  rw [String.ofList_toList, hcons, List.cons_append] at hread
  have hskip : skip (c :: (cs ++ rest)) = c :: (cs ++ rest) := by simp [skip, hblank]
  simp only [readValue, hskip, if_neg hquote, if_neg hopen, if_neg hbrace, if_pos hc, hread]

theorem legible_string (s : String) : Legible (.string s) := by
  refine legible_of_cons rfl (by decide) (by decide) fun fuel rest _ _ => ?_
  simp only [List.append_assoc, List.cons_append, List.nil_append, readValue, skip_mark, if_pos,
    readString_escapes, Option.map_some]

theorem head_items {items : List Json} (hne : items ≠ []) (h : ∀ item ∈ items, Legible item) :
    ∃ c cs, renderItems items = c :: cs ∧ isBlank c = false ∧ c ≠ ']' := by
  cases items with
  | nil => exact absurd rfl hne
  | cons item items =>
    obtain ⟨c, cs, hrender, hc⟩ := (h item (by simp)).head
    cases items with
    | nil => exact ⟨c, cs, by rw [renderItems, hrender], hc⟩
    | cons next items =>
      exact ⟨c, cs ++ ',' :: renderItems (next :: items), by
        simp only [renderItems, hrender, List.cons_append], hc⟩

theorem legible_array {items : List Json} (h : ∀ item ∈ items, Legible item) :
    Legible (.array items) := by
  refine legible_of_cons rfl (by decide) (by decide) fun fuel rest hfuel _ => ?_
  simp only [List.append_assoc, List.cons_append, List.nil_append, readValue, skip_mark]
  rw [if_neg (by decide), if_pos trivial]
  by_cases hne : items = []
  · subst hne
    rfl
  · rw [List.length_append, List.length_singleton] at hfuel
    have hread := readItems_render hne h hfuel rest
    obtain ⟨c, cs, hcons, hblank, hclose⟩ := head_items hne h
    rw [hcons, List.cons_append] at hread ⊢
    have hskip : skip (c :: (cs ++ ']' :: rest)) = c :: (cs ++ ']' :: rest) := by simp [skip, hblank]
    rw [hskip]
    split
    · next heq => exact absurd (List.cons.inj heq).1 hclose
    · rw [hread, Option.map_some]

theorem head_fields {fields : List (String × Json)} (hne : fields ≠ []) :
    ∃ cs, renderFields fields = '"' :: cs := by
  rcases fields with _ | ⟨⟨name, value⟩, _ | ⟨next, fields⟩⟩
  · exact absurd rfl hne
  · exact ⟨_, rfl⟩
  · exact ⟨_, rfl⟩

theorem legible_object {fields : List (String × Json)} (h : ∀ field ∈ fields, Legible field.2) :
    Legible (.object fields) := by
  refine legible_of_cons rfl (by decide) (by decide) fun fuel rest hfuel _ => ?_
  simp only [List.append_assoc, List.cons_append, List.nil_append, readValue, skip_mark]
  rw [if_neg (by decide), if_neg (by decide), if_pos trivial]
  by_cases hne : fields = []
  · subst hne
    rfl
  · rw [List.length_append, List.length_singleton] at hfuel
    have hread := readFields_render hne h hfuel rest
    obtain ⟨cs, hcons⟩ := head_fields hne
    rw [hcons, List.cons_append] at hread ⊢
    simp only [skip_mark]
    split
    · next heq => exact absurd (List.cons.inj heq).1 (by decide)
    · rw [hread, Option.map_some]

theorem legible_name {j : Json} {c : Char} {cs : List Char} (hrender : j.render = c :: cs)
    (hc : c ∈ ['n', 't', 'f']) (hread : ∀ rest, readName (c :: (cs ++ rest)) = some (j, rest)) :
    Legible j := by
  have hstart : ∀ c ∈ ['n', 't', 'f'], isBlank c = false ∧ c ≠ ']' ∧ c ≠ '"' ∧ c ≠ '[' ∧ c ≠ '{' ∧
      isNumberChar c = false := by
    simp [isBlank, isNumberChar]
  obtain ⟨hblank, hclose, hquote, hopen, hbrace, hnumber⟩ := hstart c hc
  refine legible_of_cons hrender hblank hclose fun fuel rest _ _ => ?_
  have hskip : skip (c :: (cs ++ rest)) = c :: (cs ++ rest) := by simp [skip, hblank]
  simp only [readValue, hskip, if_neg hquote, if_neg hopen, if_neg hbrace, hnumber, hread,
    Bool.false_eq_true, if_false]

theorem Written.legible {j : Json} (h : Written j) : Legible j := by
  induction h with
  | null => exact legible_name rfl (by decide) fun _ => rfl
  | bool b => cases b <;> exact legible_name rfl (by decide) fun _ => rfl
  | number h => exact legible_number h
  | string s => exact legible_string s
  | array _ ih => exact legible_array ih
  | object _ ih => exact legible_object ih

/-- **What is rendered is read back**, if its numbers are numbers. -/
theorem read?_render {j : Json} (h : Written j) : read? (String.ofList j.render) = some j := by
  have hread : readValue j.render.length (j.render ++ []) = some (j, []) :=
    h.legible.read (Nat.le_refl _) (by simp [Delimited])
  rw [List.append_nil] at hread
  rw [read?, String.toList_ofList, hread]
  rfl

/-! ## No control characters -/

theorem not_control_of_isNumberChar {c : Char} (h : isNumberChar c = true) : 0x20 ≤ c.toNat := by
  rw [isNumberChar, Bool.or_eq_true, decide_eq_true_eq] at h
  rcases h with h | h
  · have hzero : 0x20 ≤ '0'.toNat := by decide
    exact hzero.trans (Char.isDigit_iff_toNat.1 h).1
  · have hmarks : ∀ d ∈ ['-', '+', '.', 'e', 'E'], 0x20 ≤ d.toNat := by simp
    exact hmarks c h

theorem not_control_of_escape (c : Char) : ∀ d ∈ escape c, 0x20 ≤ d.toNat := by
  have hdigit : ∀ n < 0x20,
      0x20 ≤ (hexDigit (n / 16)).toNat ∧ 0x20 ≤ (hexDigit (n % 16)).toNat := by
    decide
  unfold escape
  split_ifs with _ _ _ _ _ _ _ hcontrol
  · simp
  · simp
  · simp
  · simp
  · simp
  · simp
  · simp
  · obtain ⟨hhigh, hlow⟩ := hdigit c.toNat hcontrol
    simp only [List.forall_mem_cons]
    exact ⟨by decide, by decide, by decide, by decide, hhigh, hlow, by simp⟩
  · intro d hd
    rw [List.mem_singleton.1 hd]
    omega

theorem not_control_of_string {s : String} : ∀ c ∈ renderString s, 0x20 ≤ c.toNat := by
  intro c hc
  have hquote : 0x20 ≤ '"'.toNat := by decide
  simp only [renderString, List.mem_cons, List.mem_append, List.mem_flatMap, List.not_mem_nil,
    or_false] at hc
  rcases hc with rfl | ⟨d, -, hd⟩ | rfl
  · exact hquote
  · exact not_control_of_escape d c hd
  · exact hquote

theorem mem_renderItems {items : List Json} {c : Char} (h : c ∈ renderItems items) :
    c = ',' ∨ ∃ item ∈ items, c ∈ item.render := by
  induction items with
  | nil => simp [renderItems] at h
  | cons item items ih =>
    cases items with
    | nil => exact .inr ⟨item, by simp, by rwa [renderItems] at h⟩
    | cons next items =>
      simp only [renderItems, List.mem_append, List.mem_cons] at h
      rcases h with h | h | h
      · exact .inr ⟨item, by simp, h⟩
      · exact .inl h
      · exact (ih h).imp_right fun ⟨i, hi, hc⟩ => ⟨i, by simp [hi], hc⟩

theorem mem_renderFields {fields : List (String × Json)} {c : Char} (h : c ∈ renderFields fields) :
    c = ',' ∨ c = ':' ∨ ∃ field ∈ fields, c ∈ renderString field.1 ∨ c ∈ field.2.render := by
  induction fields with
  | nil => simp [renderFields] at h
  | cons field fields ih =>
    obtain ⟨name, value⟩ := field
    cases fields with
    | nil =>
      simp only [renderFields, List.mem_append, List.mem_cons] at h
      rcases h with h | h | h
      · exact .inr (.inr ⟨(name, value), by simp, .inl h⟩)
      · exact .inr (.inl h)
      · exact .inr (.inr ⟨(name, value), by simp, .inr h⟩)
    | cons next fields =>
      simp only [renderFields, List.mem_append, List.mem_cons] at h
      rcases h with h | h | h | h | h
      · exact .inr (.inr ⟨(name, value), by simp, .inl h⟩)
      · exact .inr (.inl h)
      · exact .inr (.inr ⟨(name, value), by simp, .inr h⟩)
      · exact .inl h
      · exact (ih h).imp_right fun h => h.imp_right fun ⟨f, hf, hc⟩ => ⟨f, by simp [hf], hc⟩

/-- **No control character** stands in the text of a value. -/
theorem not_control {j : Json} (h : Written j) : ∀ c ∈ j.render, 0x20 ≤ c.toNat := by
  have hmarks : ∀ c ∈ ['[', ']', '{', '}', ',', ':'], 0x20 ≤ c.toNat := by simp
  induction h with
  | null => simp [render]
  | bool b => cases b <;> simp [render]
  | number h => exact fun c hc => not_control_of_isNumberChar ((isNumberChar_of_isNumber h).2 c hc)
  | string s => exact not_control_of_string
  | array _ ih =>
    intro c hc
    simp only [render, List.mem_cons, List.mem_append, List.not_mem_nil, or_false] at hc
    rcases hc with rfl | hc | rfl
    · exact hmarks _ (by simp)
    · rcases mem_renderItems hc with rfl | ⟨item, hitem, hc⟩
      · exact hmarks _ (by simp)
      · exact ih item hitem c hc
    · exact hmarks _ (by simp)
  | object _ ih =>
    intro c hc
    simp only [render, List.mem_cons, List.mem_append, List.not_mem_nil, or_false] at hc
    rcases hc with rfl | hc | rfl
    · exact hmarks _ (by simp)
    · rcases mem_renderFields hc with rfl | rfl | ⟨field, hfield, hc | hc⟩
      · exact hmarks _ (by simp)
      · exact hmarks _ (by simp)
      · exact not_control_of_string c hc
      · exact ih field hfield c hc
    · exact hmarks _ (by simp)

end Json

end MetricStream
