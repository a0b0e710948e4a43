/-
Which arguments are options.

An argument is an option exactly if it is spelled like one: two hyphens and a
name, perhaps with a value attached, or one hyphen and letters that all stand
for options. Everything else but two hyphens alone is a word, and every number
is (`ofText_eq_word_iff`, `not_isOption_of_number`). What an option is can be
told from how it is spelled, and the other way round.
-/
import Mathlib.Data.List.TakeWhile
import MetricStream.Binary64.Literal
import MetricStream.CommandLine

namespace MetricStream.CommandLine

/-- The names that options are spelled with. -/
def optionNames : List String :=
  ["namespace", "tags", "config", "host", "api-key", "api-url", "dry-run", "log-json", "help",
    "version"]

/-- The letters that options are spelled with. -/
def optionLetters : List Char := ['c', 'h', 'V']

/-- The argument is spelled like an option, or like several in a cluster. -/
inductive IsOption : String → Prop where
  | alone {name : String} : name ∈ optionNames → IsOption ("--" ++ name)
  | attached {name : String} (value : String) :
      name ∈ optionNames → IsOption ("--" ++ name ++ "=" ++ value)
  | letters {letters : List Char} :
      letters ≠ [] → letters ⊆ optionLetters → IsOption (String.ofList ('-' :: letters))

namespace Argument

/-! ## Names -/

theorem takeWhile_name {name : List Char} (h : '=' ∉ name) :
    ∀ c ∈ name, decide (c ≠ '=') = true := by
  intro c hc
  exact decide_eq_true fun he => h (he ▸ hc)

theorem ofLong_alone {name : List Char} (h : '=' ∉ name) :
    ofLong name = ofName (String.ofList name) none := by
  have htake := List.takeWhile_eq_self_iff.2 (takeWhile_name h)
  simp only [ofLong, htake, List.drop_length]

theorem ofLong_attached {name : List Char} (h : '=' ∉ name) (value : List Char) :
    ofLong (name ++ '=' :: value) = ofName (String.ofList name) (some (String.ofList value)) := by
  have htake : (name ++ '=' :: value).takeWhile (· ≠ '=') = name := by
    rw [List.takeWhile_append_of_pos (takeWhile_name h)]
    simp
  simp only [ofLong, htake, List.drop_left]

theorem exists_name (text : List Char) :
    ∃ name, '=' ∉ name ∧ (text = name ∨ ∃ value, text = name ++ '=' :: value) := by
  by_cases h : '=' ∈ text
  · obtain ⟨name, value, rfl, hname⟩ := List.eq_append_cons_of_mem h
    exact ⟨name, hname, .inr ⟨value, rfl⟩⟩
  · exact ⟨text, h, .inl rfl⟩

theorem named?_eq_none_iff {name : String} :
    Parameter.named? name = none ↔
      name ∉ ["namespace", "tags", "config", "host", "api-key", "api-url"] := by
  unfold Parameter.named?
  split <;> simp_all

theorem ofName_eq_word_iff {name : String} {attached : Option String} :
    ofName name attached = .word ↔ name ∉ optionNames := by
  have hplain : ∀ alone : Argument, alone ≠ .word → plain name attached alone ≠ .word := by
    intro alone halone
    rcases attached with _ | value
    · exact halone
    · simp [plain]
  unfold ofName
  split
  iterate 4 simp [optionNames, hplain]
  next hdry hjson hhelp hversion =>
    have hnames : name ∉ optionNames ↔ Parameter.named? name = none := by
      rw [named?_eq_none_iff]
      simp [optionNames, show name ≠ "dry-run" from hdry, show name ≠ "log-json" from hjson,
        show name ≠ "help" from hhelp, show name ≠ "version" from hversion]
    rw [hnames]
    rcases Parameter.named? name with _ | p <;> simp

theorem parameter_mem_optionNames (p : Parameter) : p.name ∈ optionNames := by
  cases p <;> decide

theorem flag_mem_optionNames (f : Flag) : f.name ∈ optionNames := by
  cases f <;> decide

theorem name_of_named? {name : String} {p : Parameter} (h : Parameter.named? name = some p) :
    name = p.name := by
  unfold Parameter.named? at h
  split at h <;> cases h <;> rfl

theorem ofName_eq_flag {name : String} {attached : Option String} {f : Flag}
    (h : ofName name attached = .flag f) : name = f.name ∧ attached = none := by
  unfold ofName at h
  split at h
  iterate 4 rcases attached with _ | value <;> cases h <;> exact ⟨rfl, rfl⟩
  split at h <;> cases h

theorem ofName_eq_parameter {name : String} {attached attached' : Option String}
    {p : Parameter} (h : ofName name attached = .parameter p attached') :
    name = p.name ∧ attached = attached' := by
  unfold ofName at h
  split at h
  iterate 4 rcases attached with _ | value <;> cases h
  split at h
  · next hname =>
    cases h
    exact ⟨name_of_named? hname, rfl⟩
  · cases h

theorem ofName_ne_terminator (name : String) (attached : Option String) :
    ofName name attached ≠ .terminator := by
  unfold ofName
  split
  iterate 4 rcases attached with _ | value <;> simp [plain]
  rcases Parameter.named? name with _ | p <;> simp

/-! ## Letters -/

theorem isOptionLetter_iff {c : Char} : isOptionLetter c = true ↔ c ∈ optionLetters := by
  simp [isOptionLetter, optionLetters, or_assoc]

theorem ofLetters_eq_word_iff {letters : List Char} :
    ofLetters letters = .word ↔ ¬ (letters ≠ [] ∧ letters ⊆ optionLetters) := by
  have hall : letters.all isOptionLetter = true ↔ letters ⊆ optionLetters := by
    simp only [List.all_eq_true, isOptionLetter_iff]
    rfl
  unfold ofLetters
  rw [← hall]
  split
  · next h => split <;> simp_all
  · next h => simp [h]

theorem ofLetters_eq_parameter {letters : List Char} {attached : Option String} {p : Parameter}
    (h : ofLetters letters = .parameter p attached) :
    p = .config ∧ ∃ rest, letters = 'c' :: rest ∧
      (rest = [] ∧ attached = none ∨ rest ≠ [] ∧ attached = some (String.ofList rest)) := by
  unfold ofLetters at h
  split at h
  · split at h <;> cases h
    · exact ⟨rfl, [], rfl, .inl ⟨rfl, rfl⟩⟩
    · next rest hne _ => exact ⟨rfl, rest, rfl, .inr ⟨fun he => hne (by rw [he]), rfl⟩⟩
  · cases h

theorem ofLetters_ne_flag (letters : List Char) (f : Flag) : ofLetters letters ≠ .flag f := by
  unfold ofLetters
  split
  · split <;> simp
  · simp

/-! ## Arguments -/

theorem ofText_long {arg : String} {text : List Char} (h : arg.toList = '-' :: '-' :: text)
    (hne : text ≠ []) : ofText arg = ofLong text := by
  unfold ofText
  rw [h]
  split
  · next he => simp_all
  · next he => simp_all
  · next hno he => exact absurd (List.cons.inj he).2.symm (hno text)
  · next hno => exact absurd rfl (hno _)

theorem ofText_letters {arg : String} {letters : List Char} (h : arg.toList = '-' :: letters)
    (hne : letters.head? ≠ some '-') : ofText arg = ofLetters letters := by
  unfold ofText
  rw [h]
  split
  · next he => simp_all
  · next he => simp_all
  · next he => simp_all
  · next he => simp_all

theorem name_of_option {name : String} (h : name ∈ optionNames) : name.toList ≠ [] ∧ '=' ∉ name.toList := by
  have hall : ∀ n ∈ optionNames, n.toList ≠ [] ∧ '=' ∉ n.toList := by decide
  exact hall name h

theorem ofText_alone {name : String} (h : name ∈ optionNames) :
    ofText ("--" ++ name) = ofName name none := by
  obtain ⟨hne, heq⟩ := name_of_option h
  have htext : ("--" ++ name).toList = '-' :: '-' :: name.toList := by
    rw [String.toList_append]
    rfl
  rw [ofText_long htext hne, ofLong_alone heq, String.ofList_toList]

theorem ofText_attached {name : String} (h : name ∈ optionNames) (value : String) :
    ofText ("--" ++ name ++ "=" ++ value) = ofName name (some value) := by
  have htext : ("--" ++ name ++ "=" ++ value).toList = '-' :: '-' :: (name.toList ++ '=' :: value.toList) := by
    simp [String.toList_append]
  rw [ofText_long htext (by simp), ofLong_attached (name_of_option h).2, String.ofList_toList,
    String.ofList_toList]

theorem ofText_cluster {letters : List Char} (h : letters ⊆ optionLetters) :
    ofText (String.ofList ('-' :: letters)) = ofLetters letters := by
  refine ofText_letters String.toList_ofList fun hhead => ?_
  have hmem : '-' ∈ optionLetters := h (List.mem_of_head? hhead)
  exact absurd hmem (by decide)

theorem ofText_parameter (p : Parameter) (value : String) :
    ofText ("--" ++ p.name ++ "=" ++ value) = .parameter p (some value) := by
  rw [ofText_attached (parameter_mem_optionNames p)]
  cases p <;> rfl

theorem ofText_parameter_alone (p : Parameter) : ofText ("--" ++ p.name) = .parameter p none := by
  rw [ofText_alone (parameter_mem_optionNames p)]
  cases p <;> rfl

theorem ofText_flag (f : Flag) : ofText ("--" ++ f.name) = .flag f := by
  rw [ofText_alone (flag_mem_optionNames f)]
  cases f <;> rfl

/-- The letter for the path takes the others with it. -/
theorem ofText_path {letters : List Char} (hne : letters ≠ []) (h : letters ⊆ optionLetters) :
    ofText (String.ofList ('-' :: 'c' :: letters)) =
      .parameter .config (some (String.ofList letters)) := by
  have hall : 'c' :: letters ⊆ optionLetters := List.cons_subset.2 ⟨by decide, h⟩
  have hletters : ('c' :: letters).all isOptionLetter = true :=
    List.all_eq_true.2 fun c hc => isOptionLetter_iff.2 (hall hc)
  rw [ofText_cluster hall, ofLetters, if_pos hletters]
  exact hne

/-- **Words are what is spelled like no option**, and is not two hyphens alone. -/
theorem ofText_eq_word_iff {arg : String} : ofText arg = .word ↔ arg ≠ "--" ∧ ¬ IsOption arg := by
  constructor
  · intro h
    refine ⟨?_, ?_⟩
    · rintro rfl
      cases h
    · rintro (hname | ⟨value, hname⟩ | ⟨hne, hletters⟩)
      · rw [ofText_alone hname, ofName_eq_word_iff] at h
        exact h hname
      · rw [ofText_attached hname, ofName_eq_word_iff] at h
        exact h hname
      · rw [ofText_cluster hletters, ofLetters_eq_word_iff] at h
        exact h ⟨hne, hletters⟩
  · rintro ⟨hterminator, hoption⟩
    unfold ofText
    split
    · next htext =>
      exact absurd (String.toList_injective (htext.trans rfl)) hterminator
    · next text _ htext =>
      obtain ⟨name, hequals, rfl | ⟨value, rfl⟩⟩ := exists_name text
      · rw [ofLong_alone hequals, ofName_eq_word_iff]
        intro hname
        have harg : arg = "--" ++ String.ofList text := String.toList_injective (by simp [htext])
        exact hoption (harg ▸ .alone hname)
      · rw [ofLong_attached hequals, ofName_eq_word_iff]
        intro hname
        have harg : arg = "--" ++ String.ofList name ++ "=" ++ String.ofList value :=
          String.toList_injective (by simp [htext])
        exact hoption (harg ▸ .attached _ hname)
    · next letters _ _ htext =>
      rw [ofLetters_eq_word_iff]
      rintro ⟨hne, hletters⟩
      have harg : arg = String.ofList ('-' :: letters) := String.toList_injective (by simp [htext])
      exact hoption (harg ▸ .letters hne hletters)
    · rfl

theorem eq_terminator {arg : String} (h : ofText arg = .terminator) : arg = "--" := by
  unfold ofText at h
  split at h
  · next htext => exact String.toList_injective (htext.trans rfl)
  · next text _ _ =>
    obtain ⟨name, hequals, rfl | ⟨value, rfl⟩⟩ := exists_name text
    · rw [ofLong_alone hequals] at h
      exact absurd h (ofName_ne_terminator _ _)
    · rw [ofLong_attached hequals] at h
      exact absurd h (ofName_ne_terminator _ _)
  · unfold ofLetters at h
    split at h
    · split at h <;> cases h
    · cases h
  · cases h

theorem isOption_of_ofText {arg : String} {a : Argument} (h : ofText arg = a) (hword : a ≠ .word)
    (hterminator : a ≠ .terminator) : IsOption arg := by
  by_contra hno
  rcases eq_or_ne arg "--" with rfl | hne
  · exact hterminator h.symm
  · exact hword (h.symm.trans (ofText_eq_word_iff.2 ⟨hne, hno⟩))

end Argument

/-! ## Numbers -/

theorem read?_hyphen {c : Char} {cs : List Char} (h : c ∈ '-' :: optionLetters) :
    Binary64.Literal.read? ('-' :: c :: cs) = none := by
  have hfirst : c.isDigit = false ∧ c ≠ '.' ∧ c.toLower ≠ 'i' ∧ c.toLower ≠ 'n' := by
    have hall : ∀ d ∈ '-' :: optionLetters,
        d.isDigit = false ∧ d ≠ '.' ∧ d.toLower ≠ 'i' ∧ d.toLower ≠ 'n' := by
      simp [optionLetters]
    exact hall c h
  obtain ⟨hdigit, hpoint, hinf, hnan⟩ := hfirst
  simp [Binary64.Literal.read?, Text.takeSign, Binary64.Literal.readDecimal?, hdigit, hpoint, hinf,
    hnan]

/-- A number is no option, whatever its sign. -/
theorem not_isOption_of_number {arg : String} (h : (Binary64.read? arg).isSome = true) :
    arg ≠ "--" ∧ ¬ IsOption arg := by
  have hno : ∀ c cs, c ∈ '-' :: optionLetters → arg.toList ≠ '-' :: c :: cs := by
    intro c cs hc htext
    rw [Binary64.read?, htext, read?_hyphen hc] at h
    cases h
  refine ⟨?_, ?_⟩
  · rintro rfl
    exact hno '-' [] (by simp) rfl
  · rintro (hname | ⟨value, hname⟩ | ⟨hne, hletters⟩)
    · exact hno '-' _ (by simp) (by rw [String.toList_append]; rfl)
    · exact hno '-' _ (by simp) (by rw [String.toList_append, String.toList_append, String.toList_append]; rfl)
    · next letters =>
      obtain ⟨c, cs, rfl⟩ := List.exists_cons_of_ne_nil hne
      exact hno c cs (List.mem_cons_of_mem _ (hletters (by simp))) String.toList_ofList

end MetricStream.CommandLine
