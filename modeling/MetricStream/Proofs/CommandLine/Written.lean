/-
Command lines written out, and read back.

Whatever is asked for, there are arguments that ask for it: each option as one
argument, two hyphens and the commands. They are read as what was asked for,
whatever the values look like and in whatever order the options stand, and the
environment fills in for the two options it may. Options have other forms, with
the value in the next argument or behind a letter; one that is given twice, in
whatever forms, is never read (`written_is_read_back`).
-/
import MetricStream.Proofs.CommandLine.Boundary

namespace MetricStream.CommandLine

/-- An option with what it is given. -/
inductive Setting where
  | parameter (p : Parameter) (value : String)
  | flag (f : Flag)
deriving DecidableEq

namespace Setting

/-- Which option it is. -/
def option : Setting → Parameter ⊕ Flag
  | .parameter p _ => .inl p
  | .flag f => .inr f

/-- The setting as one argument. -/
def text : Setting → String
  | .parameter p value => "--" ++ p.name ++ "=" ++ value
  | .flag f => "--" ++ f.name

/-- It is not the empty path. -/
def Allowed : Setting → Prop
  | .parameter p value => Draft.allows p value = true
  | .flag _ => True

end Setting

namespace Draft

/-- The option was given before. -/
def Has (d : Draft) : Setting → Prop
  | .parameter p _ => (d.value? p).isSome = true
  | .flag f => f ∈ d.flags

/-- The draft with one more setting. -/
def add (d : Draft) : Setting → Except Stop Draft
  | .parameter p value => d.give p value
  | .flag f => d.raise f

/-- The draft with more settings. -/
def addAll (d : Draft) : List Setting → Except Stop Draft
  | [] => .ok d
  | s :: ss =>
    match d.add s with
    | .error e => .error e
    | .ok d => d.addAll ss

theorem add_eq_ok_iff {d : Draft} {s : Setting} : (∃ d', d.add s = .ok d') ↔ ¬ d.Has s ∧ s.Allowed := by
  rcases s with ⟨p, value⟩ | f
  · simp only [add, give, Has, Setting.Allowed]
    split
    · simp_all
    · split <;> simp_all
  · simp only [add, raise, Has, Setting.Allowed]
    split <;> simp_all

theorem value?_add {d d' : Draft} {s : Setting} (h : d.add s = .ok d') (p : Parameter) (v : String) :
    d'.value? p = some v ↔ s = .parameter p v ∨ d.value? p = some v := by
  have hnew := (add_eq_ok_iff.1 ⟨d', h⟩).1
  rcases s with ⟨q, value⟩ | f
  · simp only [add, give] at h
    split at h
    · cases h
    split at h
    · cases h
      have hnone : d.value? q = none := by simpa [Has] using hnew
      by_cases hqp : q = p
      · subst hqp
        have hfirst : value? { d with values := (q, value) :: d.values } q = some value := by
          simp [value?]
        rw [hfirst, hnone]
        simp
      · simp [value?, hqp]
    · cases h
  · simp only [add, raise] at h
    split at h
    · cases h
    · cases h
      simp [value?]

theorem flags_add {d d' : Draft} {s : Setting} (h : d.add s = .ok d') (f : Flag) :
    f ∈ d'.flags ↔ s = .flag f ∨ f ∈ d.flags := by
  rcases s with ⟨p, value⟩ | f'
  · simp only [add, give] at h
    split at h
    · cases h
    split at h <;> cases h
    simp
  · simp only [add, raise] at h
    split at h <;> cases h
    simp [eq_comm]

theorem has_add {d d' : Draft} {s : Setting} (h : d.add s = .ok d') (t : Setting) :
    d'.Has t ↔ s.option = t.option ∨ d.Has t := by
  rcases t with ⟨p, value⟩ | f
  · simp only [Has, Option.isSome_iff_exists, value?_add h, exists_or]
    rcases s with ⟨q, value⟩ | f <;> simp [Setting.option]
  · simp only [Has, flags_add h]
    rcases s with ⟨q, value⟩ | f' <;> simp [Setting.option]

theorem addAll_cons {d d₁ : Draft} {s : Setting} (h : d.add s = .ok d₁) (ss : List Setting) :
    d.addAll (s :: ss) = d₁.addAll ss := by
  rw [addAll, h]

theorem addAll_eq_ok {d d' : Draft} {s : Setting} {ss : List Setting}
    (h : d.addAll (s :: ss) = .ok d') : ∃ d₁, d.add s = .ok d₁ ∧ d₁.addAll ss = .ok d' := by
  rw [addAll] at h
  split at h
  · cases h
  · next d₁ hadd => exact ⟨d₁, hadd, h⟩

theorem exists_addAll_iff {d : Draft} {ss : List Setting} :
    (∃ d', d.addAll ss = .ok d') ↔
      (ss.map Setting.option).Nodup ∧ ∀ s ∈ ss, ¬ d.Has s ∧ s.Allowed := by
  induction ss generalizing d with
  | nil => simp [addAll]
  | cons s ss ih =>
    constructor
    · rintro ⟨d', h⟩
      obtain ⟨d₁, hadd, hrest⟩ := addAll_eq_ok h
      obtain ⟨hnodup, hall⟩ := ih.1 ⟨d', hrest⟩
      -- What `d₁` does not have is neither in `d` nor `s`.
      simp only [has_add hadd, not_or] at hall
      refine ⟨List.nodup_cons.2 ⟨fun hmem => ?_, hnodup⟩,
        List.forall_mem_cons.2 ⟨add_eq_ok_iff.1 ⟨d₁, hadd⟩, fun t ht => ?_⟩⟩
      · obtain ⟨t, ht, heq⟩ := List.mem_map.1 hmem
        exact (hall t ht).1.1 heq.symm
      · exact ⟨(hall t ht).1.2, (hall t ht).2⟩
    · rintro ⟨hnodup, hall⟩
      obtain ⟨d₁, hadd⟩ := add_eq_ok_iff.2 (hall s (by simp))
      obtain ⟨hnotin, hnodup⟩ := List.nodup_cons.1 hnodup
      obtain ⟨d', hrest⟩ := ih.2 ⟨hnodup, fun t ht => by
        have hne : s.option ≠ t.option := fun heq => hnotin (heq ▸ List.mem_map_of_mem ht)
        rw [has_add hadd, not_or]
        exact ⟨⟨hne, (hall t (by simp [ht])).1⟩, (hall t (by simp [ht])).2⟩⟩
      exact ⟨d', by rw [addAll_cons hadd, hrest]⟩

theorem value?_addAll {d d' : Draft} {ss : List Setting} (h : d.addAll ss = .ok d') (p : Parameter)
    (v : String) : d'.value? p = some v ↔ .parameter p v ∈ ss ∨ d.value? p = some v := by
  induction ss generalizing d with
  | nil =>
    cases h
    simp
  | cons s ss ih =>
    obtain ⟨d₁, hadd, hrest⟩ := addAll_eq_ok h
    rw [ih hrest, value?_add hadd, List.mem_cons, eq_comm, or_left_comm, or_assoc]

theorem flags_addAll {d d' : Draft} {ss : List Setting} (h : d.addAll ss = .ok d') (f : Flag) :
    f ∈ d'.flags ↔ .flag f ∈ ss ∨ f ∈ d.flags := by
  induction ss generalizing d with
  | nil =>
    cases h
    simp
  | cons s ss ih =>
    obtain ⟨d₁, hadd, hrest⟩ := addAll_eq_ok h
    rw [ih hrest, flags_add hadd, List.mem_cons, eq_comm, or_left_comm, or_assoc]

end Draft

/-! ## Options before the rest -/

theorem readFrom_attached {d : Draft} {arg value : String} {p : Parameter} {rest : List String}
    (harg : Argument.ofText arg = .parameter p (some value)) :
    readFrom d (arg :: rest) =
      match d.give p value with
      | .error e => .error e
      | .ok d => readFrom d rest := by
  rcases hgive : d.give p value with e | d₁ <;> simp [readFrom, harg, hgive]

theorem readFrom_setting (d : Draft) (s : Setting) (rest : List String) :
    readFrom d (s.text :: rest) =
      match d.add s with
      | .error e => .error e
      | .ok d => readFrom d rest := by
  rcases s with ⟨p, value⟩ | f
  · exact readFrom_attached (Argument.ofText_parameter p value)
  · rw [readFrom, Setting.text, Argument.ofText_flag]
    rfl

theorem readFrom_settings {d d' : Draft} {ss : List Setting} (h : d.addAll ss = .ok d')
    (rest : List String) : readFrom d (ss.map Setting.text ++ rest) = readFrom d' rest := by
  induction ss generalizing d with
  | nil =>
    cases h
    rfl
  | cons s ss ih =>
    obtain ⟨d₁, hadd, hrest⟩ := Draft.addAll_eq_ok h
    rw [List.map_cons, List.cons_append, readFrom_setting, hadd]
    exact ih hrest

/-! ## All that can be asked for -/

/-- What a command line can ask for. -/
structure Invocation where
  scope : Option String
  tags : Option String
  config : Option String
  host : Option String
  apiKey : Option String
  apiUrl : Option String
  dryRun : Bool
  logJson : Bool
  commands : List String
  config_ne : config ≠ some ""

namespace Invocation

variable (i : Invocation)

/-- What is chosen for an option. -/
def value? : Parameter → Option String
  | .scope => i.scope
  | .tags => i.tags
  | .config => i.config
  | .host => i.host
  | .apiKey => i.apiKey
  | .apiUrl => i.apiUrl

/-- The flag is chosen. -/
def raised : Flag → Bool
  | .dryRun => i.dryRun
  | .logJson => i.logJson

/-- The chosen options, in one of their orders. -/
def settings : List Setting :=
  [Parameter.scope, .tags, .config, .host, .apiKey, .apiUrl].filterMap
      (fun p => (i.value? p).map (Setting.parameter p)) ++
    ([Flag.dryRun, .logJson].filter i.raised).map Setting.flag

/-- The command line that says this. The environment has the key and the
address if nothing is chosen for them. -/
def line (env : Environment) : CommandLine where
  scope := i.scope
  tags := i.tags
  config := i.config
  host := i.host
  apiKey := (i.apiKey.or env.apiKey).map ApiKey.mk
  apiUrl := i.apiUrl.or env.apiUrl
  dryRun := i.dryRun
  logJson := i.logJson
  commands := i.commands

variable {i}

theorem parameter_mem_settings {p : Parameter} {value : String} :
    .parameter p value ∈ i.settings ↔ i.value? p = some value := by
  have hall : p ∈ [Parameter.scope, .tags, .config, .host, .apiKey, .apiUrl] := by
    cases p <;> decide
  simp only [settings, List.mem_append, List.mem_filterMap, List.mem_map, Option.map_eq_some_iff]
  constructor
  · rintro (⟨q, -, v, hv, heq⟩ | ⟨f, -, heq⟩)
    · cases heq
      exact hv
    · cases heq
  · intro h
    exact .inl ⟨p, hall, value, h, rfl⟩

theorem flag_mem_settings {f : Flag} : .flag f ∈ i.settings ↔ i.raised f = true := by
  have hall : f ∈ [Flag.dryRun, .logJson] := by cases f <;> decide
  simp [settings, -List.mem_cons, hall]

theorem allowed_of_mem_settings {s : Setting} (h : s ∈ i.settings) : s.Allowed := by
  rcases s with ⟨p, value⟩ | f
  · rw [parameter_mem_settings] at h
    rcases eq_or_ne p .config with rfl | hp
    · have hne : value ≠ "" := by
        rintro rfl
        exact i.config_ne h
      simp [Setting.Allowed, Draft.allows, hne]
    · simp [Setting.Allowed, Draft.allows, hp]
  · trivial

theorem nodup_options : (i.settings.map Setting.option).Nodup := by
  have hparameters : ∀ ps : List Parameter,
      ((ps.filterMap fun p => (i.value? p).map (Setting.parameter p)).map Setting.option).Sublist
        (ps.map .inl) := by
    intro ps
    induction ps with
    | nil => exact .slnil
    | cons p ps ih =>
      rcases hp : i.value? p with _ | value
      · simpa [hp] using ih.cons _
      · simpa [hp, Setting.option] using ih.cons_cons (.inl p)
  have hflags : ∀ fs : List Flag,
      (((fs.filter i.raised).map Setting.flag).map Setting.option).Sublist (fs.map .inr) := by
    intro fs
    rw [List.map_map]
    exact List.filter_sublist.map _
  rw [settings, List.map_append]
  exact ((hparameters _).append (hflags _)).nodup (by decide)

/-- The settings in any order make a draft of what was chosen. -/
theorem exists_addAll_settings {written : List Setting} (h : written.Perm i.settings) :
    ∃ d, Draft.empty.addAll written = .ok d ∧ ∀ env, d.finish env i.commands = i.line env := by
  have hnodup : (written.map Setting.option).Nodup :=
    (h.map _).nodup_iff.2 nodup_options
  have hnew : ∀ s, ¬ Draft.empty.Has s := by
    rintro (⟨p, value⟩ | f) <;> simp [Draft.Has, Draft.empty, Draft.value?]
  obtain ⟨d, hd⟩ := Draft.exists_addAll_iff.2
    ⟨hnodup, fun s hs => ⟨hnew s, allowed_of_mem_settings (h.mem_iff.1 hs)⟩⟩
  have hvalue : ∀ p, d.value? p = i.value? p := by
    intro p
    refine Option.ext fun v => ?_
    rw [Draft.value?_addAll hd, h.mem_iff, parameter_mem_settings]
    simp [Draft.empty, Draft.value?]
  have hflag : ∀ f, f ∈ d.flags ↔ i.raised f = true := by
    intro f
    rw [Draft.flags_addAll hd, h.mem_iff, flag_mem_settings]
    simp [Draft.empty]
  refine ⟨d, hd, fun env => ?_⟩
  simp [Draft.finish, line, hvalue, hflag, value?, raised]

end Invocation

/-! ## The forms of an option -/

/-- An option in one of the forms it can be given in. -/
inductive Given where
  /-- The flag, or the option and its value, in one argument. -/
  | attached (s : Setting)
  /-- The value in an argument of its own. -/
  | separate (p : Parameter) (value : String)
  /-- The path behind its letter, in an argument of its own. -/
  | letter (value : String)
  /-- The path directly behind its letter, where it looks like more letters. -/
  | cluster (letters : List Char) (letters_ne : letters ≠ []) (known : letters ⊆ optionLetters)

namespace Given

/-- The arguments that give it. -/
def args : Given → List String
  | .attached s => [s.text]
  | .separate p value => ["--" ++ p.name, value]
  | .letter value => ["-c", value]
  | .cluster letters _ _ => [String.ofList ('-' :: 'c' :: letters)]

/-- What is given. -/
def setting : Given → Setting
  | .attached s => s
  | .separate p value => .parameter p value
  | .letter value => .parameter .config value
  | .cluster letters _ _ => .parameter .config (String.ofList letters)

end Given

/-- A value that stands apart is taken, or the command line is refused. -/
theorem separate_of_readFrom {d : Draft} {arg value : String} {p : Parameter} {rest : List String}
    {r : Draft × List String} (harg : Argument.ofText arg = .parameter p none)
    (h : readFrom d (arg :: value :: rest) = .ok r) :
    Argument.ofText value = .word ∧ ∃ d₁, d.give p value = .ok d₁ ∧ readFrom d₁ rest = .ok r := by
  rw [readFrom, harg] at h
  simp only at h
  split at h
  · cases h
  split at h
  · cases h
  next value' rest' hsplit =>
    obtain ⟨heq, hword⟩ := separateValue_eq_ok hsplit
    cases heq
    split at h
    · cases h
    split at h
    · cases h
    · next d₁ hgive => exact ⟨hword, d₁, hgive, h⟩

theorem setting_of_readFrom {d : Draft} {g : Given} {rest : List String} {r : Draft × List String}
    (h : readFrom d (g.args ++ rest) = .ok r) :
    ∃ d₁, d.add g.setting = .ok d₁ ∧ readFrom d₁ rest = .ok r := by
  cases g with
  | attached s =>
    change readFrom d (s.text :: rest) = .ok r at h
    rw [readFrom_setting] at h
    split at h
    · cases h
    · next d₁ hadd => exact ⟨d₁, hadd, h⟩
  | separate p value => exact (separate_of_readFrom (Argument.ofText_parameter_alone p) h).2
  | letter value => exact (separate_of_readFrom rfl h).2
  | cluster letters hne hknown =>
    change readFrom d (_ :: rest) = .ok r at h
    rw [readFrom_attached (Argument.ofText_path hne hknown)] at h
    split at h
    · cases h
    · next d₁ hgive => exact ⟨d₁, hgive, h⟩

theorem settings_of_readFrom {d : Draft} {gs : List Given} {rest : List String}
    {r : Draft × List String} (h : readFrom d (gs.flatMap Given.args ++ rest) = .ok r) :
    ∃ d', d.addAll (gs.map Given.setting) = .ok d' ∧ readFrom d' rest = .ok r := by
  induction gs generalizing d with
  | nil => exact ⟨d, rfl, h⟩
  | cons g gs ih =>
    rw [List.flatMap_cons, List.append_assoc] at h
    obtain ⟨d₁, hadd, hrest⟩ := setting_of_readFrom h
    obtain ⟨d', haddAll, hread⟩ := ih hrest
    exact ⟨d', by rw [List.map_cons, Draft.addAll_cons hadd, haddAll], hread⟩

theorem Given.nodup_of_addAll {d d' : Draft} {gs : List Given}
    (h : d.addAll (gs.map Given.setting) = .ok d') : (gs.map (·.setting.option)).Nodup := by
  obtain ⟨hnodup, -⟩ := Draft.exists_addAll_iff.1 ⟨d', h⟩
  rwa [List.map_map] at hnodup

/-! ## No other forms -/

namespace Given

theorem exists_flag {arg : String} {f : Flag} (h : Argument.ofText arg = .flag f) :
    ∃ g : Given, g.args = [arg] ∧ g.setting = .flag f := by
  rcases Argument.isOption_of_ofText h (by simp) (by simp) with hname | ⟨value, hname⟩ | ⟨hne, hknown⟩
  · rw [Argument.ofText_alone hname] at h
    obtain ⟨rfl, -⟩ := Argument.ofName_eq_flag h
    exact ⟨.attached (.flag f), rfl, rfl⟩
  · rw [Argument.ofText_attached hname] at h
    cases (Argument.ofName_eq_flag h).2
  · rw [Argument.ofText_cluster hknown] at h
    exact absurd h (Argument.ofLetters_ne_flag _ f)

theorem exists_attached {arg value : String} {p : Parameter}
    (h : Argument.ofText arg = .parameter p (some value)) :
    ∃ g : Given, g.args = [arg] ∧ g.setting = .parameter p value := by
  rcases Argument.isOption_of_ofText h (by simp) (by simp) with hname | ⟨value', hname⟩ | ⟨hne, hknown⟩
  · rw [Argument.ofText_alone hname] at h
    cases (Argument.ofName_eq_parameter h).2
  · rw [Argument.ofText_attached hname] at h
    obtain ⟨rfl, heq⟩ := Argument.ofName_eq_parameter h
    cases heq
    exact ⟨.attached (.parameter p value), rfl, rfl⟩
  · rw [Argument.ofText_cluster hknown] at h
    obtain ⟨rfl, rest, rfl, ⟨-, heq⟩ | ⟨hrest, heq⟩⟩ := Argument.ofLetters_eq_parameter h
    · cases heq
    · cases heq
      exact ⟨.cluster rest hrest (List.cons_subset.1 hknown).2, rfl, rfl⟩

theorem exists_separate {arg : String} {p : Parameter} (h : Argument.ofText arg = .parameter p none)
    (value : String) : ∃ g : Given, g.args = [arg, value] ∧ g.setting = .parameter p value := by
  rcases Argument.isOption_of_ofText h (by simp) (by simp) with hname | ⟨value', hname⟩ | ⟨hne, hknown⟩
  · rw [Argument.ofText_alone hname] at h
    obtain ⟨rfl, -⟩ := Argument.ofName_eq_parameter h
    exact ⟨.separate p value, rfl, rfl⟩
  · rw [Argument.ofText_attached hname] at h
    cases (Argument.ofName_eq_parameter h).2
  · rw [Argument.ofText_cluster hknown] at h
    obtain ⟨rfl, rest, rfl, ⟨rfl, -⟩ | ⟨-, heq⟩⟩ := Argument.ofLetters_eq_parameter h
    · exact ⟨.letter value, rfl, rfl⟩
    · cases heq

end Given

/-- Options that are read are written in these forms. -/
theorem Reads.exists_given {d d' : Draft} {options : List String} (h : Reads d options d') :
    ∃ gs : List Given, options = gs.flatMap Given.args ∧ d.addAll (gs.map Given.setting) = .ok d' := by
  -- One more option stands in front of those that are written already.
  have hcons : ∀ {d d₁ d' : Draft} {g : Given} {gs : List Given} {args : List String} {s : Setting},
      g.args = args → g.setting = s → d.add s = .ok d₁ →
      d₁.addAll (gs.map Given.setting) = .ok d' →
      args ++ gs.flatMap Given.args = (g :: gs).flatMap Given.args ∧
        d.addAll ((g :: gs).map Given.setting) = .ok d' := by
    rintro d d₁ d' g gs _ _ rfl rfl hadd hrest
    exact ⟨rfl, by rw [List.map_cons, Draft.addAll_cons hadd, hrest]⟩
  induction h with
  | nil d => exact ⟨[], rfl, rfl⟩
  | flag harg hraise _ ih =>
    obtain ⟨gs, rfl, hrest⟩ := ih
    obtain ⟨g, hargs, hsetting⟩ := Given.exists_flag harg
    exact ⟨g :: gs, hcons hargs hsetting hraise hrest⟩
  | attached harg hgive _ ih =>
    obtain ⟨gs, rfl, hrest⟩ := ih
    obtain ⟨g, hargs, hsetting⟩ := Given.exists_attached harg
    exact ⟨g :: gs, hcons hargs hsetting hgive hrest⟩
  | separate harg _ _ hgive _ ih =>
    obtain ⟨gs, rfl, hrest⟩ := ih
    obtain ⟨g, hargs, hsetting⟩ := Given.exists_separate harg _
    exact ⟨g :: gs, hcons hargs hsetting hgive hrest⟩

/-- **Whatever is asked for can be written, and is read back**: each chosen
option as one argument, in any order, two hyphens and the commands. Nothing is
excluded from the values but the empty path. An option that is given twice, in
whatever forms and whatever follows, is never read; and no option has a form
besides these, so in all that is read each option stands once. -/
theorem written_is_read_back (env : Environment) (i : Invocation) :
    (∀ written : List Setting, written.Perm i.settings →
      read env (written.map Setting.text ++ "--" :: i.commands) = .ok (i.line env)) ∧
    (∀ gs : List Given, ¬ (gs.map (·.setting.option)).Nodup →
      ∀ rest line, read env (gs.flatMap Given.args ++ rest) ≠ .ok line) ∧
    (∀ args line, read env args = .ok line →
      ∃ gs : List Given, (gs.map (·.setting.option)).Nodup ∧
        (args = gs.flatMap Given.args ++ line.commands ∨
          args = gs.flatMap Given.args ++ "--" :: line.commands)) := by
  refine ⟨fun written hperm => ?_, fun gs hrepeated rest line h => ?_, fun args line h => ?_⟩
  · obtain ⟨d, hadd, hfinish⟩ := Invocation.exists_addAll_settings hperm
    refine read_eq_ok_iff.2 ⟨d, i.commands, ?_, (hfinish env).symm⟩
    rw [readFrom_settings hadd, readFrom_terminator]
  · obtain ⟨d, commands, hread, -⟩ := read_eq_ok_iff.1 h
    obtain ⟨d', hadd, -⟩ := settings_of_readFrom hread
    exact hrepeated (Given.nodup_of_addAll hadd)
  · obtain ⟨d, commands, hread, rfl⟩ := read_eq_ok_iff.1 h
    obtain ⟨options, hreads, hargs⟩ := readFrom_eq_ok_iff.1 hread
    obtain ⟨gs, rfl, hadd⟩ := hreads.exists_given
    exact ⟨gs, Given.nodup_of_addAll hadd, hargs.imp And.left id⟩

/-- Values and commands that look like options; a path that is given in two forms. -/
theorem written_is_read_back_like_options :
    let env : Environment := ⟨some "k", some "u", none⟩
    let i : Invocation := ⟨some "", none, some "-c", some "--tags=x y", some "", none, false, true,
      ["--dry-run", "--", "-h"], by decide⟩
    read env ["--log-json", "--api-key=", "--host=--tags=x y", "--config=-c", "--namespace=", "--",
      "--dry-run", "--", "-h"] = .ok (i.line env) ∧
    i.line env = ⟨some "", none, some "-c", some "--tags=x y", some ⟨""⟩, some "u", false, true,
      ["--dry-run", "--", "-h"]⟩ ∧
    ∀ rest line, read env ("-c" :: "a" :: "--dry-run" :: "--config=b" :: rest) ≠ .ok line := by
  intro env i
  let written : List Setting := [.flag .logJson, .parameter .apiKey "", .parameter .host "--tags=x y",
    .parameter .config "-c", .parameter .scope ""]
  have htexts : written.map Setting.text =
      ["--log-json", "--api-key=", "--host=--tags=x y", "--config=-c", "--namespace="] := by
    decide +kernel
  let twice : List Given := [.letter "a", .attached (.flag .dryRun), .attached (.parameter .config "b")]
  have hargs : twice.flatMap Given.args = ["-c", "a", "--dry-run", "--config=b"] := by
    decide +kernel
  have hread := (written_is_read_back env i).1 written (by decide)
  have hnever := (written_is_read_back env i).2.1 twice (by decide)
  rw [htexts] at hread
  simp only [hargs] at hnever
  exact ⟨hread, rfl, hnever⟩

end MetricStream.CommandLine
