/-
One more option on a command line.

An option that is not given may be added anywhere among those that are, in
either form. Whatever follows it is read as before, into a draft that is richer
by this option from there on (`Reads.insert`), and so what is read is what was
read before, with the option (`readFrom_insert`).
-/
import MetricStream.Proofs.CommandLine.Written

namespace MetricStream.CommandLine

namespace Draft

/-- One draft has a setting that the other lacks, and nothing else in addition. -/
structure IsWith (r' r : Draft) (s : Setting) : Prop where
  value : ∀ p v, r'.value? p = some v ↔ s = .parameter p v ∨ r.value? p = some v
  flag : ∀ f, f ∈ r'.flags ↔ s = .flag f ∨ f ∈ r.flags

theorem has_addAll {d d' : Draft} {ss : List Setting} (h : d.addAll ss = .ok d') (t : Setting) :
    d'.Has t ↔ (∃ s ∈ ss, s.option = t.option) ∨ d.Has t := by
  induction ss generalizing d with
  | nil =>
    cases h
    simp
  | cons s ss ih =>
    obtain ⟨d₁, hadd, hrest⟩ := addAll_eq_ok h
    simp only [ih hrest, has_add hadd, List.mem_cons, exists_eq_or_imp]
    rw [or_left_comm, or_assoc]

end Draft

/-- Options set something, and are read into any draft that takes it. -/
def Reads.Replays (d r : Draft) (options : List String) : Prop :=
  ∃ ss : List Setting, d.addAll ss = .ok r ∧
    ∀ {d' r' : Draft}, d'.addAll ss = .ok r' → Reads d' options r'

theorem Reads.Replays.cons {d d₁ r : Draft} {s : Setting} {options options' : List String}
    (hadd : d.add s = .ok d₁)
    (hread : ∀ {d d₁ r : Draft}, d.add s = .ok d₁ → Reads d₁ options r → Reads d options' r)
    (h : Replays d₁ r options) : Replays d r options' := by
  obtain ⟨ss, hss, hreplay⟩ := h
  refine ⟨s :: ss, by rw [Draft.addAll_cons hadd, hss], fun h => ?_⟩
  obtain ⟨d₁', hadd', hrest⟩ := Draft.addAll_eq_ok h
  exact hread hadd' (hreplay hrest)

theorem Reads.replays {d r : Draft} {options : List String} (h : Reads d options r) :
    Replays d r options := by
  induction h with
  | nil d =>
    refine ⟨[], rfl, fun h => ?_⟩
    cases h
    exact .nil _
  | @flag _ _ _ _ f _ harg hraise _ ih =>
    exact .cons (s := .flag f) hraise (fun hraise' => .flag harg hraise') ih
  | @attached _ _ _ _ value p _ harg hgive _ ih =>
    exact .cons (s := .parameter p value) hgive (fun hgive' => .attached harg hgive') ih
  | @separate _ _ _ _ value p _ harg hvalue hsurplus hgive _ ih =>
    exact .cons (s := .parameter p value) hgive
      (fun hgive' => .separate harg hvalue hsurplus hgive') ih

theorem Reads.insert {d d' r : Draft} {options : List String} {s : Setting} (h : Reads d options r)
    (hadd : d.add s = .ok d') (hnew : ¬ r.Has s) : ∃ r', Reads d' options r' ∧ r'.IsWith r s := by
  obtain ⟨ss, hss, hreplay⟩ := h.replays
  obtain ⟨hnodup, hall⟩ := Draft.exists_addAll_iff.1 ⟨r, hss⟩
  have hother : ∀ t ∈ ss, s.option ≠ t.option := fun t ht heq =>
    hnew ((Draft.has_addAll hss s).2 (.inl ⟨t, ht, heq.symm⟩))
  have hall' : ∀ t ∈ ss, ¬ d'.Has t ∧ t.Allowed := by
    intro t ht
    rw [Draft.has_add hadd, not_or]
    exact ⟨⟨hother t ht, (hall t ht).1⟩, (hall t ht).2⟩
  obtain ⟨r', hr'⟩ := Draft.exists_addAll_iff.2 ⟨hnodup, hall'⟩
  refine ⟨r', hreplay hr', fun p v => ?_, fun f => ?_⟩
  · rw [Draft.value?_addAll hr', Draft.value?_addAll hss, Draft.value?_add hadd, or_left_comm]
  · rw [Draft.flags_addAll hr', Draft.flags_addAll hss, Draft.flags_add hadd, or_left_comm]

/-! ## Among other options -/

/-- A value that stands apart is none that looks like an option. -/
def Given.Stands : Given → Prop
  | .separate _ value => Argument.ofText value = .word
  | .letter value => Argument.ofText value = .word
  | _ => True

theorem stands_of_readFrom {d : Draft} {g : Given} {rest : List String} {r : Draft × List String}
    (h : readFrom d (g.args ++ rest) = .ok r) : g.Stands := by
  cases g with
  | attached s => trivial
  | separate p value => exact (separate_of_readFrom (Argument.ofText_parameter_alone p) h).1
  | letter value => exact (separate_of_readFrom rfl h).1
  | cluster letters hne hknown => trivial

theorem surplus?_of_readFrom {d : Draft} {args : List String} {r : Draft × List String}
    (h : readFrom d args = .ok r) : surplus? args = none := by
  cases args with
  | nil => rfl
  | cons arg rest =>
    rw [surplus?]
    split
    · next harg =>
      rw [readFrom, harg] at h
      cases h
    · rfl

theorem readFrom_given {d d' : Draft} {g : Given} {rest : List String} (hstands : g.Stands)
    (hadd : d.add g.setting = .ok d') (hrest : surplus? rest = none) :
    readFrom d (g.args ++ rest) = readFrom d' rest := by
  cases g with
  | attached s =>
    change readFrom d (s.text :: rest) = _
    rw [readFrom_setting, show d.add s = .ok d' from hadd]
  | separate p value =>
    change readFrom d (_ :: value :: rest) = _
    rw [readFrom_separate (Argument.ofText_parameter_alone p) hstands hrest,
      show d.give p value = .ok d' from hadd]
  | letter value =>
    change readFrom d (_ :: value :: rest) = _
    rw [readFrom_separate rfl hstands hrest, show d.give .config value = .ok d' from hadd]
  | cluster letters hne hknown =>
    change readFrom d (_ :: rest) = _
    rw [readFrom_attached (Argument.ofText_path hne hknown),
      show d.give .config (String.ofList letters) = .ok d' from hadd]

/-- **An option that is not given may be added anywhere among the options**: the
line is read as before, with this option and the same commands. -/
theorem readFrom_insert {d r : Draft} {before : List Given} {g : Given} {rest commands : List String}
    (h : readFrom d (before.flatMap Given.args ++ rest) = .ok (r, commands)) (hstands : g.Stands)
    (hallowed : g.setting.Allowed) (hnew : ¬ r.Has g.setting) :
    ∃ r', readFrom d (before.flatMap Given.args ++ (g.args ++ rest)) = .ok (r', commands) ∧
      r'.IsWith r g.setting := by
  induction before generalizing d with
  | nil =>
    rw [List.flatMap_nil, List.nil_append] at h ⊢
    obtain ⟨options, hreads, hargs⟩ := readFrom_eq_ok_iff.1 h
    obtain ⟨ss, hss, -⟩ := hreads.replays
    have hfirst : ¬ d.Has g.setting := fun hhas => hnew ((Draft.has_addAll hss _).2 (.inr hhas))
    obtain ⟨d', hadd⟩ := Draft.add_eq_ok_iff.2 ⟨hfirst, hallowed⟩
    obtain ⟨r', hreads', hwith⟩ := hreads.insert hadd hnew
    refine ⟨r', ?_, hwith⟩
    rw [readFrom_given hstands hadd (surplus?_of_readFrom h)]
    exact readFrom_eq_ok_iff.2 ⟨options, hreads', hargs⟩
  | cons b before ih =>
    rw [List.flatMap_cons, List.append_assoc] at h ⊢
    obtain ⟨d₁, hadd, hrest⟩ := setting_of_readFrom h
    obtain ⟨r', hread, hwith⟩ := ih hrest
    refine ⟨r', ?_, hwith⟩
    rw [readFrom_given (stands_of_readFrom h) hadd (surplus?_of_readFrom hread), hread]

end MetricStream.CommandLine
