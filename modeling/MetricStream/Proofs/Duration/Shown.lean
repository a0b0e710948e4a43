/-
Durations as they are shown.

A duration is shown in the largest unit that it reaches, with as many decimals as it
takes. This is a group of the language, worth exactly the duration, and none of its
digits is past the eighteenth: so what is shown is read back as what it was, up to the
longest duration that can be typed (`shown_reads_back`). Nothing longer is read, so every
pause that a run reports can be typed again.
-/
import MetricStream.Proofs.Duration.Monotone
import MetricStream.Proofs.Interpreter.Report

namespace MetricStream

namespace Duration

/-! ## Decimals -/

theorem exists_zeros (cs : List Char) :
    ∃ n, (cs.reverse.dropWhile (· == '0')).reverse ++ List.replicate n '0' = cs := by
  have hzeros : cs.reverse.takeWhile (· == '0') =
      List.replicate (cs.reverse.takeWhile (· == '0')).length '0' :=
    List.eq_replicate_iff.2 ⟨rfl, fun c hc => by simpa using List.mem_takeWhile_imp hc⟩
  refine ⟨(cs.reverse.takeWhile (· == '0')).length, ?_⟩
  rw [← List.reverse_inj, List.reverse_append, List.reverse_replicate, ← hzeros, List.reverse_reverse,
    List.takeWhile_append_dropWhile]

/-- The digits of a number, filled up to so many places with zeros in front. -/
def filled (places part : ℕ) : List Char :=
  List.replicate (places - (Nat.toDigits 10 part).length) '0' ++ Nat.toDigits 10 part

theorem isDigit_of_mem_filled {places part : ℕ} {c : Char} (h : c ∈ filled places part) :
    c.isDigit = true :=
  (List.mem_append.1 h).elim isDigit_of_mem_zeros
    (Nat.isDigit_of_mem_toDigits (by decide) (by decide))

section

variable {places part : ℕ} (hplaces : 0 < places) (h : part < tenTo places)
include hplaces h

theorem length_filled : (filled places part).length = places := by
  have hle : (Nat.toDigits 10 part).length ≤ places :=
    (Nat.length_toDigits_le_iff (by decide) hplaces).2 h
  rw [filled, List.length_append, List.length_replicate]
  omega

theorem fractionValue_filled : fractionValue (filled places part) = part / tenTo places := by
  rw [fractionValue_eq, length_filled hplaces h, filled, Nat.ofDigitChars_append,
    Nat.ofDigitChars_replicate_zero, Nat.mul_zero, Nat.ofDigitChars_toDigits (by decide) (by decide)]

end

theorem exists_fraction {places part : ℕ} (h : part < tenTo places) :
    ∃ fraction : Option (List Char), decimals places part = pointed fraction ∧
      (∀ c ∈ fraction.getD [], c.isDigit = true) ∧ (fraction.getD []).length ≤ places ∧
      fractionValue (fraction.getD []) = part / tenTo places := by
  rcases Nat.eq_zero_or_pos places with rfl | hplaces
  · obtain rfl : part = 0 := Nat.lt_one_iff.1 h
    exact ⟨none, by decide, by simp, by simp, by simp [fractionValue]⟩
  have hlength := length_filled hplaces h
  have hvalue := fractionValue_filled hplaces h
  have hdigits : ∀ c ∈ filled places part, c.isDigit = true := fun c => isDigit_of_mem_filled
  rw [decimals, ← filled]
  generalize filled places part = digits at *
  obtain ⟨n, hn⟩ := exists_zeros digits
  generalize (digits.reverse.dropWhile (· == '0')).reverse = kept at *
  subst hn
  rw [fractionValue_append_zeros] at hvalue
  rw [List.length_append] at hlength
  have hkept : ∀ c ∈ kept, c.isDigit = true := fun c hc => hdigits c (List.mem_append_left _ hc)
  by_cases hnil : kept = []
  · subst hnil
    exact ⟨none, by simp [pointed], by simp, by simp, hvalue⟩
  · exact ⟨some kept, by simp [hnil, pointed], hkept, by simp; omega, hvalue⟩

/-! ## The text of a duration -/

theorem exists_term_inUnits (d : Duration) {places : ℕ} {u : TimeUnit} {name : List Char}
    (hscale : u.nanos = tenTo places) (hplaces : places ≤ fractionDigits) (hname : name ∈ u.names) :
    ∃ t : Term, t.text = d.inUnits places name ∧ t.value * t.unit.nanos = d.nanos ∧
      (t.fraction.getD []).length ≤ fractionDigits := by
  have hpos : (tenTo places : ℚ) ≠ 0 := by
    rw [cast_tenTo]
    positivity
  obtain ⟨fraction, htext, hdigits, hlength, hvalue⟩ :=
    exists_fraction (Nat.mod_lt d.nanos (Nat.pow_pos (by decide)))
  have hwhole : Nat.toDigits 10 (d.nanos / tenTo places) ≠ [] :=
    List.ne_nil_of_length_pos Nat.length_toDigits_pos
  refine ⟨⟨⟨Nat.toDigits 10 (d.nanos / tenTo places), fraction, u, name,
    fun c hc => Nat.isDigit_of_mem_toDigits (by decide) (by decide) hc, hdigits, hname⟩,
    .inl hwhole⟩, ?_, ?_, hlength.trans hplaces⟩
  · rw [inUnits, htext, List.append_assoc]
    rfl
  · have hsplit : ((d.nanos : ℕ) : ℚ) =
        tenTo places * (d.nanos / tenTo places : ℕ) + (d.nanos % tenTo places : ℕ) := by
      exact_mod_cast (Nat.div_add_mod d.nanos (tenTo places)).symm
    rw [Spelling.value, hvalue, Nat.ofDigitChars_toDigits (by decide) (by decide), hscale, hsplit]
    field_simp

/-- **What is shown is a group** that is worth the duration. -/
theorem exists_term_text (d : Duration) :
    ∃ t : Term, t.text = d.text ∧ t.value * t.unit.nanos = d.nanos ∧
      (t.fraction.getD []).length ≤ fractionDigits := by
  unfold text
  split_ifs
  · exact d.exists_term_inUnits (u := .second) rfl (by decide) (by decide)
  · exact d.exists_term_inUnits (u := .millisecond) rfl (by decide) (by decide)
  · exact d.exists_term_inUnits (u := .microsecond) rfl (by decide) (by decide)
  · exact d.exists_term_inUnits (u := .nanosecond) rfl (by decide) (by decide)

theorem Term.read_exact (t : Term) {d : Duration} (hvalue : t.value * t.unit.nanos = d.nanos)
    (hlength : (t.fraction.getD []).length ≤ fractionDigits) (hle : d.nanos ≤ maxNanos) :
    read (String.ofList t.text) = .ok d := by
  have hnanos : t.shortened.nanos = d.nanos := by
    rw [(t.shortened_nanos_eq_iff).2 (t.settled_of_length hlength), Spelling.nanos, hvalue,
      Nat.floor_natCast]
  rw [t.groups.read_eq_ok, t.readNanos_alone, hnanos]
  exact ⟨hle, rfl⟩

theorem read_toString {d : Duration} (h : d.nanos ≤ maxNanos) : read (toString d) = .ok d := by
  obtain ⟨t, htext, hvalue, hlength⟩ := d.exists_term_text
  have hshown : toString d = String.ofList t.text := congrArg String.ofList htext.symm
  rw [hshown, t.read_exact hvalue hlength h]

/-- What is read is never longer than the longest duration. -/
theorem nanos_le_of_read {typed : String} {d : Duration} (h : read typed = .ok d) :
    d.nanos ≤ maxNanos := by
  have hsome : ∃ e : Expression, e.text = typed.toList := by
    by_contra hno
    rw [read_eq_malformed.2 ⟨rfl, hno⟩] at h
    cases h
  obtain ⟨e, he⟩ := hsome
  have htyped : typed = String.ofList e.text := by rw [he, String.ofList_toList]
  rw [htyped, e.read_text] at h
  split at h
  · next hle =>
    cases h
    split
    · exact Nat.zero_le _
    · exact hle
  · cases h

end Duration

/-! ## Pauses that a run reports -/

/-- The only event that tells of a duration is that of a pause. -/
theorem Command.sleep_of_fields {c : Command} {shown : String}
    (h : ("duration", Log.FieldValue.text shown) ∈ c.event.fields) :
    ∃ d, c = .sleep d ∧ shown = toString d := by
  cases c <;> simp [Command.event, Log.Event.fields, Log.Event.verb?, Log.Event.details] at h
  case sleep d => exact ⟨d, rfl, h⟩

theorem read_of_readPause {typed : String} {d : Duration} (h : readPause typed = .ok d) :
    Duration.read typed = .ok d := by
  unfold readPause at h
  split at h
  · cases h
  · next hread => exact Except.ok.inj h ▸ hread

theorem typed_of_events {σ : Type} {ctx : Context} {client : Client σ} {tokens : List String}
    {w : World σ} {event : Log.Event} (hevent : event ∈ (interpret ctx client tokens w).events)
    {shown : String} (hshown : ("duration", Log.FieldValue.text shown) ∈ event.fields) :
    ∃ typed ∈ tokens, ∃ d, Duration.read typed = .ok d ∧ event = .sleep d ∧ shown = toString d := by
  have hcut := cut_spec tokens
  rw [interpret_eq_follow hcut, events_follow] at hevent
  obtain ⟨c, hc, rfl⟩ := List.mem_map.1 hevent
  obtain ⟨d, rfl, rfl⟩ := Command.sleep_of_fields hshown
  obtain ⟨p, hp, hcommand⟩ := command_of_carriedOut hc
  have htokens : p.tokens ⊆ tokens := by
    rw [hcut.tokens_eq]
    exact fun token htoken => List.mem_append_left _ (List.mem_flatMap.2 ⟨p, hp, htoken⟩)
  cases Phrase.spells_of_command hcommand with
  | sleep hread =>
    rename_i typed pause
    exact ⟨pause, htokens (by simp [Phrase.tokens]), d, read_of_readPause hread, rfl, rfl⟩

namespace Duration

/-- **What is shown can be typed.** The text of a duration up to the longest one is
read as that duration, and nothing longer is ever read. So what any run reports of a
pause is read as the pause, which is one that was typed. -/
theorem shown_reads_back :
    (∀ d : Duration, d.nanos ≤ maxNanos → read (toString d) = .ok d) ∧
    (∀ typed d, read typed = .ok d → d.nanos ≤ maxNanos ∧ read (toString d) = .ok d) ∧
    (∀ {σ : Type} (ctx : Context) (client : Client σ) (tokens : List String) (w : World σ),
      ∀ event ∈ (interpret ctx client tokens w).events,
      ∀ shown, ("duration", Log.FieldValue.text shown) ∈ event.fields →
        ∃ d, event = .sleep d ∧ read shown = .ok d ∧ ∃ typed ∈ tokens, read typed = .ok d) := by
  refine ⟨fun d => read_toString, fun typed d hread => ?_, ?_⟩
  · have hle := nanos_le_of_read hread
    exact ⟨hle, read_toString hle⟩
  · intro σ ctx client tokens w event hevent shown hshown
    obtain ⟨typed, htyped, d, hread, rfl, rfl⟩ := typed_of_events hevent hshown
    exact ⟨d, rfl, read_toString (nanos_le_of_read hread), typed, htyped, hread⟩

/-- The longest duration, and a pause of three groups that a run reports in
microseconds. -/
theorem shown_reads_back_longest :
    let longest : Duration := ⟨maxNanos⟩
    let client := Recorder.client (.byKind false false)
    let tokens := ["incr", "hits", "s", ".001ms.4us100ns"]
    let run := interpret ⟨.ofText "", []⟩ client tokens ⟨Recorder.start, .ofSeconds 10⟩
    let event : Log.Event := .sleep ⟨1500⟩
    longest.nanos ≤ maxNanos ∧ toString longest = "9223372036.854775807s" ∧
    read "9223372036.854775807s" = .ok longest ∧
    event ∈ run.events ∧ ("duration", .text "1.5µs") ∈ event.fields ∧ read "1.5µs" = .ok ⟨1500⟩ := by
  intro longest client tokens run event
  obtain ⟨hshown, -, hrun⟩ := shown_reads_back
  have htext : toString longest = "9223372036.854775807s" := by decide +kernel
  have hevent : event ∈ run.events := by decide +kernel
  have hfield : ("duration", Log.FieldValue.text "1.5µs") ∈ event.fields := by decide +kernel
  obtain ⟨d, hd, hread, -⟩ := hrun _ client tokens ⟨Recorder.start, .ofSeconds 10⟩ event hevent _ hfield
  obtain rfl : (⟨1500⟩ : Duration) = d := Log.Event.sleep.inj hd
  exact ⟨Nat.le_refl _, htext, htext ▸ hshown longest (Nat.le_refl _), hevent, hfield, hread⟩

end Duration

end MetricStream
