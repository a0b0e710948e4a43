/-
Which windows leave finite values, and no others.

A value that is not finite is refused, so every value of a window is finite,
and so is a gauge's last. A counter's sum is checked nowhere. Its point is
finite exactly if the window's values can be added up in the finite range
(`finite_iff_windows_fit`), and where they cannot, `null` is submitted.
-/
import MetricStream.Proofs.Binary64.Overflow
import MetricStream.Proofs.Series.Ledger

namespace MetricStream

open SeriesClient (client)

/-- A counter's values can be added up in the finite range. -/
def CounterFits : List Write → Prop
  | [] => True
  | w :: ws => Binary64.SumsFit w.value (ws.map (·.value))

instance : ∀ ws : List Write, Decidable (CounterFits ws)
  | [] => .isTrue trivial
  | w :: ws => inferInstanceAs (Decidable (Binary64.SumsFit w.value (ws.map (·.value))))

/-- Every counter of the window fits. -/
def WindowFits (window : List Write) : Prop :=
  ∀ k ∈ seriesOf window, k.kind = .count → CounterFits (writesTo k window)

instance (window : List Write) : Decidable (WindowFits window) :=
  inferInstanceAs (Decidable (∀ k ∈ seriesOf window, k.kind = .count → CounterFits (writesTo k window)))

/-! ## One window -/

/-- The values of a window are finite. -/
def AllFinite (window : List Write) : Prop := ∀ w ∈ window, w.value.isFinite = true

theorem CounterFits.of_append {ws more : List Write} (h : CounterFits (ws ++ more)) :
    CounterFits ws := by
  cases ws with
  | nil => trivial
  | cons w ws =>
    rw [List.cons_append, CounterFits, List.map_append] at h
    exact h.of_append

theorem WindowFits.of_append {window more : List Write} (h : WindowFits (window ++ more)) :
    WindowFits window := by
  intro k hk hcount
  obtain ⟨w, hw, hkey⟩ := mem_seriesOf.1 hk
  have hfits := h k (mem_seriesOf.2 ⟨w, List.mem_append_left _ hw, hkey⟩) hcount
  rw [writesTo_append] at hfits
  exact hfits.of_append

/-- A gauge's point is finite, and a counter's exactly if its values fit. -/
theorem isFinite_summary? {k : SeriesKey} {ws : List Write} (hws : AllFinite ws) {p : Point}
    (h : summary? k ws = some p) :
    p.value.isFinite = true ↔ (k.kind = .count → CounterFits ws) := by
  rcases ws with _ | ⟨w, ws⟩
  · cases h
  have hw : w.value.isFinite = true := hws w (by simp)
  simp only [summary?, Option.some.injEq] at h
  subst h
  cases hk : k.kind with
  | gauge =>
    simp only [reduceCtorEq, false_implies, iff_true]
    exact hws _ List.getLastD_mem_cons
  | count =>
    have hrest : ∀ x ∈ ws.map (·.value), x.isFinite = true := by
      simp only [List.mem_map, forall_exists_index, and_imp]
      rintro _ v hv rfl
      exact hws v (by simp [hv])
    simp only [CounterFits, true_implies, ← Binary64.isFinite_foldl_iff hrest hw, List.foldl_map]

theorem entries_finite_iff {window : List Write} (hw : AllFinite window) :
    (∀ p ∈ entries window, p.value.isFinite = true) ↔ WindowFits window := by
  have hws (k : SeriesKey) : AllFinite (writesTo k window) :=
    fun w hw' => hw w (List.mem_of_mem_filter hw')
  constructor
  · intro h k hk
    obtain ⟨p, hp, rfl⟩ := List.mem_map.1 (keys_entries window ▸ hk)
    exact (isFinite_summary? (hws p.key) (mem_entries.1 hp)).1 (h p hp)
  · intro h p hp
    refine (isFinite_summary? (hws p.key) (mem_entries.1 hp)).2 (h p.key ?_)
    rw [← keys_entries]
    exact List.mem_map_of_mem hp

/-! ## The client -/

theorem SeriesClient.accepted_finite {t : Turn} {s : SeriesClient} {w : Write}
    (h : Exchange.accepted? ⟨t, (client.answer t.now t.call s).2⟩ = some w) :
    w.value.isFinite = true := by
  cases hw : t.write? with
  | none =>
    rw [Exchange.accepted?_eq_none (x := ⟨t, _⟩) hw] at h
    cases h
  | some v =>
    have ha := answer_write hw s
    split at ha
    · simp [Exchange.accepted?, ha] at h
    split at ha
    · next hv =>
      obtain rfl : v = w := by simpa [Exchange.accepted?, ha, hw] using h
      exact hv
    · simp [Exchange.accepted?, ha] at h

theorem SeriesClient.allFinite_accepted (turns : List Turn) (s : SeriesClient) :
    AllFinite ((client.exchanges turns s).filterMap Exchange.accepted?) := by
  induction turns generalizing s with
  | nil => simp [AllFinite, Client.exchanges]
  | cons t turns ih =>
    intro w hw
    rw [Client.exchanges] at hw
    obtain ⟨x, hx, hxw⟩ := List.mem_filterMap.1 hw
    rcases List.mem_cons.1 hx with rfl | hx
    · exact accepted_finite hxw
    · exact ih _ w (List.mem_filterMap.2 ⟨x, hx, hxw⟩)

theorem allFinite_windows {turns : List Turn} {s : SeriesClient} {window : List Write}
    (h : window ∈ (Ledger.of (client.exchanges turns s)).submitted ++
      [(Ledger.of (client.exchanges turns s)).window]) : AllFinite window := by
  intro w hw
  refine SeriesClient.allFinite_accepted turns s w ?_
  rw [← Ledger.writes_of, List.mem_append, List.mem_flatten]
  rcases List.mem_append.1 h with h | h
  · exact .inl ⟨window, h, hw⟩
  · exact .inr (List.mem_singleton.1 h ▸ hw)

theorem Json.ofBinary64_eq_null {x : Binary64} : Json.ofBinary64 x = .null ↔ x.isFinite = false := by
  unfold Json.ofBinary64
  split <;> simp_all

/-- **Which values are finite.** In a run of calls on a new client every point
that ever waits and every point that is submitted is finite exactly if in each
window the values of every counter can be added up in the finite range: no
exact sum on the way comes within `2 ^ 970` of `2 ^ 1024`. No `null` is
submitted exactly if the same holds of the windows that were submitted. -/
theorem finite_iff_windows_fit {host : String} {key : ApiKey} {options : DeliveryOptions}
    {backend : Delivery.Backend} {s₀ : SeriesClient}
    (hnew : SeriesClient.create host key options backend = .ok s₀) (turns : List Turn) :
    let l := Ledger.of (client.exchanges turns s₀)
    ((∀ early late, turns = early ++ late →
        ∀ p ∈ (client.after early s₀).pending, p.value.isFinite = true) ∧
      (∀ a ∈ SeriesClient.attempts turns s₀, ∀ p ∈ a.points, p.value.isFinite = true) ↔
      ∀ window ∈ l.submitted ++ [l.window], WindowFits window) ∧
    ((∀ a ∈ SeriesClient.attempts turns s₀, ∀ p ∈ a.points, Json.ofBinary64 p.value ≠ .null) ↔
      ∀ window ∈ l.submitted, WindowFits window) := by
  intro l
  obtain ⟨hp, hc⟩ := SeriesClient.create_fresh hnew
  have hsubmitted : (∀ a ∈ SeriesClient.attempts turns s₀, ∀ p ∈ a.points, p.value.isFinite = true) ↔
      ∀ window ∈ l.submitted, WindowFits window := by
    have hpoints := Ledger.points_attempts hp hc turns
    calc
      _ ↔ ∀ points ∈ (SeriesClient.attempts turns s₀).map (·.points),
          ∀ p ∈ points, p.value.isFinite = true := List.forall_mem_map.symm
      _ ↔ ∀ window ∈ l.submitted, ∀ p ∈ entries window, p.value.isFinite = true := by
        rw [hpoints, List.forall_mem_map]
      _ ↔ ∀ window ∈ l.submitted, WindowFits window :=
        forall₂_congr fun window h =>
          entries_finite_iff (allFinite_windows (List.mem_append_left _ h))
  have hpending (early : List Turn) : (∀ p ∈ (client.after early s₀).pending, p.value.isFinite = true) ↔
      WindowFits (Ledger.of (client.exchanges early s₀)).window := by
    rw [(Ledger.agrees_of hp hc early).pending]
    exact entries_finite_iff
      (allFinite_windows (List.mem_append_right _ (List.mem_singleton_self _)))
  constructor
  · rw [hsubmitted, List.forall_mem_append, List.forall_mem_singleton, and_comm]
    refine and_congr_right fun hfits => ⟨fun h => ?_, ?_⟩
    · exact (hpending turns).1 (h turns [] (List.append_nil _).symm)
    · rintro hopen early late rfl
      -- What waits now is the beginning of a window that is submitted or open at last.
      obtain ⟨more, hmore⟩ := Ledger.window_persists
        (client.exchanges late (client.after early s₀)) (Ledger.of (client.exchanges early s₀))
      rw [← Ledger.of_append] at hmore
      have hfit : WindowFits ((Ledger.of (client.exchanges early s₀)).window ++ more) := by
        rcases List.mem_append.1 hmore with h | h
        · exact hfits _ h
        · exact List.mem_singleton.1 h ▸ hopen
      exact (hpending early).2 hfit.of_append
  · rw [← hsubmitted]
    simp only [ne_eq, Json.ofBinary64_eq_null, Bool.not_eq_false]

/-- The greatest number, taken back before it is added again. -/
theorem finite_iff_windows_fit_balanced :
    let great : Binary64 := .ofRatio false (Binary64.limit - twoTo 2045) 1
    let options : DeliveryOptions := ⟨"http://127.0.0.1:47125", .ofMillis 5000⟩
    let backend : Delivery.Backend := .plain "127.0.0.1" 47125 fun _ => .answered 202 []
    let turns : List Turn :=
      [⟨.ofSeconds 10, .count "x" great []⟩, ⟨.ofSeconds 10, .count "x" (-great) []⟩,
        ⟨.ofSeconds 11, .count "x" great []⟩, ⟨.ofSeconds 12, .flush⟩,
        ⟨.ofSeconds 13, .count "x" great []⟩]
    ∃ s₀ : SeriesClient, SeriesClient.create "web-01" ⟨"secret"⟩ options backend = .ok s₀ ∧
      (∀ early late, turns = early ++ late →
        ∀ p ∈ (client.after early s₀).pending, p.value.isFinite = true) ∧
      (∀ a ∈ SeriesClient.attempts turns s₀, ∀ p ∈ a.points, p.value.isFinite = true) ∧
      (client.after turns s₀).backend.received.map (·.body) =
        ["\x7b\"series\":[\x7b\"metric\":\"x\",\"type\":\"count\"," ++
          "\"points\":[[10,1.7976931348623157e+308]],\"host\":\"web-01\",\"tags\":[]\x7d]\x7d"] := by
  intro great options backend turns
  have hnew : SeriesClient.create "web-01" ⟨"secret"⟩ options backend =
      .ok (.fresh "web-01" options backend ⟨"secret"⟩) :=
    SeriesClient.create_nonblank _ _ _ (by decide)
  obtain ⟨hpending, hsubmitted⟩ := (finite_iff_windows_fit hnew turns).1.2 (by decide +kernel)
  exact ⟨_, hnew, hpending, hsubmitted, by decide +kernel⟩

/-- The greatest number twice: each is accepted, and the sum is infinite. -/
theorem infinite_sum_is_submitted :
    let great : Binary64 := .ofRatio false (Binary64.limit - twoTo 2045) 1
    let backend : Delivery.Backend := .plain "127.0.0.1" 47125 fun _ => .answered 202 []
    let turns : List Turn :=
      [⟨.ofSeconds 1700000000, .count "x" great []⟩, ⟨.ofSeconds 1700000000, .count "x" great []⟩]
    let s₀ : SeriesClient :=
      ⟨"web-01", ⟨"secret"⟩, SeriesClient.seriesAddress "http://127.0.0.1:47125", [], false, backend⟩
    SeriesClient.create "web-01" ⟨"secret"⟩ ⟨"http://127.0.0.1:47125", .ofMillis 5000⟩ backend = .ok s₀ ∧
      great.isFinite = true ∧
      ¬ (∀ p ∈ (client.after turns s₀).pending, p.value.isFinite = true) ∧
      (client.after (turns ++ [⟨.ofSeconds 1700000000, .flush⟩]) s₀).backend.received.map (·.body) =
        ["\x7b\"series\":[\x7b\"metric\":\"x\",\"type\":\"count\",\"points\":[[1700000000,null]]," ++
          "\"host\":\"web-01\",\"tags\":[]\x7d]\x7d"] := by
  intro great backend turns s₀
  refine ⟨if_neg (by decide), ?_, ?_, ?_⟩
  · decide +kernel
  · decide +kernel
  · decide +kernel

end MetricStream
