/-
What a window of writes leaves to deliver, said of the window as a whole.

`record` goes through the points it has and amends one or adds one. `entries`
looks at all writes of a window at once: it lists the series in the order of
their first writes and sums up the writes of each. Recording the writes of a
window one by one comes to the same (`record_entries`), so the points that wait
are never anything but a window's entries.
-/
import Mathlib.Data.List.Induction
import Mathlib.Data.List.Nodup
import MetricStream.Series

namespace MetricStream

/-- The writes of a window to one series, in order. -/
def writesTo (k : SeriesKey) (window : List Write) : List Write := window.filter (·.key = k)

/-- What the writes to one series come to: for a gauge the last value and its
second, for a counter the sum of the values, added up from the left, and the
second of the first. -/
def summary? (k : SeriesKey) : List Write → Option Point
  | [] => none
  | w :: ws =>
    some <| match k.kind with
      | .gauge => ⟨k, (ws.getLastD w).value, (ws.getLastD w).second⟩
      | .count => ⟨k, ws.foldl (fun sum w => sum + w.value) w.value, w.second⟩

/-- The series of a window, in the order of their first writes. -/
def seriesOf (window : List Write) : List SeriesKey := (window.map (·.key)).eraseDups

/-- What a window leaves to deliver: one point for each of its series. -/
def entries (window : List Write) : List Point :=
  (seriesOf window).filterMap fun k => summary? k (writesTo k window)

/-! ## The series of a window -/

theorem mem_seriesOf {k : SeriesKey} {window : List Write} :
    k ∈ seriesOf window ↔ ∃ w ∈ window, w.key = k := by
  rw [seriesOf, List.mem_eraseDups, List.mem_map]

theorem seriesOf_snoc (window : List Write) (w : Write) :
    seriesOf (window ++ [w]) =
      if w.key ∈ seriesOf window then seriesOf window else seriesOf window ++ [w.key] := by
  have hw : [w.key].removeAll (window.map (·.key)) =
      if w.key ∈ window.map (·.key) then [] else [w.key] := by
    simp only [List.removeAll, List.filter_singleton, List.elem_eq_mem]
    by_cases h : w.key ∈ window.map (·.key) <;> simp only [h] <;> rfl
  simp only [seriesOf, List.map_append, List.map_singleton, List.eraseDups_append, hw,
    List.mem_eraseDups]
  split
  · exact List.append_nil _
  · rfl

theorem nodup_seriesOf (window : List Write) : (seriesOf window).Nodup := by
  induction window using List.reverseRecOn with
  | nil => simp [seriesOf]
  | append_singleton window w ih =>
    rw [seriesOf_snoc]
    split
    · exact ih
    · next h =>
      rw [List.nodup_append]
      refine ⟨ih, by simp, ?_⟩
      rintro k hk k' hk' rfl
      exact h (List.mem_singleton.1 hk' ▸ hk)

/-! ## The writes to one series -/

theorem writesTo_append (k : SeriesKey) (early late : List Write) :
    writesTo k (early ++ late) = writesTo k early ++ writesTo k late :=
  List.filter_append early late

theorem writesTo_snoc_self (window : List Write) (w : Write) :
    writesTo w.key (window ++ [w]) = writesTo w.key window ++ [w] := by
  simp [writesTo]

theorem writesTo_snoc_other {k : SeriesKey} (window : List Write) {w : Write} (h : w.key ≠ k) :
    writesTo k (window ++ [w]) = writesTo k window := by
  simp [writesTo, h]

theorem writesTo_eq_nil {k : SeriesKey} {window : List Write} :
    writesTo k window = [] ↔ k ∉ seriesOf window := by
  rw [mem_seriesOf]
  simp [writesTo]

theorem key_of_summary? {k : SeriesKey} {ws : List Write} {p : Point} (h : summary? k ws = some p) :
    p.key = k := by
  rcases ws with _ | ⟨w, ws⟩
  · cases h
  simp only [summary?, Option.some.injEq] at h
  subst h
  split <;> rfl

theorem summary?_eq_none {k : SeriesKey} {ws : List Write} : summary? k ws = none ↔ ws = [] := by
  cases ws <;> simp [summary?]

theorem summary?_single (w : Write) : summary? w.key [w] = some (.ofWrite w) := by
  simp only [summary?, Point.ofWrite]
  split <;> rfl

theorem summary?_snoc {k : SeriesKey} {ws : List Write} (h : ws ≠ []) (w : Write) :
    summary? k (ws ++ [w]) = (summary? k ws).map (·.amend w) := by
  obtain ⟨v, ws, rfl⟩ := List.exists_cons_of_ne_nil h
  cases hk : k.kind <;> simp [summary?, Point.amend, hk]

/-! ## Recording -/

/-- Recording in a list of points that stand for different series, each given
by its series: it amends the point of the write's series, or adds one. -/
theorem record_filterMap {f : SeriesKey → Option Point} (hf : ∀ k p, f k = some p → p.key = k)
    (w : Write) : ∀ {ks : List SeriesKey}, ks.Nodup → (∀ k ∈ ks, (f k).isSome) →
      record w (ks.filterMap f) =
        if w.key ∈ ks then ks.filterMap fun k => if k = w.key then (f k).map (·.amend w) else f k
        else ks.filterMap f ++ [.ofWrite w]
  | [], _, _ => rfl
  | k :: ks, hn, hs => by
    obtain ⟨hk, hn⟩ := List.nodup_cons.1 hn
    obtain ⟨p, hp⟩ := Option.isSome_iff_exists.1 (hs k (by simp))
    have hkey := hf k p hp
    rw [List.filterMap_cons_some hp, record]
    by_cases h : k = w.key
    · -- The series is the first one, and so it is none of the others.
      have hrest : ks.filterMap (fun k => if k = w.key then (f k).map (·.amend w) else f k) =
          ks.filterMap f := by
        refine List.filterMap_congr fun k' hk' => ?_
        rw [if_neg]
        rintro rfl
        exact hk (h ▸ hk')
      rw [if_pos (hkey.trans h), if_pos (by simp [h]), List.filterMap_cons_some (b := p.amend w), hrest]
      rw [if_pos h, hp, Option.map_some]
    · have ih := record_filterMap hf w hn fun k' hk' => hs k' (by simp [hk'])
      rw [if_neg (hkey ▸ h), ih, List.filterMap_cons_some (b := p) (by simp [h, hp])]
      by_cases hm : w.key ∈ ks <;> simp [hm, Ne.symm h]

/-- **Recording a window's writes one by one gives its entries.** -/
theorem record_entries (window : List Write) (w : Write) :
    record w (entries window) = entries (window ++ [w]) := by
  unfold entries
  rw [record_filterMap (fun k p => key_of_summary?) w (nodup_seriesOf window), seriesOf_snoc]
  · split
    · next hm =>
      refine List.filterMap_congr fun k _ => ?_
      split
      · next hk =>
        subst hk
        rw [writesTo_snoc_self, summary?_snoc (mt writesTo_eq_nil.1 (not_not_intro hm))]
      · next hk => rw [writesTo_snoc_other window (Ne.symm hk)]
    · next hm =>
      rw [List.filterMap_append]
      congr 1
      · refine List.filterMap_congr fun k hk => ?_
        rw [writesTo_snoc_other window]
        rintro rfl
        exact hm hk
      · rw [List.filterMap_cons_some (b := .ofWrite w), List.filterMap_nil]
        rw [writesTo_snoc_self, writesTo_eq_nil.2 hm]
        exact summary?_single w
  · intro k hk
    rw [Option.isSome_iff_ne_none, ne_eq, summary?_eq_none, writesTo_eq_nil]
    exact not_not_intro hk

/-! ## One series among others -/

@[simp]
theorem Point.amend_key (p : Point) (w : Write) : (p.amend w).key = p.key := by
  unfold Point.amend
  split <;> rfl

theorem filter_record_self (w : Write) (ps : List Point) :
    (record w ps).filter (·.key = w.key) = record w (ps.filter (·.key = w.key)) := by
  induction ps with
  | nil => simp [record, Point.ofWrite]
  | cons p ps ih => by_cases h : p.key = w.key <;> simp [record, h, ih]

theorem filter_record_other {k : SeriesKey} {w : Write} (h : w.key ≠ k) (ps : List Point) :
    (record w ps).filter (·.key = k) = ps.filter (·.key = k) := by
  induction ps with
  | nil => simp [record, Point.ofWrite, h]
  | cons p ps ih =>
    by_cases hp : p.key = w.key
    · simp [record, hp, h]
    · simp [record, hp, List.filter_cons, ih]

/-- **A window's entries of one series** are what the writes to it come to. -/
theorem filter_entries (k : SeriesKey) (window : List Write) :
    (entries window).filter (·.key = k) = (summary? k (writesTo k window)).toList := by
  induction window using List.reverseRecOn with
  | nil => rfl
  | append_singleton window w ih =>
    rw [← record_entries]
    by_cases h : w.key = k
    · subst h
      rw [filter_record_self, ih, writesTo_snoc_self]
      cases hs : summary? w.key (writesTo w.key window) with
      | none =>
        rw [summary?_eq_none.1 hs]
        exact congrArg Option.toList (summary?_single w).symm
      | some p =>
        rw [summary?_snoc (mt (summary?_eq_none (k := w.key)).2 (by simp [hs])), hs]
        simp [record, key_of_summary? hs]
    · rw [filter_record_other h, ih, writesTo_snoc_other window h]

theorem mem_entries {window : List Write} {p : Point} :
    p ∈ entries window ↔ summary? p.key (writesTo p.key window) = some p := by
  rw [entries, List.mem_filterMap]
  constructor
  · rintro ⟨k, -, h⟩
    rwa [key_of_summary? h]
  · intro h
    refine ⟨p.key, ?_, h⟩
    by_contra hm
    rw [writesTo_eq_nil.2 hm] at h
    cases h

/-- **A gauge's entry** has the value and the second of the last write to it. -/
theorem gauge_entry {window : List Write} {p : Point} (hp : p ∈ entries window)
    (hk : p.key.kind = .gauge) :
    ∃ before w after, window = before ++ w :: after ∧ w.key = p.key ∧
      (∀ v ∈ after, v.key ≠ p.key) ∧ p.value = w.value ∧ p.second = w.second := by
  rw [mem_entries] at hp
  rcases hw : writesTo p.key window with _ | ⟨v, ws⟩
  · rw [hw] at hp
    cases hp
  have hlast : writesTo p.key window = (v :: ws).dropLast ++ [ws.getLastD v] := by
    rw [hw, ← List.getLast_eq_getLastD (List.cons_ne_nil v ws), List.dropLast_append_getLast]
  obtain ⟨start, tail, hsplit, -, htail⟩ := List.filter_eq_append_iff.1 hlast
  obtain ⟨between, after, hbetween, -, hkey, hafter⟩ := List.filter_eq_cons_iff.1 htail
  simp only [hw, summary?, hk, Option.some.injEq] at hp
  refine ⟨start ++ between, ws.getLastD v, after, ?_, by simpa using hkey, ?_,
    (congrArg Point.value hp).symm, (congrArg Point.second hp).symm⟩
  · rw [hsplit, hbetween, List.append_assoc]
  · simpa using List.filter_eq_nil_iff.1 hafter

/-- **A counter's entry** has the sum of the writes to it, added up from the
left, and the second of the first. -/
theorem count_entry {window : List Write} {p : Point} (hp : p ∈ entries window)
    (hk : p.key.kind = .count) :
    ∃ before w after, window = before ++ w :: after ∧ w.key = p.key ∧
      (∀ v ∈ before, v.key ≠ p.key) ∧
      p.value = (writesTo p.key after).foldl (fun sum v => sum + v.value) w.value ∧
      p.second = w.second := by
  rw [mem_entries] at hp
  rcases hw : writesTo p.key window with _ | ⟨w, ws⟩
  · rw [hw] at hp
    cases hp
  obtain ⟨before, after, hsplit, hbefore, hkey, hafter⟩ := List.filter_eq_cons_iff.1 hw
  simp only [hw, summary?, hk, Option.some.injEq] at hp
  rw [← hafter] at hp
  exact ⟨before, w, after, hsplit, by simpa using hkey, by simpa using hbefore,
    (congrArg Point.value hp).symm, (congrArg Point.second hp).symm⟩

theorem keys_entries (window : List Write) : (entries window).map (·.key) = seriesOf window := by
  rw [entries, List.map_filterMap]
  conv_rhs => rw [← List.filterMap_some (l := seriesOf window)]
  refine List.filterMap_congr fun k hk => ?_
  rcases hs : summary? k (writesTo k window) with _ | p
  · exact absurd hk (writesTo_eq_nil.1 (summary?_eq_none.1 hs))
  · simp [key_of_summary? hs]

theorem write_of_entry {window : List Write} {p : Point} (h : p ∈ entries window) :
    ∃ w ∈ window, w.key = p.key := by
  rw [← mem_seriesOf, ← keys_entries]
  exact List.mem_map_of_mem h

theorem exists_entry {window : List Write} {w : Write} (h : w ∈ window) :
    ∃ p ∈ entries window, p.key = w.key := by
  have hk : w.key ∈ seriesOf window := mem_seriesOf.2 ⟨w, h, rfl⟩
  rw [← keys_entries, List.mem_map] at hk
  exact hk

theorem entries_eq_nil {window : List Write} : entries window = [] ↔ window = [] := by
  constructor
  · intro h
    have hs := keys_entries window
    rw [h] at hs
    rcases window with _ | ⟨w, window⟩
    · rfl
    · have hm : w.key ∈ seriesOf (w :: window) := mem_seriesOf.2 ⟨w, by simp, rfl⟩
      rw [← hs] at hm
      cases hm
  · rintro rfl
    rfl

end MetricStream
