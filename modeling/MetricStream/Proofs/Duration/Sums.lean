/-
Durations written one after the other.

A text of groups is read as their sum, or is out of range. Two such texts in a row
are again one, for no group goes on past the end of the first: a unit ends it, and
the second starts with a digit or a point. So what the two are read as adds up, and
is out of range if one of them is or if the sum is (`read_append_adds`); and the
groups of a text can be put in any order.
-/
import MetricStream.Proofs.Duration.Checked

namespace MetricStream

namespace Duration

/-- The text is these groups in a row, one at least, and has no sign. -/
structure Groups (text : String) (ts : List Term) : Prop where
  ne_nil : ts ≠ []
  text_eq : text.toList = ts.flatMap (·.text)

/-- The text is one or more groups. -/
def MadeOfGroups (text : String) : Prop := ∃ ts, Groups text ts

namespace Expression

/-- The groups as an expression without a sign. -/
def ofTerms (ts : List Term) : Expression := ⟨none, ts⟩

theorem readNanos_append (ts us : List Term) :
    (ofTerms (ts ++ us)).readNanos = (ofTerms ts).readNanos + (ofTerms us).readNanos := by
  rw [readNanos, ofTerms, List.map_append, List.sum_append]
  rfl

theorem readNanos_perm {ts us : List Term} (h : ts.Perm us) :
    (ofTerms ts).readNanos = (ofTerms us).readNanos :=
  (h.map _).sum_nat

end Expression

open Expression (ofTerms)

namespace Groups

theorem append {a b : String} {ts us : List Term} (ha : Groups a ts) (hb : Groups b us) :
    Groups (a ++ b) (ts ++ us) where
  ne_nil := List.append_ne_nil_of_left_ne_nil ha.ne_nil us
  text_eq := by rw [String.toList_append, ha.text_eq, hb.text_eq, List.flatMap_append]

variable {text : String} {ts : List Term}

theorem eq_text (h : Groups text ts) : text = String.ofList (ofTerms ts).text := by
  have hbody : (ofTerms ts).body = text.toList := by
    rw [h.text_eq]
    exact Expression.body_of_ne_nil h.ne_nil
  rw [Expression.text, hbody]
  exact String.ofList_toList.symm

/-- **A text of groups is read as their sum.** -/
theorem read_eq (h : Groups text ts) :
    read text =
      if (ofTerms ts).readNanos ≤ maxNanos then .ok ⟨(ofTerms ts).readNanos⟩
      else .error (.outOfRange text) := by
  conv_lhs => rw [h.eq_text, Expression.read_text]
  rw [← h.eq_text]
  rfl

theorem read_eq_ok (h : Groups text ts) {d : Duration} :
    read text = .ok d ↔ (ofTerms ts).readNanos ≤ maxNanos ∧ d = ⟨(ofTerms ts).readNanos⟩ := by
  rw [h.read_eq]
  split
  · next hle => simp [hle, eq_comm]
  · next hfar => simp [hfar]

theorem read_eq_outOfRange (h : Groups text ts) :
    read text = .error (.outOfRange text) ↔ maxNanos < (ofTerms ts).readNanos := by
  rw [h.read_eq]
  split
  · next hle => simp [Nat.not_lt.2 hle]
  · next hfar => simp [Nat.lt_of_not_le hfar]

end Groups

/-- **Durations add up.** Of two texts that are groups and have no sign, written
one right after the other, the whole is read as the sum of what they are read as
if both can be read and the sum is in range, and otherwise the whole is out of
range. The order of groups never matters. -/
theorem read_append_adds :
    (∀ a b, MadeOfGroups a → MadeOfGroups b →
      (∀ d e, read a = .ok d → read b = .ok e → d.nanos + e.nanos ≤ maxNanos →
        read (a ++ b) = .ok ⟨d.nanos + e.nanos⟩) ∧
      ((¬ ∃ d e, read a = .ok d ∧ read b = .ok e ∧ d.nanos + e.nanos ≤ maxNanos) →
        read (a ++ b) = .error (.outOfRange (a ++ b)))) ∧
    (∀ a b ts us, Groups a ts → Groups b us → ts.Perm us →
      (∀ d, read a = .ok d ↔ read b = .ok d) ∧
      (read a = .error (.outOfRange a) ↔ read b = .error (.outOfRange b))) := by
  constructor
  · rintro a b ⟨ts, ha⟩ ⟨us, hb⟩
    have htotal := Expression.readNanos_append ts us
    constructor
    · intro d e hd he hle
      obtain ⟨-, rfl⟩ := ha.read_eq_ok.1 hd
      obtain ⟨-, rfl⟩ := hb.read_eq_ok.1 he
      rw [← htotal] at hle ⊢
      exact (ha.append hb).read_eq_ok.2 ⟨hle, rfl⟩
    · intro hno
      rw [(ha.append hb).read_eq_outOfRange, htotal]
      by_contra hle
      -- Were the sum in range, each of the two would be.
      have hd := ha.read_eq_ok.2 ⟨show (ofTerms ts).readNanos ≤ maxNanos by omega, rfl⟩
      have he := hb.read_eq_ok.2 ⟨show (ofTerms us).readNanos ≤ maxNanos by omega, rfl⟩
      exact hno ⟨_, _, hd, he, Nat.le_of_not_lt hle⟩
  · intro a b ts us ha hb hperm
    have htotal := Expression.readNanos_perm hperm
    refine ⟨fun d => ?_, ?_⟩
    · rw [ha.read_eq_ok, hb.read_eq_ok, htotal]
    · rw [ha.read_eq_outOfRange, hb.read_eq_outOfRange, htotal]

/-- The longest duration in two parts, one nanosecond more, and groups turned
around. -/
theorem read_append_adds_longest :
    let hours : Term := ⟨⟨"2562047".toList, none, .hour, ['h'], by simp, by simp, by decide⟩, by decide⟩
    let minutes : Term := ⟨⟨"47".toList, none, .minute, ['m'], by simp, by simp, by decide⟩, by decide⟩
    let last : Term :=
      ⟨⟨"16".toList, some "854775807".toList, .second, ['s'], by simp, by simp, by decide⟩, by decide⟩
    let next : Term :=
      ⟨⟨"16".toList, some "854775808".toList, .second, ['s'], by simp, by simp, by decide⟩, by decide⟩
    Groups "2562047h47m" [hours, minutes] ∧ Groups "16.854775807s" [last] ∧
    Groups "16.854775808s" [next] ∧ Groups "47m2562047h" [minutes, hours] ∧
    read ("2562047h47m" ++ "16.854775807s") = .ok ⟨maxNanos⟩ ∧
    read ("2562047h47m" ++ "16.854775808s") = .error (.outOfRange "2562047h47m16.854775808s") ∧
    read "47m2562047h" = .ok ⟨9223372020000000000⟩ := by
  intro hours minutes last next
  have hmain : Groups "2562047h47m" [hours, minutes] := ⟨by simp, by decide⟩
  have hlast : Groups "16.854775807s" [last] := ⟨by simp, by decide⟩
  have hnext : Groups "16.854775808s" [next] := ⟨by simp, by decide⟩
  have hturned : Groups "47m2562047h" [minutes, hours] := ⟨by simp, by decide⟩
  have hread : read "2562047h47m" = .ok ⟨9223372020000000000⟩ := by decide +kernel
  have hreadLast : read "16.854775807s" = .ok ⟨16854775807⟩ := by decide +kernel
  have hreadNext : read "16.854775808s" = .ok ⟨16854775808⟩ := by decide +kernel
  obtain ⟨hadds, horder⟩ := read_append_adds
  refine ⟨hmain, hlast, hnext, hturned, ?_, ?_, ?_⟩
  · exact (hadds _ _ ⟨_, hmain⟩ ⟨_, hlast⟩).1 _ _ hread hreadLast (by decide)
  · refine (hadds _ _ ⟨_, hmain⟩ ⟨_, hnext⟩).2 ?_
    rintro ⟨d, e, hd, he, hle⟩
    rw [hread] at hd
    rw [hreadNext] at he
    cases hd
    cases he
    exact absurd hle (by decide)
  · exact ((horder _ _ _ _ hmain hturned (List.Perm.swap _ _ _)).1 _).1 hread

end Duration

end MetricStream
