/-
Tables, an entry at a time.

Each table of the configuration is read by one function that takes an entry at a
time. What it accepts does not depend on the entries before, so reading succeeds
exactly if each entry is of the table's shape (`exists_readEntries_iff`). An
entry sets the part of its own key and no other (`Sets`), so where no key stands
twice each part is the value of its key (`Sets.fieldAt`, `Sets.fieldAt_within`).
-/
import Mathlib.Data.List.Nodup
import MetricStream.Config
import MetricStream.Proofs.Toml.Keys

namespace MetricStream.Config

open Toml (Value Entries)

/-! ## What a table must be -/

def IsString (v : Value) : Prop := ∃ s, v = .string s

def IsBoolean (v : Value) : Prop := ∃ b, v = .boolean b

/-- A natural number of 64 bits. -/
def IsNatural (v : Value) : Prop := ∃ n : Nat, n < naturalLimit ∧ v = .integer n

/-- The keys that a table may have, each with what its value must be. -/
abbrev Shape := List (String × (Value → Prop))

/-- The key is of the shape, and the value is as it calls for. -/
def Shape.Admits (shape : Shape) (key : String) (v : Value) : Prop :=
  ∃ p ∈ shape, p.1 = key ∧ p.2 v

/-- Every entry is admitted. -/
def Shape.Fits (shape : Shape) (entries : Entries) : Prop :=
  ∀ e ∈ entries, shape.Admits e.1 e.2

/-- A table of a shape. -/
def IsTable (shape : Shape) (v : Value) : Prop := ∃ es, v = .table es ∧ shape.Fits es

/-! ## What a table says -/

/-- The value stands in the document under a key, or under a key of the table
that stands there. -/
def At (entries : Entries) : List String → Value → Prop
  | [], _ => False
  | [key], v => (key, v) ∈ entries
  | key :: path, v => ∃ es, (key, .table es) ∈ entries ∧ At es path v

/-- The field is the value at its place, and absent where nothing stands there. -/
def FieldAt {β : Type} (entries : Entries) (path : List String) (wrap : β → Value)
    (field : Option β) : Prop :=
  ∀ v, At entries path v ↔ ∃ x, field = some x ∧ v = wrap x

/-! ## Entries one by one -/

section

variable {α β : Type} {put : α → String → Value → Except SchemaError α} {entries : Entries}
  {start s : α}

theorem exists_foldlM_iff {fits : String → Value → Prop}
    (h : ∀ e ∈ entries, ∀ s, (∃ s', put s e.1 e.2 = .ok s') ↔ fits e.1 e.2) (s : α) :
    (∃ s', entries.foldlM (fun s e => put s e.1 e.2) s = .ok s') ↔ ∀ e ∈ entries, fits e.1 e.2 := by
  induction entries generalizing s with
  | nil => exact ⟨fun _ => List.forall_mem_nil _, fun _ => ⟨s, rfl⟩⟩
  | cons e entries ih =>
    rw [List.forall_mem_cons] at h ⊢
    rw [List.foldlM_cons, ← h.1 s]
    rcases hput : put s e.1 e.2 with cause | s₁
    · constructor
      · intro ⟨s', hs'⟩
        cases hs'
      · intro ⟨⟨s', hs'⟩, _⟩
        cases hs'
    · rw [← ih h.2 s₁]
      constructor
      · intro hrest
        exact ⟨⟨s₁, rfl⟩, hrest⟩
      · exact And.right

/-- Reading succeeds exactly if every entry can be put, whatever is there
before. -/
theorem exists_readEntries_iff {shape : Shape}
    (h : ∀ e ∈ entries, ∀ s, (∃ s', put s e.1 e.2 = .ok s') ↔ shape.Admits e.1 e.2) :
    (∃ s, readEntries put start entries = .ok s) ↔ shape.Fits entries := by
  have hmem (e : String × Value) : e ∈ inKeyOrder entries ↔ e ∈ entries := List.mem_mergeSort
  rw [readEntries, exists_foldlM_iff fun e he => h e ((hmem e).1 he)]
  exact forall_congr' fun e => by rw [hmem]

/-- `get` is the part that the entries of a key set, to what `tells` says of the
value. -/
def Sets (put : α → String → Value → Except SchemaError α) (key : String) (get : α → β)
    (tells : Value → β → Prop) : Prop :=
  ∀ s k v s', put s k v = .ok s' → k = key ∧ tells v (get s') ∨ k ≠ key ∧ get s' = get s

namespace Sets

variable {key : String} {get : α → β} {tells : Value → β → Prop}

theorem foldlM_absent (h : Sets put key get tells) (hkey : key ∉ entries.map Prod.fst)
    (hread : entries.foldlM (fun s e => put s e.1 e.2) start = .ok s) : get s = get start := by
  induction entries generalizing start with
  | nil =>
    cases hread
    rfl
  | cons e entries ih =>
    rw [List.map_cons, List.mem_cons, not_or] at hkey
    rw [List.foldlM_cons] at hread
    rcases hput : put start e.1 e.2 with cause | s₁
    · rw [hput] at hread
      cases hread
    · rw [hput] at hread
      rcases h start e.1 e.2 s₁ hput with ⟨hown, -⟩ | ⟨-, hother⟩
      · exact absurd hown.symm hkey.1
      · rw [ih hkey.2 hread, hother]

theorem foldlM_present (h : Sets put key get tells) (hnodup : (entries.map Prod.fst).Nodup) {v : Value}
    (hv : (key, v) ∈ entries) (hread : entries.foldlM (fun s e => put s e.1 e.2) start = .ok s) :
    tells v (get s) := by
  induction entries generalizing start with
  | nil => cases hv
  | cons e entries ih =>
    rw [List.map_cons, List.nodup_cons] at hnodup
    rw [List.foldlM_cons] at hread
    rcases hput : put start e.1 e.2 with cause | s₁
    · rw [hput] at hread
      cases hread
    · rw [hput] at hread
      rcases List.mem_cons.1 hv with rfl | hv
      · -- No later entry has this key, so what it set stays.
        rw [h.foldlM_absent hnodup.1 hread]
        rcases h start key v s₁ hput with ⟨-, htells⟩ | ⟨hne, -⟩
        · exact htells
        · exact absurd rfl hne
      · exact ih hnodup.2 hv hread

theorem absent (h : Sets put key get tells) (hkey : key ∉ entries.map Prod.fst)
    (hread : readEntries put start entries = .ok s) : get s = get start := by
  have hperm := (List.mergeSort_perm entries fun a b => keyBefore a.1.toList b.1.toList).map Prod.fst
  exact h.foldlM_absent (fun hmem => hkey (hperm.mem_iff.1 hmem)) hread

theorem present (h : Sets put key get tells) (hnodup : (entries.map Prod.fst).Nodup) {v : Value}
    (hv : (key, v) ∈ entries) (hread : readEntries put start entries = .ok s) : tells v (get s) := by
  have hperm := (List.mergeSort_perm entries fun a b => keyBefore a.1.toList b.1.toList).map Prod.fst
  exact h.foldlM_present (hperm.nodup_iff.2 hnodup) (List.mem_mergeSort.2 hv) hread

theorem fieldAt {get : α → Option β} {wrap : β → Value}
    (h : Sets put key get fun v field => ∃ x, field = some x ∧ v = wrap x) (hstart : get start = none)
    (hnodup : (entries.map Prod.fst).Nodup) (hread : readEntries put start entries = .ok s) :
    FieldAt entries [key] wrap (get s) := by
  intro v
  constructor
  · intro hv
    exact h.present hnodup hv hread
  · intro ⟨x, hx, hwrap⟩
    have hkey : key ∈ entries.map Prod.fst := by
      by_contra hkey
      rw [h.absent hkey hread, hstart] at hx
      cases hx
    obtain ⟨⟨_, u⟩, hu, rfl⟩ := List.mem_map.1 hkey
    obtain ⟨y, hy, hwrap'⟩ := h.present hnodup hu hread
    rw [hx, Option.some.injEq] at hy
    rw [hwrap, hy, ← hwrap']
    exact hu

theorem fieldAt_within {γ : Type} {read : Value → Except SchemaError β} {name : String}
    {part : β → Option γ} {wrap : γ → Value} (h : Sets put key get fun v d => read v = .ok d)
    (hkeyed : (Value.table entries).Keyed) (htable : ∀ v, (key, v) ∈ entries → ∃ es, v = .table es)
    (hstart : part (get start) = none)
    (hpart : ∀ {es : Entries} {d}, (es.map Prod.fst).Nodup → read (.table es) = .ok d →
      FieldAt es [name] wrap (part d))
    (hread : readEntries put start entries = .ok s) :
    FieldAt entries [key, name] wrap (part (get s)) := by
  intro v
  by_cases hkey : key ∈ entries.map Prod.fst
  · obtain ⟨⟨_, u⟩, hu, rfl⟩ := List.mem_map.1 hkey
    obtain ⟨es, rfl⟩ := htable u hu
    rw [← hpart (hkeyed.of_mem hu).nodup (h.present hkeyed.nodup hu hread)]
    constructor
    · intro ⟨es', hes', hv⟩
      -- No other table stands under the key.
      cases List.inj_on_of_nodup_map hkeyed.nodup hes' hu rfl
      exact hv
    · intro hv
      exact ⟨es, hu, hv⟩
  · rw [h.absent hkey hread, hstart]
    constructor
    · intro ⟨es, hes, _⟩
      exact absurd (List.mem_map_of_mem hes) hkey
    · intro ⟨x, hx, _⟩
      cases hx

end Sets

end

/-! ## Values -/

theorem map_eq_ok_iff {ε α β : Type} {f : α → β} {x : Except ε α} {b : β} :
    x.map f = .ok b ↔ ∃ a, x = .ok a ∧ b = f a := by
  cases x <;> simp [Except.map, eq_comm]

theorem readString_eq_ok_iff {v : Value} {s : String} : readString v = .ok s ↔ v = .string s := by
  cases v <;> simp [readString]

theorem readBoolean_eq_ok_iff {v : Value} {b : Bool} : readBoolean v = .ok b ↔ v = .boolean b := by
  cases v <;> simp [readBoolean]

theorem readNatural_eq_ok_iff {v : Value} {n : Nat} :
    readNatural v = .ok n ↔ n < naturalLimit ∧ v = .integer n := by
  cases v with
  | integer m =>
    simp only [readNatural, Value.integer.injEq]
    split
    · next hrange =>
      rw [Except.ok.injEq]
      omega
    · next hrange =>
      simp only [reduceCtorEq, false_iff]
      omega
  | _ => simp [readNatural]

end MetricStream.Config
