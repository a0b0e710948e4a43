/-
No table of a document has a key twice.

Whatever a line does to the tables read so far, it changes one node, or adds one
under a key that was not there, and it finds its way to that node through nodes
that it leaves as they are. So keys stay distinct in the table it changes and in
all around it (`Keeps.alter`), and with them in the whole document
(`keyed_of_readDocument?`). Inline tables are built in the same way.
-/
import Mathlib.Data.List.Basic
import MetricStream.Toml.Document

namespace MetricStream.Toml

/-- No table in the value has a key twice. -/
inductive Value.Keyed : Value → Prop where
  | string (s : String) : Keyed (.string s)
  | integer (n : Int) : Keyed (.integer n)
  | float (x : Binary64) : Keyed (.float x)
  | unreadable : Keyed .unreadable
  | boolean (b : Bool) : Keyed (.boolean b)
  | date (text : String) : Keyed (.date text)
  | array {items : List Value} : (∀ v ∈ items, Keyed v) → Keyed (.array items)
  | table {entries : List (String × Value)} :
      (entries.map Prod.fst).Nodup → (∀ e ∈ entries, Keyed e.2) → Keyed (.table entries)

/-- Neither the table that is open nor one in it has a key twice. -/
def Tree.Keyed (t : Tree) : Prop := (Value.table (entriesOf t)).Keyed

/-! ## Trees -/

theorem entriesOf_eq_map (t : Tree) : entriesOf t = t.map fun p => (p.1, p.2.value) := by
  induction t with
  | nil => simp [entriesOf]
  | cons p t ih =>
    obtain ⟨key, node⟩ := p
    rw [entriesOf, ih, List.map_cons]

namespace Tree

theorem keyed_iff {t : Tree} :
    t.Keyed ↔ (t.map Prod.fst).Nodup ∧ ∀ p ∈ t, p.2.value.Keyed := by
  rw [Keyed, entriesOf_eq_map]
  constructor
  · intro h
    cases h with
    | table hkeys hvalues =>
      rw [List.map_map] at hkeys
      exact ⟨hkeys, fun p hp => hvalues _ (List.mem_map_of_mem hp)⟩
  · intro ⟨hkeys, hvalues⟩
    refine .table (by rwa [List.map_map]) fun e he => ?_
    obtain ⟨p, hp, rfl⟩ := List.mem_map.1 he
    exact hvalues p hp

theorem keyed_nil : Keyed [] := keyed_iff.2 ⟨List.nodup_nil, by simp⟩

theorem keyed_cons {key : String} {node : Node} {t : Tree} :
    Keyed ((key, node) :: t) ↔ key ∉ t.map Prod.fst ∧ node.value.Keyed ∧ t.Keyed := by
  rw [keyed_iff, keyed_iff, List.map_cons, List.nodup_cons, List.forall_mem_cons]
  tauto

theorem keyed_rows {closed : List Value} {last : Tree} :
    (Node.rows closed last).value.Keyed ↔ (∀ v ∈ closed, v.Keyed) ∧ last.Keyed := by
  rw [Node.value]
  constructor
  · intro h
    cases h with
    | array hitems =>
      rw [List.forall_mem_append, List.forall_mem_singleton] at hitems
      exact hitems
  · intro h
    exact .array (List.forall_mem_append.2 ⟨h.1, List.forall_mem_singleton.2 h.2⟩)

/-! ## Changes -/

/-- A change of a node keeps keys distinct. -/
def NodeKeeps (change : Option Node → Option Node) : Prop :=
  ∀ old new, (∀ node ∈ old, node.value.Keyed) → change old = some new → new.value.Keyed

/-- A change of a tree keeps keys distinct. -/
def Keeps (change : Tree → Option Tree) : Prop :=
  ∀ t t', t.Keyed → change t = some t' → t'.Keyed

theorem mem_keys_alter {key k : String} {change : Option Node → Option Node} {t t' : Tree}
    (h : alter key change t = some t') (hk : k ∈ t'.map Prod.fst) : k = key ∨ k ∈ t.map Prod.fst := by
  induction t generalizing t' with
  | nil =>
    obtain ⟨node, -, rfl⟩ := Option.map_eq_some_iff.1 h
    exact .inl (by simpa using hk)
  | cons p t ih =>
    obtain ⟨name, node⟩ := p
    rw [alter] at h
    split at h
    · obtain ⟨new, -, rfl⟩ := Option.map_eq_some_iff.1 h
      exact .inr hk
    · obtain ⟨rest, hrest, rfl⟩ := Option.map_eq_some_iff.1 h
      rw [List.map_cons, List.mem_cons] at hk ⊢
      rcases hk with rfl | hk
      · exact .inr (.inl rfl)
      · exact (ih hrest hk).imp_right .inr

theorem NodeKeeps.alter {change : Option Node → Option Node} (h : NodeKeeps change) (key : String) :
    Keeps (Tree.alter key change) := by
  intro t
  induction t with
  | nil =>
    intro t' _ halter
    obtain ⟨node, hnode, rfl⟩ := Option.map_eq_some_iff.1 halter
    exact keyed_cons.2 ⟨by simp, h none node (by simp) hnode, keyed_nil⟩
  | cons p t ih =>
    intro t' ht halter
    obtain ⟨name, node⟩ := p
    obtain ⟨hname, hnode, hrest⟩ := keyed_cons.1 ht
    rw [Tree.alter] at halter
    split at halter
    · obtain ⟨new, hnew, rfl⟩ := Option.map_eq_some_iff.1 halter
      exact keyed_cons.2 ⟨hname, h (some node) new (by simpa using hnode) hnew, hrest⟩
    · next hne =>
      obtain ⟨rest, hrest', rfl⟩ := Option.map_eq_some_iff.1 halter
      refine keyed_cons.2 ⟨fun hmem => ?_, hnode, ih rest hrest hrest'⟩
      rcases mem_keys_alter hrest' hmem with rfl | hmem
      · exact hne rfl
      · exact hname hmem

/-- A table that is entered is changed, and nothing around it. -/
theorem Keeps.enter {change : Tree → Option Tree} (h : Keeps change) : NodeKeeps (Tree.enter change) := by
  intro old new hold hnew
  rcases old with _ | (v | ⟨origin, children⟩ | ⟨closed, last⟩)
  · obtain ⟨t, ht, rfl⟩ := Option.map_eq_some_iff.1 hnew
    exact h [] t keyed_nil ht
  · cases hnew
  · obtain ⟨t, ht, rfl⟩ := Option.map_eq_some_iff.1 hnew
    exact h children t (hold _ rfl) ht
  · obtain ⟨t, ht, rfl⟩ := Option.map_eq_some_iff.1 hnew
    obtain ⟨hclosed, hlast⟩ := keyed_rows.1 (hold _ rfl)
    exact keyed_rows.2 ⟨hclosed, h last t hlast ht⟩

theorem Keeps.enterDotted {change : Tree → Option Tree} (h : Keeps change) (isLast : Bool) :
    NodeKeeps (Tree.enterDotted isLast change) := by
  intro old new hold hnew
  unfold Tree.enterDotted at hnew
  split at hnew
  · obtain ⟨t, ht, rfl⟩ := Option.map_eq_some_iff.1 hnew
    exact h [] t keyed_nil ht
  · obtain ⟨t, ht, rfl⟩ := Option.map_eq_some_iff.1 hnew
    exact h _ t (hold _ rfl) ht
  · split at hnew
    · cases hnew
    · obtain ⟨t, ht, rfl⟩ := Option.map_eq_some_iff.1 hnew
      exact h _ t (hold _ rfl) ht
  · split at hnew
    · cases hnew
    · obtain ⟨t, ht, rfl⟩ := Option.map_eq_some_iff.1 hnew
      obtain ⟨hclosed, hlast⟩ := keyed_rows.1 (hold _ rfl)
      exact keyed_rows.2 ⟨hclosed, h _ t hlast ht⟩
  · cases hnew
  · cases hnew

theorem NodeKeeps.alterAt {change : Option Node → Option Node} (h : NodeKeeps change)
    (path : List String) : Keeps (Tree.alterAt change path) := by
  fun_induction Tree.alterAt change path with
  | case1 => exact fun _ _ _ hnone => nomatch hnone
  | case2 key => exact h.alter key
  | case3 key path _ ih => exact ih.enter.alter key

theorem Keeps.within {change : Tree → Option Tree} (h : Keeps change) (path : List String) :
    Keeps (Tree.within change path) := by
  induction path with
  | nil => exact h
  | cons key path ih => exact ih.enter.alter key

theorem nodeKeeps_declare : NodeKeeps declare := by
  intro old new hold hnew
  unfold declare at hnew
  split at hnew <;> cases hnew
  · exact keyed_nil
  · exact hold (.table .implied _) rfl

theorem nodeKeeps_addRow : NodeKeeps addRow := by
  intro old new hold hnew
  unfold addRow at hnew
  split at hnew <;> cases hnew
  · exact keyed_rows.2 ⟨List.forall_mem_nil _, keyed_nil⟩
  · obtain ⟨hclosed, hlast⟩ := keyed_rows.1 (hold _ rfl)
    exact keyed_rows.2
      ⟨List.forall_mem_append.2 ⟨hclosed, List.forall_mem_singleton.2 hlast⟩, keyed_nil⟩

theorem keeps_assign {v : Value} (hv : v.Keyed) (path : List String) : Keeps (assign v path) := by
  fun_induction assign v path with
  | case1 => exact fun _ _ _ hnone => nomatch hnone
  | case2 key =>
    refine NodeKeeps.alter (fun old new _ hnew => ?_) key
    split at hnew <;> cases hnew
    exact hv
  | case3 key path _ ih => exact (ih.enterDotted _).alter key

end Tree

/-! ## Values -/

/-- The reader gives values with distinct keys. -/
def ReadsKeyed (item : List Char → Read Value) : Prop :=
  ∀ cs v rest, item cs = some (v, rest) → v.Keyed

theorem keyed_integer? {cs : List Char} {v : Value} (h : integer? cs = some v) : v.Keyed := by
  have hnatural {base : Nat} {cs : List Char} (h : naturalIn? base cs = some v) : v.Keyed := by
    unfold naturalIn? at h
    split at h
    · cases h
      exact .unreadable
    · obtain ⟨digits, -, rfl⟩ := Option.map_eq_some_iff.1 h
      exact .integer _
  unfold integer? at h
  split at h
  iterate 3 exact hnatural h
  simp only [decimal?] at h
  split at h
  · cases h
  split at h
  · cases h
    exact .integer _
  split at h <;> cases h
  exact .unreadable

theorem keyed_float? {cs : List Char} {v : Value} (h : float? cs = some v) : v.Keyed := by
  simp only [float?] at h
  split at h
  · cases h
    exact .float _
  split at h
  · cases h
    exact .float _
  split at h
  · split at h
    · cases h
      split
      · exact .float _
      · exact .unreadable
    · cases h
  · cases h

theorem readsKeyed_scalar : ReadsKeyed scalar := by
  intro cs v rest h
  simp only [scalar] at h
  obtain ⟨word, hword, heq⟩ := Option.map_eq_some_iff.1 h
  cases heq
  unfold word? at hword
  split at hword
  · cases hword
    exact .boolean _
  split at hword
  · cases hword
    exact .boolean _
  split at hword
  · next hinteger =>
    cases hword
    exact keyed_integer? hinteger
  split at hword
  · next hfloat =>
    cases hword
    exact keyed_float? hfloat
  split at hword <;> cases hword
  exact .date _

theorem readsKeyed_simple? : ReadsKeyed simple? := by
  intro cs v rest h
  unfold simple? at h
  split at h
  · obtain ⟨_, -, heq⟩ := Option.map_eq_some_iff.1 h
    cases heq
    exact .string _
  · obtain ⟨_, -, heq⟩ := Option.map_eq_some_iff.1 h
    cases heq
    exact .string _
  · exact readsKeyed_scalar cs v rest h

section

variable {item : List Char → Read Value}

theorem keyed_items? (hitem : ReadsKeyed item) {fuel : Nat} {cs rest : List Char} {vs : List Value}
    (h : items? item fuel cs = some (vs, rest)) : ∀ v ∈ vs, v.Keyed := by
  induction fuel generalizing cs vs with
  | zero => cases h
  | succ fuel ih =>
    unfold items? at h
    split at h
    · cases h
      exact List.forall_mem_nil _
    split at h
    · cases h
    next v after hv =>
    split at h
    · cases h
    obtain ⟨⟨vs', rest'⟩, hrest, heq⟩ := Option.map_eq_some_iff.1 h
    cases heq
    exact List.forall_mem_cons.2 ⟨hitem _ _ _ hv, ih hrest⟩

theorem keyed_assignment? (hitem : ReadsKeyed item) {skip : List Char → List Char}
    {cs rest : List Char} {path : List String} {v : Value}
    (h : assignment? skip item cs = some ((path, v), rest)) : v.Keyed := by
  unfold assignment? at h
  split at h
  · cases h
  split at h
  · obtain ⟨⟨v', rest'⟩, hv, heq⟩ := Option.map_eq_some_iff.1 h
    cases heq
    exact hitem _ _ _ hv
  · cases h

theorem keyed_fields? (hitem : ReadsKeyed item) {fuel : Nat} {t t' : Tree} {cs rest : List Char}
    (ht : t.Keyed) (h : fields? item fuel t cs = some (t', rest)) : t'.Keyed := by
  induction fuel generalizing t cs with
  | zero => cases h
  | succ fuel ih =>
    unfold fields? at h
    split at h
    · cases h
      exact ht
    split at h
    · cases h
    next path v after hassignment =>
    split at h
    · next grown _ hgrown _ =>
      have hv := keyed_assignment? hitem hassignment
      exact ih (Tree.keeps_assign hv path t grown ht hgrown) h
    · cases h

end

/-- Inline tables within inline tables, as deep as they may be. -/
theorem readsKeyed_value? (depth : Nat) : ReadsKeyed (value? depth) := by
  induction depth with
  | zero => exact readsKeyed_simple?
  | succ depth ih =>
    intro cs v rest h
    unfold value? at h
    split at h
    · obtain ⟨⟨vs, _⟩, hitems, heq⟩ := Option.map_eq_some_iff.1 h
      cases heq
      exact .array (keyed_items? ih hitems)
    · obtain ⟨⟨t, _⟩, hfields, heq⟩ := Option.map_eq_some_iff.1 h
      cases heq
      exact keyed_fields? ih Tree.keyed_nil hfields
    · exact readsKeyed_simple? cs v rest h

/-! ## Documents -/

theorem keyed_line? {d d' : Draft} {cs rest : List Char} (hd : d.root.Keyed)
    (h : line? d cs = some (d', rest)) : d'.root.Keyed := by
  unfold line? at h
  split at h
  · split at h
    · next path _ _ =>
      split at h
      · next root _ hroot _ =>
        cases h
        exact Tree.nodeKeeps_addRow.alterAt path _ root hd hroot
      · cases h
    · cases h
  · split at h
    · next path _ _ =>
      split at h
      · next root _ hroot _ =>
        cases h
        exact Tree.nodeKeeps_declare.alterAt path _ root hd hroot
      · cases h
    · cases h
  · split at h
    · cases h
    next path v after hassignment =>
    split at h
    · next root _ hroot _ =>
      cases h
      have hv := keyed_assignment? (readsKeyed_value? maxDepth) hassignment
      exact (Tree.keeps_assign hv path).within d.opened _ root hd hroot
    · cases h

theorem keyed_lines {fuel : Nat} {d d' : Draft} {cs : List Char} (hd : d.root.Keyed)
    (h : lines fuel d cs = some d') : d'.root.Keyed := by
  induction fuel generalizing d cs with
  | zero => cases h
  | succ fuel ih =>
    rw [lines] at h
    split at h
    · cases h
      exact hd
    split at h
    · next d₁ rest hline => exact ih (keyed_line? hd hline) h
    · cases h

/-- **No table of a document has a key twice.** -/
theorem keyed_of_readDocument? {text : List Char} {entries : Entries}
    (h : readDocument? text = some entries) : (Value.table entries).Keyed := by
  obtain ⟨d, hlines, rfl⟩ := Option.map_eq_some_iff.1 h
  exact keyed_lines Tree.keyed_nil hlines

theorem Value.Keyed.nodup {entries : Entries} (h : (Value.table entries).Keyed) :
    (entries.map Prod.fst).Nodup := by
  cases h
  assumption

theorem Value.Keyed.of_mem {entries : Entries} (h : (Value.table entries).Keyed) {key : String}
    {v : Value} (hv : (key, v) ∈ entries) : v.Keyed := by
  cases h with
  | table _ hvalues => exact hvalues _ hv

end MetricStream.Toml
