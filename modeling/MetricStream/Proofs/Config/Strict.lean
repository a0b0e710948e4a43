/-
The configuration file is strict.

Reading succeeds exactly if every entry has a known key and a value of its kind,
at the top and in the two sections, and each field is the value of its key. The
keys of a document are distinct, so the order of its entries makes no difference
(`load_is_strict`).
-/
import MetricStream.Config.Load
import MetricStream.Proofs.Config.Entries

namespace MetricStream

open Toml (Value Entries)

namespace Config

/-! ## What a document must be, and what it says -/

def deliveryShape : Shape := [("api_url", IsString), ("timeout_ms", IsNatural)]

def loggingShape : Shape := [("level", IsString), ("json", IsBoolean)]

/-- The shape of a whole document. -/
def documentShape : Shape :=
  [("namespace", IsString), ("tags", IsString), ("host", IsString),
    ("datadog", IsTable deliveryShape), ("logging", IsTable loggingShape)]

/-- The configuration is what the document says, field by field. -/
structure Says (entries : Entries) (c : Config) : Prop where
  scope : FieldAt entries ["namespace"] .string c.scope
  tags : FieldAt entries ["tags"] .string c.tags
  host : FieldAt entries ["host"] .string c.host
  apiUrl : FieldAt entries ["datadog", "api_url"] .string c.delivery.apiUrl
  timeout : FieldAt entries ["datadog", "timeout_ms"] (fun n : Nat => .integer n)
    c.delivery.timeoutMillis
  level : FieldAt entries ["logging", "level"] .string c.logging.level
  json : FieldAt entries ["logging", "json"] .boolean c.logging.json

end Config

/-! ## Sections -/

open Config

namespace DeliverySection

/-- All that an entry can do. -/
inductive Puts (s : DeliverySection) : String → Value → DeliverySection → Prop where
  | apiUrl (url : String) : Puts s "api_url" (.string url) { s with apiUrl := some url }
  | timeout {n : Nat} :
      n < naturalLimit → Puts s "timeout_ms" (.integer n) { s with timeoutMillis := some n }

theorem put_eq_ok_iff {s s' : DeliverySection} {key : String} {v : Value} :
    put s key v = .ok s' ↔ Puts s key v s' := by
  constructor
  · intro h
    unfold put at h
    split at h
    · obtain ⟨url, hurl, rfl⟩ := map_eq_ok_iff.1 h
      cases readString_eq_ok_iff.1 hurl
      exact .apiUrl url
    · obtain ⟨n, hn, rfl⟩ := map_eq_ok_iff.1 h
      obtain ⟨hrange, rfl⟩ := readNatural_eq_ok_iff.1 hn
      exact .timeout hrange
    · cases h
  · intro h
    cases h with
    | apiUrl url => rfl
    | timeout hrange => simp [put, map_eq_ok_iff, readNatural_eq_ok_iff, hrange]

theorem exists_put_iff {s : DeliverySection} {key : String} {v : Value} :
    (∃ s', put s key v = .ok s') ↔ deliveryShape.Admits key v := by
  simp only [put_eq_ok_iff]
  constructor
  · intro ⟨s', h⟩
    cases h with
    | apiUrl url => exact ⟨_, .head _, rfl, url, rfl⟩
    | timeout hrange => exact ⟨_, .tail _ (.head _), rfl, _, hrange, rfl⟩
  · intro ⟨p, hp, hkey, hv⟩
    simp only [deliveryShape, List.mem_cons, List.not_mem_nil, or_false] at hp
    rcases hp with rfl | rfl
    · obtain ⟨url, rfl⟩ := hv
      exact hkey ▸ ⟨_, .apiUrl url⟩
    · obtain ⟨n, hrange, rfl⟩ := hv
      exact hkey ▸ ⟨_, .timeout hrange⟩

theorem sets_apiUrl : Sets put "api_url" apiUrl fun v field => ∃ x, field = some x ∧ v = .string x := by
  intro s key v s' h
  cases put_eq_ok_iff.1 h with
  | apiUrl url => exact .inl ⟨rfl, url, rfl, rfl⟩
  | timeout _ => exact .inr ⟨by decide, rfl⟩

theorem sets_timeout :
    Sets put "timeout_ms" timeoutMillis fun v field => ∃ n : Nat, field = some n ∧ v = .integer n := by
  intro s key v s' h
  cases put_eq_ok_iff.1 h with
  | apiUrl _ => exact .inr ⟨by decide, rfl⟩
  | timeout _ => exact .inl ⟨rfl, _, rfl, rfl⟩

section

variable {entries : Entries} {s : DeliverySection}

theorem exists_ofValue_iff : (∃ s, ofValue (.table entries) = .ok s) ↔ deliveryShape.Fits entries :=
  exists_readEntries_iff fun _ _ _ => exists_put_iff

theorem fieldAt_apiUrl (hnodup : (entries.map Prod.fst).Nodup) (h : ofValue (.table entries) = .ok s) :
    FieldAt entries ["api_url"] .string s.apiUrl :=
  sets_apiUrl.fieldAt rfl hnodup h

theorem fieldAt_timeout (hnodup : (entries.map Prod.fst).Nodup) (h : ofValue (.table entries) = .ok s) :
    FieldAt entries ["timeout_ms"] (fun n : Nat => .integer n) s.timeoutMillis :=
  sets_timeout.fieldAt rfl hnodup h

end

end DeliverySection

namespace LoggingSection

/-- All that an entry can do. -/
inductive Puts (s : LoggingSection) : String → Value → LoggingSection → Prop where
  | level (level : String) : Puts s "level" (.string level) { s with level := some level }
  | json (b : Bool) : Puts s "json" (.boolean b) { s with json := some b }

theorem put_eq_ok_iff {s s' : LoggingSection} {key : String} {v : Value} :
    put s key v = .ok s' ↔ Puts s key v s' := by
  constructor
  · intro h
    unfold put at h
    split at h
    · obtain ⟨level, hlevel, rfl⟩ := map_eq_ok_iff.1 h
      cases readString_eq_ok_iff.1 hlevel
      exact .level level
    · obtain ⟨b, hb, rfl⟩ := map_eq_ok_iff.1 h
      cases readBoolean_eq_ok_iff.1 hb
      exact .json b
    · cases h
  · intro h
    cases h with
    | level level => rfl
    | json b => rfl

theorem exists_put_iff {s : LoggingSection} {key : String} {v : Value} :
    (∃ s', put s key v = .ok s') ↔ loggingShape.Admits key v := by
  simp only [put_eq_ok_iff]
  constructor
  · intro ⟨s', h⟩
    cases h with
    | level level => exact ⟨_, .head _, rfl, level, rfl⟩
    | json b => exact ⟨_, .tail _ (.head _), rfl, b, rfl⟩
  · intro ⟨p, hp, hkey, hv⟩
    simp only [loggingShape, List.mem_cons, List.not_mem_nil, or_false] at hp
    rcases hp with rfl | rfl
    · obtain ⟨level, rfl⟩ := hv
      exact hkey ▸ ⟨_, .level level⟩
    · obtain ⟨b, rfl⟩ := hv
      exact hkey ▸ ⟨_, .json b⟩

theorem sets_level : Sets put "level" level fun v field => ∃ x, field = some x ∧ v = .string x := by
  intro s key v s' h
  cases put_eq_ok_iff.1 h with
  | level level => exact .inl ⟨rfl, level, rfl, rfl⟩
  | json _ => exact .inr ⟨by decide, rfl⟩

theorem sets_json : Sets put "json" json fun v field => ∃ b, field = some b ∧ v = .boolean b := by
  intro s key v s' h
  cases put_eq_ok_iff.1 h with
  | level _ => exact .inr ⟨by decide, rfl⟩
  | json b => exact .inl ⟨rfl, b, rfl, rfl⟩

section

variable {entries : Entries} {s : LoggingSection}

theorem exists_ofValue_iff : (∃ s, ofValue (.table entries) = .ok s) ↔ loggingShape.Fits entries :=
  exists_readEntries_iff fun _ _ _ => exists_put_iff

theorem fieldAt_level (hnodup : (entries.map Prod.fst).Nodup) (h : ofValue (.table entries) = .ok s) :
    FieldAt entries ["level"] .string s.level :=
  sets_level.fieldAt rfl hnodup h

theorem fieldAt_json (hnodup : (entries.map Prod.fst).Nodup) (h : ofValue (.table entries) = .ok s) :
    FieldAt entries ["json"] .boolean s.json :=
  sets_json.fieldAt rfl hnodup h

end

end LoggingSection

namespace Config

/-! ## Whole documents -/

/-- The sections, where there are any, are tables. -/
def SectionsAreTables (entries : Entries) : Prop :=
  ∀ e ∈ entries, e.1 ∈ ["datadog", "logging"] → ∃ es, e.2 = .table es

/-- All that an entry can do. -/
inductive Puts (c : Config) : String → Value → Config → Prop where
  | scope (s : String) : Puts c "namespace" (.string s) { c with scope := some s }
  | tags (s : String) : Puts c "tags" (.string s) { c with tags := some s }
  | host (s : String) : Puts c "host" (.string s) { c with host := some s }
  | delivery {v : Value} {d : DeliverySection} :
      DeliverySection.ofValue v = .ok d → Puts c "datadog" v { c with delivery := d }
  | logging {v : Value} {l : LoggingSection} :
      LoggingSection.ofValue v = .ok l → Puts c "logging" v { c with logging := l }

theorem put_eq_ok_iff {c c' : Config} {key : String} {v : Value} :
    put c key v = .ok c' ↔ Puts c key v c' := by
  constructor
  · intro h
    unfold put at h
    split at h
    case h_6 => cases h
    all_goals obtain ⟨x, hx, rfl⟩ := map_eq_ok_iff.1 h
    case h_1 =>
      cases readString_eq_ok_iff.1 hx
      exact .scope x
    case h_2 =>
      cases readString_eq_ok_iff.1 hx
      exact .tags x
    case h_3 =>
      cases readString_eq_ok_iff.1 hx
      exact .host x
    case h_4 => exact .delivery hx
    case h_5 => exact .logging hx
  · intro h
    cases h with
    | scope s | tags s | host s => rfl
    | delivery h => exact map_eq_ok_iff.2 ⟨_, h, rfl⟩
    | logging h => exact map_eq_ok_iff.2 ⟨_, h, rfl⟩

theorem exists_put_iff {c : Config} {key : String} {v : Value}
    (htable : key ∈ ["datadog", "logging"] → ∃ es, v = .table es) :
    (∃ c', put c key v = .ok c') ↔ documentShape.Admits key v := by
  simp only [put_eq_ok_iff]
  constructor
  · intro ⟨c', h⟩
    cases h with
    | scope s => exact ⟨_, .head _, rfl, s, rfl⟩
    | tags s => exact ⟨_, .tail _ (.head _), rfl, s, rfl⟩
    | host s => exact ⟨_, .tail _ (.tail _ (.head _)), rfl, s, rfl⟩
    | delivery hd =>
      obtain ⟨es, rfl⟩ := htable (.head _)
      exact ⟨_, .tail _ (.tail _ (.tail _ (.head _))), rfl, es, rfl,
        DeliverySection.exists_ofValue_iff.1 ⟨_, hd⟩⟩
    | logging hl =>
      obtain ⟨es, rfl⟩ := htable (.tail _ (.head _))
      exact ⟨_, .tail _ (.tail _ (.tail _ (.tail _ (.head _)))), rfl, es, rfl,
        LoggingSection.exists_ofValue_iff.1 ⟨_, hl⟩⟩
  · intro ⟨p, hp, hkey, hv⟩
    simp only [documentShape, List.mem_cons, List.not_mem_nil, or_false] at hp
    rcases hp with rfl | rfl | rfl | rfl | rfl
    · obtain ⟨s, rfl⟩ := hv
      exact hkey ▸ ⟨_, .scope s⟩
    · obtain ⟨s, rfl⟩ := hv
      exact hkey ▸ ⟨_, .tags s⟩
    · obtain ⟨s, rfl⟩ := hv
      exact hkey ▸ ⟨_, .host s⟩
    · obtain ⟨es, rfl, hes⟩ := hv
      obtain ⟨d, hd⟩ := DeliverySection.exists_ofValue_iff.2 hes
      exact hkey ▸ ⟨_, .delivery hd⟩
    · obtain ⟨es, rfl, hes⟩ := hv
      obtain ⟨l, hl⟩ := LoggingSection.exists_ofValue_iff.2 hes
      exact hkey ▸ ⟨_, .logging hl⟩

theorem sets_scope : Sets put "namespace" scope fun v field => ∃ x, field = some x ∧ v = .string x := by
  intro c key v c' h
  cases put_eq_ok_iff.1 h with
  | scope s => exact .inl ⟨rfl, s, rfl, rfl⟩
  | _ => exact .inr ⟨by decide, rfl⟩

theorem sets_tags : Sets put "tags" tags fun v field => ∃ x, field = some x ∧ v = .string x := by
  intro c key v c' h
  cases put_eq_ok_iff.1 h with
  | tags s => exact .inl ⟨rfl, s, rfl, rfl⟩
  | _ => exact .inr ⟨by decide, rfl⟩

theorem sets_host : Sets put "host" host fun v field => ∃ x, field = some x ∧ v = .string x := by
  intro c key v c' h
  cases put_eq_ok_iff.1 h with
  | host s => exact .inl ⟨rfl, s, rfl, rfl⟩
  | _ => exact .inr ⟨by decide, rfl⟩

theorem sets_delivery : Sets put "datadog" delivery fun v d => DeliverySection.ofValue v = .ok d := by
  intro c key v c' h
  cases put_eq_ok_iff.1 h with
  | delivery hd => exact .inl ⟨rfl, hd⟩
  | _ => exact .inr ⟨by decide, rfl⟩

theorem sets_logging : Sets put "logging" logging fun v l => LoggingSection.ofValue v = .ok l := by
  intro c key v c' h
  cases put_eq_ok_iff.1 h with
  | logging hl => exact .inl ⟨rfl, hl⟩
  | _ => exact .inr ⟨by decide, rfl⟩

section

variable {entries : Entries}

theorem exists_ofEntries_iff (hsections : SectionsAreTables entries) :
    (∃ c, ofEntries entries = .ok c) ↔ documentShape.Fits entries :=
  exists_readEntries_iff fun e he _ => exists_put_iff (hsections e he)

theorem says_of_ofEntries (hkeyed : (Value.table entries).Keyed) (hsections : SectionsAreTables entries)
    {c : Config} (h : ofEntries entries = .ok c) : Says entries c where
  scope := sets_scope.fieldAt rfl hkeyed.nodup h
  tags := sets_tags.fieldAt rfl hkeyed.nodup h
  host := sets_host.fieldAt rfl hkeyed.nodup h
  apiUrl := sets_delivery.fieldAt_within hkeyed (fun _ hv => hsections _ hv (.head _)) rfl
    DeliverySection.fieldAt_apiUrl h
  timeout := sets_delivery.fieldAt_within hkeyed (fun _ hv => hsections _ hv (.head _)) rfl
    DeliverySection.fieldAt_timeout h
  level := sets_logging.fieldAt_within hkeyed (fun _ hv => hsections _ hv (.tail _ (.head _))) rfl
    LoggingSection.fieldAt_level h
  json := sets_logging.fieldAt_within hkeyed (fun _ hv => hsections _ hv (.tail _ (.head _))) rfl
    LoggingSection.fieldAt_json h

theorem decodeStrict_ascii {cs : List Char} (h : cs.all (·.toNat ≤ 0x7F) = true) :
    Text.Octets.decodeStrict (cs.map fun c => c.toNat.toUInt8) = some cs := by
  induction cs with
  | nil => rw [List.map_nil, Text.Octets.decodeStrict]
  | cons c cs ih =>
    rw [List.all_cons, Bool.and_eq_true, decide_eq_true_eq] at h
    have hnat : c.toNat.toUInt8.toNat = c.toNat := by
      rw [Nat.toUInt8, UInt8.toNat_ofNat']
      omega
    have hnext (bs : List UInt8) : Text.Octets.next c.toNat.toUInt8 bs = (some c, bs) := by
      simp [Text.Octets.next, Text.Octets.lead?, hnat, h.1, Text.Octets.continuation]
    rw [List.map_cons, Text.Octets.decodeStrict, hnext, ih h.2]
    rfl

theorem load_eq_ok_iff {octets : List UInt8} {text : List Char}
    (htext : Text.Octets.decodeStrict octets = some text)
    (hread : Toml.readDocument? text = some entries) {c : Config} :
    load (some octets) = .ok c ↔ ofEntries entries = .ok c := by
  simp only [load, htext, ofText, hread]
  cases ofEntries entries <;> simp

end

/-! ## The order of a document -/

/-- The entries of one document in another order, and so in the tables within it. -/
inductive Rearranged : Entries → Entries → Prop
  | order {es es' : Entries} : es.Perm es' → Rearranged es es'
  | within {before after es es' : Entries} {key : String} : Rearranged es es' →
      Rearranged (before ++ (key, .table es) :: after) (before ++ (key, .table es') :: after)
  | trans {es es' es'' : Entries} : Rearranged es es' → Rearranged es' es'' → Rearranged es es''

namespace Rearranged

variable {entries entries' : Entries}

theorem symm (h : Rearranged entries entries') : Rearranged entries' entries := by
  induction h with
  | order h => exact .order h.symm
  | within _ ih => exact .within ih
  | trans _ _ ih₁ ih₂ => exact ih₂.trans ih₁

/-- What holds of all entries holds of them rearranged, if it does not depend on
the order in a table. -/
theorem forall_mem {p : String → Value → Prop}
    (hp : ∀ key es es', Rearranged es es' → p key (.table es) → p key (.table es'))
    (h : Rearranged entries entries') (hall : ∀ e ∈ entries, p e.1 e.2) : ∀ e ∈ entries', p e.1 e.2 := by
  induction h with
  | order h => exact fun e he => hall e (h.mem_iff.2 he)
  | within h _ =>
    rw [List.forall_mem_append, List.forall_mem_cons] at hall ⊢
    exact ⟨hall.1, hp _ _ _ h hall.2.1, hall.2.2⟩
  | trans _ _ ih₁ ih₂ => exact ih₂ (ih₁ hall)

theorem fits {shape : Shape}
    (hshape : ∀ p ∈ shape, ∀ es es', Rearranged es es' → p.2 (.table es) → p.2 (.table es'))
    (h : Rearranged entries entries') (hfits : shape.Fits entries) : shape.Fits entries' := by
  refine h.forall_mem (fun key es es' hes => ?_) hfits
  intro ⟨p, hp, hkey, hadmits⟩
  exact ⟨p, hp, hkey, hshape p hp es es' hes hadmits⟩

theorem fits_section {shape : Shape} (hshape : ∀ p ∈ shape, ∀ es, ¬ p.2 (.table es))
    (h : Rearranged entries entries') (hfits : shape.Fits entries) : shape.Fits entries' :=
  h.fits (fun p hp es _ _ hes => absurd hes (hshape p hp es)) hfits

theorem isTable {shape : Shape} (hshape : ∀ p ∈ shape, ∀ es, ¬ p.2 (.table es))
    (h : Rearranged entries entries') (htable : IsTable shape (.table entries)) :
    IsTable shape (.table entries') := by
  obtain ⟨es, heq, hfits⟩ := htable
  cases heq
  exact ⟨entries', rfl, h.fits_section hshape hfits⟩

theorem fits_document (h : Rearranged entries entries') (hfits : documentShape.Fits entries) :
    documentShape.Fits entries' := by
  refine h.fits (fun p hp es es' hes htable => ?_) hfits
  simp only [documentShape, List.mem_cons, List.not_mem_nil, or_false] at hp
  rcases hp with rfl | rfl | rfl | rfl | rfl
  iterate 3 simp [IsString] at htable
  · exact hes.isTable (by simp [deliveryShape, IsString, IsNatural]) htable
  · exact hes.isTable (by simp [loggingShape, IsString, IsBoolean]) htable

theorem sectionsAreTables (h : Rearranged entries entries') (hsections : SectionsAreTables entries) :
    SectionsAreTables entries' :=
  h.forall_mem (p := fun key v => key ∈ ["datadog", "logging"] → ∃ es, v = .table es)
    (fun _ _ es' _ _ _ => ⟨es', rfl⟩) hsections

theorem at_of_at {path : List String} {v : Value} (hv : ∀ es, v ≠ .table es)
    (h : Rearranged entries entries') (hat : At entries path v) : At entries' path v := by
  induction h generalizing path with
  | order h =>
    match path with
    | [] => exact hat
    | [key] => exact h.mem_iff.1 hat
    | key :: next :: path =>
      obtain ⟨es, hes, hat⟩ := hat
      exact ⟨es, h.mem_iff.1 hes, hat⟩
  | @within before after es es' name _ ih =>
    match path with
    | [] => exact hat
    | [key] =>
      rcases List.mem_append.1 hat with hmem | hmem
      · exact List.mem_append_left _ hmem
      · rcases List.mem_cons.1 hmem with heq | hmem
        · cases heq
          exact absurd rfl (hv es)
        · exact List.mem_append_right _ (.tail _ hmem)
    | key :: next :: path =>
      obtain ⟨u, hu, hat⟩ := hat
      rcases List.mem_append.1 hu with hmem | hmem
      · exact ⟨u, List.mem_append_left _ hmem, hat⟩
      · rcases List.mem_cons.1 hmem with heq | hmem
        · cases heq
          exact ⟨es', List.mem_append_right _ (.head _), ih hat⟩
        · exact ⟨u, List.mem_append_right _ (.tail _ hmem), hat⟩
  | trans _ _ ih₁ ih₂ => exact ih₂ (ih₁ hat)

theorem at_iff {path : List String} {v : Value} (hv : ∀ es, v ≠ .table es)
    (h : Rearranged entries entries') : At entries path v ↔ At entries' path v :=
  ⟨h.at_of_at hv, h.symm.at_of_at hv⟩

theorem field_eq {β : Type} {path : List String} {wrap : β → Value}
    (hwrap : ∀ x y, wrap x = wrap y → x = y) (hplain : ∀ x es, wrap x ≠ .table es)
    (h : Rearranged entries entries') {field field' : Option β} (hfield : FieldAt entries path wrap field)
    (hfield' : FieldAt entries' path wrap field') : field = field' := by
  have hiff {entries : Entries} {field : Option β} (h : FieldAt entries path wrap field) (x : β) :
      field = some x ↔ At entries path (wrap x) := by
    rw [h]
    constructor
    · intro hx
      exact ⟨x, hx, rfl⟩
    · intro ⟨y, hy, heq⟩
      rwa [hwrap x y heq]
  refine Option.ext fun x => ?_
  rw [hiff hfield, hiff hfield', h.at_iff (hplain x)]

/-- Documents that differ in order say the same. -/
theorem says_unique (h : Rearranged entries entries') {c c' : Config} (hc : Says entries c)
    (hc' : Says entries' c') : c = c' := by
  have hstring : ∀ x y, Value.string x = .string y → x = y := fun _ _ => Value.string.inj
  obtain ⟨scope, tags, host, ⟨apiUrl, timeout⟩, ⟨level, json⟩⟩ := c
  obtain ⟨scope', tags', host', ⟨apiUrl', timeout'⟩, ⟨level', json'⟩⟩ := c'
  obtain rfl := h.field_eq hstring nofun hc.scope hc'.scope
  obtain rfl := h.field_eq hstring nofun hc.tags hc'.tags
  obtain rfl := h.field_eq hstring nofun hc.host hc'.host
  obtain rfl := h.field_eq hstring nofun hc.apiUrl hc'.apiUrl
  obtain rfl := h.field_eq (fun _ _ he => Int.ofNat.inj (Value.integer.inj he)) nofun hc.timeout
    hc'.timeout
  obtain rfl := h.field_eq hstring nofun hc.level hc'.level
  obtain rfl := h.field_eq (fun _ _ => Value.boolean.inj) nofun hc.json hc'.json
  rfl

theorem ofEntries_eq_ok (h : Rearranged entries entries') (hkeyed : (Value.table entries).Keyed)
    (hkeyed' : (Value.table entries').Keyed) (hsections : SectionsAreTables entries) {c : Config}
    (hc : ofEntries entries = .ok c) : ofEntries entries' = .ok c := by
  have hsections' := h.sectionsAreTables hsections
  have hfits := (exists_ofEntries_iff hsections).1 ⟨c, hc⟩
  obtain ⟨c', hc'⟩ := (exists_ofEntries_iff hsections').2 (h.fits_document hfits)
  have htells := says_of_ofEntries hkeyed hsections hc
  have htells' := says_of_ofEntries hkeyed' hsections' hc'
  rwa [h.says_unique htells htells']

end Rearranged

theorem ofEntries_eq_ok_iff {entries : Entries} (hkeyed : (Value.table entries).Keyed)
    (hsections : SectionsAreTables entries) {c : Config} :
    ofEntries entries = .ok c ↔ documentShape.Fits entries ∧ Says entries c := by
  constructor
  · intro hc
    exact ⟨(exists_ofEntries_iff hsections).1 ⟨c, hc⟩, says_of_ofEntries hkeyed hsections hc⟩
  · intro ⟨hfits, htells⟩
    obtain ⟨c', hc'⟩ := (exists_ofEntries_iff hsections).2 hfits
    have htells' := says_of_ofEntries hkeyed hsections hc'
    rwa [Rearranged.says_unique (.order .rfl) htells htells']

/-- **The configuration file is strict.** A document whose sections are tables
loads exactly if it has no key but the known ones, each with a value of its kind,
and it loads as what it says, key by key; so do the same entries in another
order. -/
theorem load_is_strict {octets : List UInt8} {text : List Char} {entries : Entries}
    (htext : Text.Octets.decodeStrict octets = some text)
    (hread : Toml.readDocument? text = some entries) (hsections : SectionsAreTables entries) :
    ((∃ c, load (some octets) = .ok c) ↔ documentShape.Fits entries) ∧
      (∀ c, load (some octets) = .ok c ↔ documentShape.Fits entries ∧ Says entries c) ∧
      ∀ octets' text' entries', Text.Octets.decodeStrict octets' = some text' →
        Toml.readDocument? text' = some entries' → Rearranged entries entries' →
        ∀ c, load (some octets) = .ok c ↔ load (some octets') = .ok c := by
  have hkeyed := Toml.keyed_of_readDocument? hread
  refine ⟨?_, fun c => ?_, fun octets' text' entries' htext' hread' hsame c => ?_⟩
  · rw [← exists_ofEntries_iff hsections]
    exact exists_congr fun _ => load_eq_ok_iff htext hread
  · rw [load_eq_ok_iff htext hread, ofEntries_eq_ok_iff hkeyed hsections]
  · have hkeyed' := Toml.keyed_of_readDocument? hread'
    have hsections' := hsame.sectionsAreTables hsections
    rw [load_eq_ok_iff htext hread, load_eq_ok_iff htext' hread']
    constructor
    · exact hsame.ofEntries_eq_ok hkeyed hkeyed' hsections
    · exact hsame.symm.ofEntries_eq_ok hkeyed' hkeyed hsections'

/-- A section in either place, once under its header and once under a dotted
key, and a number that takes all 64 bits. -/
theorem load_is_strict_reordered :
    let text := "host=''\n[datadog]\ntimeout_ms=18446744073709551615".toList
    let text' := "datadog.timeout_ms=18446744073709551615\nhost=''".toList
    let delivery : Entries := [("timeout_ms", .integer 18446744073709551615)]
    let entries : Entries := [("host", .string ""), ("datadog", .table delivery)]
    let octets := text.map fun c => c.toNat.toUInt8
    let octets' := text'.map fun c => c.toNat.toUInt8
    let c : Config := ⟨none, none, some "", ⟨none, some 18446744073709551615⟩, .empty⟩
    Text.Octets.decodeStrict octets = some text ∧ Toml.readDocument? text = some entries ∧
      SectionsAreTables entries ∧ documentShape.Fits entries ∧ Says entries c ∧
      load (some octets) = .ok c ∧ load (some octets') = .ok c := by
  intro text text' delivery entries octets octets' c
  have htext : Text.Octets.decodeStrict octets = some text := decodeStrict_ascii (by decide)
  have htext' : Text.Octets.decodeStrict octets' = some text' := decodeStrict_ascii (by decide)
  have hread : Toml.readDocument? text = some entries := by decide +kernel
  have hread' : Toml.readDocument? text' = some [("datadog", .table delivery), ("host", .string "")] := by
    decide +kernel
  have hsections : SectionsAreTables entries := by simp [SectionsAreTables, entries, delivery]
  have hload : load (some octets) = .ok c := by
    rw [load_eq_ok_iff htext hread]
    have horder : inKeyOrder entries = [("datadog", .table delivery), ("host", .string "")] := by
      simp [inKeyOrder, entries, List.mergeSort, List.MergeSort.Internal.splitInTwo, keyBefore]
    have hsection : DeliverySection.ofValue (.table delivery) = .ok c.delivery := by
      rw [DeliverySection.ofValue, readSection, readEntries, inKeyOrder, List.mergeSort_singleton]
      rfl
    rw [ofEntries, readEntries, horder]
    simp only [List.foldlM_cons, put, hsection]
    rfl
  obtain ⟨-, htells, hreordered⟩ := load_is_strict htext hread hsections
  obtain ⟨hfits, hc⟩ := (htells c).1 hload
  have hload' := (hreordered octets' text' _ htext' hread' (.order (.swap ..)) c).1 hload
  exact ⟨htext, hread, hsections, hfits, hc, hload, hload'⟩

end Config

end MetricStream
