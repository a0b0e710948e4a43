/-
What a submission says.

The body of a submission is JSON, and what a receiver reads in it is just what was
buffered: for each point, in their order, its metric, kind, second, value, host and tags,
whatever characters the strings are made of (`body_says_points`). So the body tells the
host and the points, to the sign of a zero and the last bit of a value.
-/
import MetricStream.Proofs.Decimal.Layout
import MetricStream.Proofs.Delivery.Base
import MetricStream.Proofs.Json.RoundTrip
import MetricStream.Proofs.Series.Posting

namespace MetricStream

open Binary64 (Exponent Numeral)
open Decimal.Layout (signOf)
open Duration (Sign)

/-! ## Number texts -/

namespace Json

theorem isDigits_iff {cs : List Char} :
    isDigits cs = true ↔ cs ≠ [] ∧ ∀ c ∈ cs, c.isDigit = true := by
  simp [isDigits]

theorem isExponent_text (e : Option Exponent) : isExponent (Exponent.text e) = true := by
  rcases e with _ | e
  · rfl
  · rw [Exponent.text, isExponent, e.unsigned_digits.takeSign_text,
      isDigits_iff.2 ⟨e.ne_nil, e.digits_digits⟩]
    rcases e.mark_eq with h | h <;> rw [h] <;> rfl

theorem isTail_text {fraction : Option (List Char)} (hne : fraction ≠ some [])
    (hdigits : ∀ c ∈ fraction.getD [], c.isDigit = true) (e : Option Exponent) :
    isTail (Duration.pointed fraction ++ Exponent.text e) = true := by
  have hends := Exponent.endsNumber_text e
  rcases fraction with _ | digits
  · rw [Duration.pointed, List.nil_append, isTail.eq_def]
    split
    · next heq => exact absurd rfl ((hends '.' (by rw [heq]; rfl)).2)
    · exact isExponent_text e
  · have hends := hends.endsDigits none
    rw [Duration.pointed, List.nil_append] at hends
    rw [Option.getD_some] at hdigits
    rw [Duration.pointed, List.cons_append, isTail, hends.takeWhile hdigits, hends.dropWhile hdigits,
      isDigits_iff.2 ⟨by simpa using hne, hdigits⟩, isExponent_text]
    rfl

theorem isNumber_text (negative : Bool) {n : Numeral} (h : n.Regular) :
    isNumber (Sign.text (signOf negative) ++ n.text) = true := by
  have hends := (Exponent.endsNumber_text n.exponent).endsDigits n.fraction
  have hwhole : (n.whole = ['0'] || n.whole.head?.any (· ≠ '0')) = true := by
    rcases h.whole with hzero | ⟨c, cs, hcons, hc⟩
    · simp [hzero]
    · simp [hcons, hc]
  have hunsigned : isUnsigned n.text = true := by
    rw [isUnsigned, Numeral.text, hends.takeWhile n.whole_digits, hends.dropWhile n.whole_digits,
      isTail_text h.fraction n.fraction_digits, Bool.and_true]
    exact hwhole
  cases negative with
  | true => exact hunsigned
  | false =>
    have hsign := n.unsigned_text
    change isNumber n.text = true
    rw [isNumber.eq_def]
    split
    · next heq => exact absurd rfl ((hsign '-' (by rw [heq]; rfl)).2)
    · exact hunsigned

theorem signOf_injective {a b : Bool} (h : signOf a = signOf b) : a = b := by
  cases a <;> cases b <;> first | rfl | cases h

theorem toList_repr (n : ℤ) :
    n.repr.toList = Sign.text (signOf (decide (n < 0))) ++ Nat.toDigits 10 n.natAbs := by
  rw [Int.repr_eq_if]
  split
  · next hn =>
    rw [Nat.toList_repr, decide_eq_false (by omega), show n.toNat = n.natAbs by omega]
    rfl
  · next hn =>
    rw [String.toList_append, Nat.toList_repr, decide_eq_true (by omega),
      show (-n).toNat = n.natAbs by omega]
    rfl

/-- The numeral of a natural number. -/
def natural (n : ℕ) : Numeral where
  whole := Nat.toDigits 10 n
  fraction := none
  exponent := none
  whole_digits := Decimal.isDigit_of_mem_digits
  fraction_digits := by simp
  digit := .inl (List.ne_nil_of_length_pos Nat.length_toDigits_pos)

theorem text_natural (n : ℕ) : (natural n).text = Nat.toDigits 10 n := by
  simp only [natural, Numeral.text, Duration.pointed, Exponent.text, List.append_nil]

theorem regular_natural (n : ℕ) : (natural n).Regular := by
  refine ⟨?_, by simp [natural]⟩
  rcases Nat.eq_zero_or_pos n with rfl | hn
  · exact .inl rfl
  · exact .inr (Decimal.head_digits hn)

theorem written_ofInt (n : ℤ) : Written (ofInt n) := by
  refine .number ?_
  rw [toList_repr, ← text_natural]
  exact isNumber_text _ (regular_natural _)

theorem repr_injective {m n : ℤ} (h : m.repr = n.repr) : m = n := by
  have htext := congrArg String.toList h
  rw [toList_repr, toList_repr, ← text_natural, ← text_natural] at htext
  obtain ⟨hsign, hdigits⟩ := (natural _).unsigned_text.sign_injective (natural _).unsigned_text htext
  have habs : m.natAbs = n.natAbs := by
    rw [text_natural, text_natural] at hdigits
    rw [← Nat.ofDigitChars_ten_toDigits (n := m.natAbs), hdigits, Nat.ofDigitChars_ten_toDigits]
  have hneg : m < 0 ↔ n < 0 := by
    rw [← decide_eq_decide]
    exact signOf_injective hsign
  omega

theorem ofBinary64_finite {x : Binary64} (hx : x.isFinite = true) :
    ofBinary64 x = .number (numberLayout.text x) := if_pos hx

theorem written_ofBinary64 (x : Binary64) : Written (ofBinary64 x) := by
  rcases x with ⟨negative, m⟩ | s | _
  case infinite => exact .null
  case nan => exact .null
  obtain ⟨n, hregular, htext, -⟩ := numberLayout.exists_spelling negative m
  rw [ofBinary64_finite rfl]
  refine .number ?_
  rw [htext]
  exact isNumber_text negative hregular

end Json

/-! ## Submissions -/

namespace Submission

/-- The entry says what the point is, and its value's text is read back as the value. -/
structure Says (host : String) (p : Point) (entry : Json) : Prop where
  fields : entry = .object
    [("metric", .string p.key.metric),
     ("type", .string p.key.kind.name),
     ("points", .array [.array [.number p.second.repr, .number (Json.numberLayout.text p.value)]]),
     ("host", .string host),
     ("tags", .array (p.key.tags.map .string))]
  value : Binary64.read? (Json.numberLayout.text p.value) = some p.value

theorem says_entry (host : String) {p : Point} (h : p.value.isFinite = true) :
    Says host p (entry host p) where
  fields := by rw [entry, Json.ofBinary64_finite h, Json.ofInt]
  value := Json.numberLayout.read?_text h

theorem written_entry (host : String) (p : Point) : Json.Written (entry host p) := by
  refine .object ?_
  simp only [List.forall_mem_cons]
  refine ⟨.string _, .string _, .array ?_, .string _, .array ?_, by simp⟩
  · simp only [List.forall_mem_cons]
    refine ⟨.array ?_, by simp⟩
    simp only [List.forall_mem_cons]
    exact ⟨Json.written_ofInt p.second, Json.written_ofBinary64 p.value, by simp⟩
  · simp only [List.forall_mem_map]
    exact fun tag _ => .string tag

theorem written_json (host : String) (points : List Point) : Json.Written (json host points) := by
  refine .object ?_
  simp only [List.forall_mem_cons]
  refine ⟨.array ?_, by simp⟩
  simp only [List.forall_mem_map]
  exact fun p _ => written_entry host p

theorem read?_body (host : String) (points : List Point) :
    Json.read? (body host points) = some (json host points) :=
  Json.read?_render (written_json host points)

theorem MetricKind.name_injective {k k' : MetricKind} (h : k.name = k'.name) : k = k' := by
  cases k <;> cases k' <;> simp_all [MetricKind.name]

theorem Says.unique {host host' : String} {p p' : Point} {entry : Json} (h : Says host p entry)
    (h' : Says host' p' entry) : host = host' ∧ p = p' := by
  have hfields := h.fields.symm.trans h'.fields
  simp only [Json.object.injEq, List.cons.injEq, Prod.mk.injEq, Json.string.injEq, Json.array.injEq,
    Json.number.injEq, true_and, and_true] at hfields
  obtain ⟨hmetric, hkind, ⟨hsecond, htext⟩, hhost, htags⟩ := hfields
  have hvalue := h.value
  rw [htext, h'.value, Option.some.injEq] at hvalue
  have htags : p.key.tags = p'.key.tags :=
    List.map_injective_iff.2 (fun _ _ => Json.string.inj) htags
  refine ⟨hhost, ?_⟩
  obtain ⟨⟨kind, metric, tags⟩, value, second⟩ := p
  obtain ⟨⟨kind', metric', tags'⟩, value', second'⟩ := p'
  simp only at hmetric hkind hsecond hvalue htags
  rw [hmetric, MetricKind.name_injective hkind, Json.repr_injective hsecond, hvalue, htags]

section

variable {host host' : String} {points points' : List Point} {entries : List Json}

theorem says_entries (h : ∀ p ∈ points, p.value.isFinite = true) :
    List.Forall₂ (Says host) points (points.map (entry host)) := by
  induction points with
  | nil => exact .nil
  | cons p points ih =>
    rw [List.forall_mem_cons] at h
    exact .cons (says_entry host h.1) (ih h.2)

theorem points_unique (h : List.Forall₂ (Says host) points entries)
    (h' : List.Forall₂ (Says host') points' entries) : points = points' := by
  induction h generalizing points' with
  | nil =>
    cases h'
    rfl
  | cons hp _ ih =>
    cases h' with
    | cons hp' hps' => rw [(hp.unique hp').2, ih hps']

theorem host_unique (hne : points ≠ []) (h : List.Forall₂ (Says host) points entries)
    (h' : List.Forall₂ (Says host') points' entries) : host = host' := by
  cases h with
  | nil => exact absurd rfl hne
  | cons hp _ =>
    cases h' with
    | cons hp' _ => exact (hp.unique hp').1

end

/-! ## What is received -/

/-- What a receiver reads of a number: a text that is read back as it, or `null`
for one that is not finite. -/
def Stands (x : Binary64) (value : Json) : Prop :=
  if x.isFinite then ∃ text, value = .number text ∧ Binary64.read? text = some x else value = .null

/-- The entry tells of the point, whatever its value. -/
def Tells (host : String) (p : Point) (entry : Json) : Prop :=
  ∃ value, Stands p.value value ∧ entry = .object
    [("metric", .string p.key.metric),
     ("type", .string (match p.key.kind with | .gauge => "gauge" | .count => "count")),
     ("points", .array [.array [.number p.second.repr, value]]),
     ("host", .string host),
     ("tags", .array (p.key.tags.map .string))]

/-- What a receiver reads in the body: an entry for each of the points, in their
order. -/
def Carries (host : String) (points : List Point) (body : String) : Prop :=
  ∃ entries, Json.read? body = some (.object [("series", .array entries)]) ∧
    List.Forall₂ (Tells host) points entries

theorem tells_entry (host : String) (p : Point) : Tells host p (entry host p) := by
  refine ⟨Json.ofBinary64 p.value, ?_, ?_⟩
  · unfold Stands
    split
    · next h => exact ⟨_, Json.ofBinary64_finite h, Json.numberLayout.read?_text h⟩
    · next h => exact if_neg h
  · obtain ⟨⟨kind, metric, tags⟩, value, second⟩ := p
    cases kind <;> rfl

/-- **A body carries its points.** -/
theorem carries_body (host : String) (points : List Point) : Carries host points (body host points) := by
  refine ⟨points.map (entry host), read?_body host points, ?_⟩
  rw [List.forall₂_map_right_iff]
  exact List.forall₂_same.2 fun p _ => tells_entry host p

end Submission

open Delivery (Url)

/-- The request submits these points: it is posted to the address with the key,
and they are what a receiver reads in its body. -/
structure Delivery.Request.Submits (r : Delivery.Request) (url : Url) (key : ApiKey) (host : String)
    (points : List Point) : Prop where
  method : r.method = "POST"
  target : r.target = url.target
  headers : r.headers = url.headers ++ SeriesClient.headers key
  key : r.header? "DD-API-KEY" = some key.secret
  body : r.body = Submission.body host points
  carries : Submission.Carries host points r.body

namespace SeriesClient

theorem header?_request (url : Url) (key : ApiKey) (host : String) (points : List Point) :
    (request url key host points).header? "DD-API-KEY" = some key.secret := by
  rcases hurl : url.credentials with _ | text <;>
    simp [Delivery.Request.header?, request, Url.headers, headers, hurl]

theorem submits_request (url : Url) (key : ApiKey) (host : String) (points : List Point) :
    (request url key host points).Submits url key host points :=
  ⟨rfl, rfl, rfl, header?_request url key host points, rfl, Submission.carries_body host points⟩

theorem takesSeries_of_url? {host : String} {key : ApiKey} {options : DeliveryOptions}
    {backend : Delivery.Backend} {s : SeriesClient} (h : create host key options backend = .ok s)
    {url : Url} (hurl : s.url? = some url) : url.TakesSeries backend.plainName options.apiUrl := by
  rw [create_eq_ok h] at hurl
  exact Url.takesSeries_of_read? hurl

theorem url?_of_base {host : String} {key : ApiKey} {options : DeliveryOptions}
    {backend : Delivery.Backend} {s : SeriesClient} (h : create host key options backend = .ok s)
    {base : Url} (hbase : Url.IsBase backend.plainName options.apiUrl base) :
    ∃ before, s.url? = some { base with target := before ++ "/api/v1/series" } := by
  rw [create_eq_ok h]
  exact hbase.exists_read?

/-- Where the backend listens at the base address, whatever is asked for there,
every submission gets through. -/
theorem request?_of_base {host : String} {key : ApiKey} {options : DeliveryOptions}
    {backend : Delivery.Backend} {s : SeriesClient} (h : create host key options backend = .ok s)
    (hkey : Delivery.Backend.canCarry key.secret = true) {base : Url}
    (hbase : Url.IsBase backend.plainName options.apiUrl base)
    (hlistens : ∀ target, backend.listensAt { base with target } = true) :
    ∃ before, ∀ points, s.request? points =
      some (request { base with target := before ++ "/api/v1/series" } key host points) := by
  obtain ⟨before, hurl⟩ := url?_of_base h hbase
  refine ⟨before, fun points => ?_⟩
  rw [request?, hurl, create_eq_ok h, if_pos hkey, Option.filter_some, if_pos (hlistens _)]
  rfl

end SeriesClient

namespace Submission

theorem received_submit (s : SeriesClient) :
    s.submit.1.backend.received = s.backend.received ∨
      ∃ r : Delivery.Request, r.body = body s.host s.pending ∧
        s.submit.1.backend.received = s.backend.received ++ [r] := by
  by_cases h : s.pending = []
  · rw [SeriesClient.submit_empty h]
    exact .inl rfl
  rw [SeriesClient.submit_points h, s.post_eq]
  cases hr : s.request? s.pending with
  | none => exact .inl rfl
  | some r =>
    obtain ⟨url, -, rfl⟩ := SeriesClient.request?_eq_some hr
    exact .inr ⟨_, rfl, rfl⟩

/-- **A submission says what was buffered.** Where the values are finite, and there is a
point, the body has no control character and is one text of JSON: an object with one field,
whose entries say of the points, one for each and in their order, what they are. Nothing
else has this body, neither other points nor another host, and it is what a client submits
that has this host and these points. -/
theorem body_says_points (host : String) {points : List Point} (hne : points ≠ [])
    (hfinite : ∀ p ∈ points, p.value.isFinite = true) :
    (∀ c ∈ (body host points).toList, 0x20 ≤ c.toNat) ∧
    (∃ entries, Json.read? (body host points) = some (.object [("series", .array entries)]) ∧
      List.Forall₂ (Says host) points entries) ∧
    (∀ host' points', (∀ p ∈ points', p.value.isFinite = true) →
      body host points = body host' points' → host = host' ∧ points = points') ∧
    (∀ s : SeriesClient, s.host = host → s.pending = points →
      s.submit.1.backend.received = s.backend.received ∨
        ∃ r : Delivery.Request, r.body = body host points ∧
          s.submit.1.backend.received = s.backend.received ++ [r]) := by
  refine ⟨?_, ⟨_, read?_body host points, says_entries hfinite⟩, ?_, ?_⟩
  · intro c hc
    rw [body, String.toList_ofList] at hc
    exact Json.not_control (written_json host points) c hc
  · intro host' points' hfinite' hbody
    have hread := read?_body host points
    rw [hbody, read?_body, json, json] at hread
    simp only [Option.some.injEq, Json.object.injEq, List.cons.injEq, Prod.mk.injEq,
      Json.array.injEq, true_and, and_true] at hread
    have hsays : List.Forall₂ (Says host) points (points'.map (entry host')) :=
      hread ▸ says_entries hfinite
    have hsays' : List.Forall₂ (Says host') points' (points'.map (entry host')) :=
      says_entries hfinite'
    exact ⟨host_unique hne hsays hsays', points_unique hsays hsays'⟩
  · rintro s rfl rfl
    exact received_submit s

/-- Marks of JSON in every string, a control character, a tag twice and one that is empty, a
zero with the minus sign and a second before the first. -/
theorem body_says_points_marks :
    let host := "h\"\x7d"
    let points : List Point :=
      [⟨⟨.gauge, "a\\\"],\x01", ["x,y", "x,y", ""]⟩, .finite true .zero, -5⟩,
        ⟨⟨.count, "\x7b", []⟩, .ofNat 3, 7⟩]
    points ≠ [] ∧ (∀ p ∈ points, p.value.isFinite = true) ∧
    body host points =
      "\x7b\"series\":[\x7b\"metric\":\"a\\\\\\\"],\\u0001\",\"type\":\"gauge\"" ++
      ",\"points\":[[-5,-0.0]],\"host\":\"h\\\"\x7d\",\"tags\":[\"x,y\",\"x,y\",\"\"]\x7d" ++
      ",\x7b\"metric\":\"\x7b\",\"type\":\"count\",\"points\":[[7,3.0]]" ++
      ",\"host\":\"h\\\"\x7d\",\"tags\":[]\x7d]\x7d" ∧
    ∃ entries, Json.read? (body host points) = some (.object [("series", .array entries)]) ∧
      List.Forall₂ (Says host) points entries := by
  intro host points
  have hne : points ≠ [] := by simp [points]
  have hfinite : ∀ p ∈ points, p.value.isFinite = true := by decide +kernel
  exact ⟨hne, hfinite, by decide +kernel, (body_says_points host hne hfinite).2.1⟩

end Submission

end MetricStream
