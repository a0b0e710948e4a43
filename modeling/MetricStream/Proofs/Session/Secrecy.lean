/-
What the API key has an influence on.

A key goes into one header of each request, and nothing else that a client or a
session does, reports or comes to depends on it. Two clients that differ in their
keys are in lockstep, so there is nothing that could tell one key from another but
that header (`key_only_in_its_header`). A key of nothing but blanks is none: it
makes no client, and nothing is ever sent with it.
-/
import Mathlib.Data.List.Forall2
import MetricStream.Program
import MetricStream.Proofs.Session.Lockstep
import MetricStream.Proofs.Series.Posting

namespace MetricStream

open Delivery (Request Backend)

/-- A key that is not blank and can be written in a header. -/
structure ApiKey.Usable (key : ApiKey) : Prop where
  nonblank : Text.trim key.secret.toList ≠ []
  legal : Backend.canCarry key.secret = true

/-- Two requests with a key each in the header for it, and otherwise the same. -/
structure Delivery.Request.SameButKey (key key' : ApiKey) (r r' : Request) : Prop where
  method : r.method = r'.method
  target : r.target = r'.target
  body : r.body = r'.body
  others : r.headers.filter (·.1 ≠ "DD-API-KEY") = r'.headers.filter (·.1 ≠ "DD-API-KEY")
  left : r.headers.filter (·.1 = "DD-API-KEY") = [("DD-API-KEY", key.secret)]
  right : r'.headers.filter (·.1 = "DD-API-KEY") = [("DD-API-KEY", key'.secret)]

/-- Two backends have received the same requests after these, up to keys. -/
def SentAlike (received : List Request) (key key' : ApiKey) (b b' : Backend) : Prop :=
  ∃ sent sent', b.received = received ++ sent ∧ b'.received = received ++ sent' ∧
    List.Forall₂ (Request.SameButKey key key') sent sent'

theorem SentAlike.nothing (key key' : ApiKey) (b : Backend) : SentAlike b.received key key' b b :=
  ⟨[], [], (List.append_nil _).symm, (List.append_nil _).symm, .nil⟩

namespace SeriesClient

/-- Two clients with a key each, and otherwise the same, whose backends have
received the same requests up to keys. -/
structure SameButKey (received : List Request) (key key' : ApiKey) (s t : SeriesClient) : Prop where
  left : s.apiKey = key
  right : t.apiKey = key'
  host : s.host = t.host
  address : s.address = t.address
  pending : s.pending = t.pending
  closed : s.closed = t.closed
  listener : t.backend = { s.backend with received := t.backend.received }
  sent : SentAlike received key key' s.backend t.backend

section

variable {received : List Request} {key key' : ApiKey} {s t : SeriesClient}

theorem SameButKey.length_received (h : SameButKey received key key' s t) :
    s.backend.received.length = t.backend.received.length := by
  obtain ⟨sent, sent', hs, ht, hsame⟩ := h.sent
  rw [hs, ht, List.length_append, List.length_append, hsame.length_eq]

theorem SameButKey.url? (h : SameButKey received key key' s t) : s.url? = t.url? := by
  rw [SeriesClient.url?, SeriesClient.url?, h.address, h.listener]

/-- The headers of a request hold the key once, and the others are the same with
every key. -/
theorem sameButKey_request (key key' : ApiKey) (url : Delivery.Url) (host : String)
    (points : List Point) :
    Request.SameButKey key key' (request url key host points) (request url key' host points) := by
  have hothers : ∀ h ∈ url.headers, h.1 ≠ "DD-API-KEY" := by
    simp [Delivery.Url.headers]
  have hnone : url.headers.filter (·.1 = "DD-API-KEY") = [] :=
    List.filter_eq_nil_iff.2 fun h hmem => by simpa using hothers h hmem
  constructor <;> simp [request, headers, hnone]

section

variable (hkey : Backend.canCarry key.secret = true) (hkey' : Backend.canCarry key'.secret = true)
include hkey hkey'

/-- A submission gets through with either key or with none, as the same request up
to the key. -/
theorem SameButKey.request? (h : SameButKey received key key' s t) (points : List Point) :
    Option.Rel (Request.SameButKey key key') (s.request? points) (t.request? points) := by
  rw [SeriesClient.request?, SeriesClient.request?, h.left, h.right, if_pos hkey, if_pos hkey',
    h.url?, h.host, h.listener]
  rcases t.url?.filter s.backend.listensAt with _ | url
  · exact .none
  · exact .some (sameButKey_request key key' url t.host points)

/-- What comes back does not depend on the key: the backend goes by the number of
requests that it has received. -/
theorem SameButKey.reply (h : SameButKey received key key' s t) (points : List Point) :
    (s.post points).2 = (t.post points).2 := by
  have hrequest := h.request? hkey hkey' points
  rw [post_eq, post_eq]
  generalize s.request? points = r, t.request? points = r' at hrequest
  cases hrequest with
  | none => rfl
  | some _ =>
    dsimp only
    rw [h.length_received, h.listener]

theorem SameButKey.attempt? (h : SameButKey received key key' s t) (call : Call) :
    s.attempt? call = t.attempt? call := by
  rw [SeriesClient.attempt?, SeriesClient.attempt?, h.closed, h.pending, h.reply hkey hkey']

theorem SameButKey.request (h : SameButKey received key key' s t) (call : Call) :
    List.Forall₂ (Request.SameButKey key key')
      ((s.attempt? call).toList.filterMap fun a => s.request? a.points)
      ((t.attempt? call).toList.filterMap fun a => t.request? a.points) := by
  rw [h.attempt? hkey hkey']
  rcases t.attempt? call with _ | a
  · exact .nil
  have hrequest := h.request? hkey hkey' a.points
  simp only [Option.toList_some, List.filterMap_cons, List.filterMap_nil]
  generalize s.request? a.points = r, t.request? a.points = r' at hrequest
  cases hrequest with
  | none => exact .nil
  | some hsame => exact .cons hsame .nil

theorem SameButKey.answers (h : SameButKey received key key' s t) (turn : Turn) :
    (client.answer turn.now turn.call s).2 = (client.answer turn.now turn.call t).2 := by
  rw [answer_by_attempt, answer_by_attempt, h.closed, h.attempt? hkey hkey']

theorem SameButKey.states (h : SameButKey received key key' s t) (turn : Turn) :
    SameButKey received key key' (client.answer turn.now turn.call s).1
      (client.answer turn.now turn.call t).1 := by
  have hpending : (client.answer turn.now turn.call s).1.pending =
      (client.answer turn.now turn.call t).1.pending := by
    rw [pending_answer, pending_answer, h.closed, h.pending]
  have hclosed : (client.answer turn.now turn.call s).1.closed =
      (client.answer turn.now turn.call t).1.closed := by
    rw [closed_answer, closed_answer, h.closed]
  obtain ⟨pending, closed, hs⟩ := answer_frame turn s
  obtain ⟨pending', closed', ht⟩ := answer_frame turn t
  rw [hs, ht] at hpending hclosed ⊢
  refine ⟨h.left, h.right, h.host, h.address, hpending, hclosed, ?_, ?_⟩
  · rw [h.listener]
  · obtain ⟨sent, sent', hsent, hsent', hsame⟩ := h.sent
    refine ⟨sent ++ _, sent' ++ _, ?_, ?_, List.rel_append hsame (h.request hkey hkey' turn.call)⟩
    · simp only [hsent, List.append_assoc]
    · simp only [hsent', List.append_assoc]

end

/-- **Keys do not tell clients apart.** -/
theorem lockstep_sameButKey (hkey : key.Usable) (hkey' : key'.Usable) :
    Lockstep client client (SameButKey received key key') where
  answers h now call := h.answers hkey.legal hkey'.legal ⟨now, call⟩
  states h now call := h.states hkey.legal hkey'.legal ⟨now, call⟩

end

/-! ## New clients -/

section

variable (host : String) {key key' : ApiKey} (options : DeliveryOptions) (backend : Backend)

theorem sameButKey_fresh : SameButKey backend.received key key' (fresh host options backend key)
    (fresh host options backend key') :=
  ⟨rfl, rfl, rfl, rfl, rfl, rfl, rfl, .nothing key key' backend⟩

end

end SeriesClient

/-! ## What is put out -/

namespace Program

theorem finished_backend {σ : Type} (http : List String) (logger : Logger) (opening : List Output)
    (o : Outcome σ SessionError Nat) (backend : Backend) :
    (finished http logger opening o backend).backend = backend := by
  unfold finished
  split <;> rfl

theorem finished_alike {σ τ : Type} {R : σ → τ → Prop} {o : Outcome σ SessionError Nat}
    {o' : Outcome τ SessionError Nat} (h : o.Alike R o') (http : List String) (logger : Logger)
    (opening : List Output) (backend backend' : Backend) :
    (finished http logger opening o backend).exitCode =
      (finished http logger opening o' backend').exitCode ∧
    (finished http logger opening o backend).outputs =
      (finished http logger opening o' backend').outputs := by
  unfold finished
  rw [h.result, h.trace]
  rcases o'.result with e | n
  · exact ⟨rfl, rfl⟩
  · exact ⟨rfl, rfl⟩

variable (settings : Settings) (logger : Logger) (commands : List String) (s : Surroundings)

/-- Runs the commands with the key. -/
def runWith (key : ApiKey) : Run :=
  runCommands { settings with apiKey := some key } logger commands s

theorem runWith_blank {key : ApiKey} (h : Text.trim key.secret.toList = []) :
    (runWith settings logger commands s key).backend = s.backend := by
  unfold runWith runCommands
  split
  · rw [finished_backend]
  · simp only [Option.getD_some, SeriesClient.create_blank _ _ _ h]
    rfl

theorem runWith_alike {key key' : ApiKey} (hkey : key.Usable) (hkey' : key'.Usable) :
    (runWith settings logger commands s key).exitCode =
      (runWith settings logger commands s key').exitCode ∧
    (runWith settings logger commands s key).outputs =
      (runWith settings logger commands s key').outputs ∧
    SentAlike s.backend.received key key' (runWith settings logger commands s key).backend
      (runWith settings logger commands s key').backend := by
  unfold runWith runCommands
  cases settings.dryRun with
  | true =>
    simp only [if_true, finished_backend, true_and]
    exact .nothing key key' s.backend
  | false =>
    have hsession := (SeriesClient.lockstep_sameButKey hkey hkey').alike_execute
      (SeriesClient.sameButKey_fresh settings.host settings.delivery s.backend)
      settings.context commands s.now
    simp only [Bool.false_eq_true, if_false, Option.getD_some, finished_backend,
      SeriesClient.create_nonblank _ _ _ hkey.nonblank,
      SeriesClient.create_nonblank _ _ _ hkey'.nonblank]
    obtain ⟨hcode, houtputs⟩ := finished_alike hsession s.http logger
      ((contextEvents settings.context).flatMap logger.outputs) _ _
    exact ⟨hcode, houtputs, hsession.client.sent⟩

end Program

open SeriesClient (client)

/-- **The API key shows in its header only.** Two new clients with usable keys, and
otherwise the same, answer alike and hold the same points whatever they are asked;
their sessions come to the same result or error, with the same calls, events and
pauses; and what the program puts out with the one key is what it puts out with the
other. The requests are the same, one by one, but for the header that holds the key
of their own client, as it was given. A key of nothing but blanks makes no client,
and nothing is sent with it. -/
theorem key_only_in_its_header (host : String) (options : DeliveryOptions) (backend : Backend) :
    (∀ key key' : ApiKey, key.Usable → key'.Usable →
      ∃ s s', SeriesClient.create host key options backend = .ok s ∧
        SeriesClient.create host key' options backend = .ok s' ∧
        (∀ turns, client.exchanges turns s = client.exchanges turns s' ∧
          (client.after turns s).pending = (client.after turns s').pending ∧
          SentAlike backend.received key key' (client.after turns s).backend
            (client.after turns s').backend) ∧
        (∀ ctx tokens now,
          let o := execute ctx client tokens ⟨s, now⟩
          let o' := execute ctx client tokens ⟨s', now⟩
          o.result = o'.result ∧ o.events = o'.events ∧ o.trace = o'.trace ∧
          o.world.client.pending = o'.world.client.pending ∧
          SentAlike backend.received key key' o.world.client.backend o'.world.client.backend) ∧
        ∀ settings logger commands surroundings,
          let run := Program.runWith settings logger commands surroundings
          (run key).exitCode = (run key').exitCode ∧ (run key).outputs = (run key').outputs ∧
          SentAlike surroundings.backend.received key key' (run key).backend (run key').backend) ∧
    (∀ key : ApiKey, Text.trim key.secret.toList = [] →
      SeriesClient.create host key options backend = .error .missingApiKey ∧
      ∀ settings logger commands surroundings,
        (Program.runWith settings logger commands surroundings key).backend = surroundings.backend) := by
  constructor
  · intro key key' hkey hkey'
    have hlockstep : Lockstep client client
        (SeriesClient.SameButKey backend.received key key') :=
      SeriesClient.lockstep_sameButKey hkey hkey'
    have hfresh : SeriesClient.SameButKey backend.received key key'
        (SeriesClient.fresh host options backend key)
        (SeriesClient.fresh host options backend key') :=
      SeriesClient.sameButKey_fresh host options backend
    refine ⟨_, _, SeriesClient.create_nonblank host options backend hkey.nonblank,
      SeriesClient.create_nonblank host options backend hkey'.nonblank, fun turns => ?_,
      fun ctx tokens now => ?_, fun settings logger commands surroundings => ?_⟩
    · have hafter := hlockstep.after hfresh turns
      exact ⟨hlockstep.exchanges hfresh turns, hafter.pending, hafter.sent⟩
    · have hsession := hlockstep.alike_execute hfresh ctx tokens now
      exact ⟨hsession.result, hsession.events, hsession.trace, hsession.client.pending,
        hsession.client.sent⟩
    · exact Program.runWith_alike settings logger commands surroundings hkey hkey'
  · intro key hblank
    exact ⟨SeriesClient.create_blank host options backend hblank,
      fun settings logger commands surroundings =>
        Program.runWith_blank settings logger commands surroundings hblank⟩

/-- The backend refuses the request. A session with a key that holds a tab fails and
logs as another does, and the backend has seen the key of each. A tab and an em space
are no key. -/
theorem key_only_in_its_header_over_quota :
    let options : DeliveryOptions := ⟨"http://127.0.0.1:47125", .ofMillis 5000⟩
    let backend : Backend := .plain "127.0.0.1" 47125 fun _ => .answered 429 []
    let key : ApiKey := ⟨"alpha"⟩
    let key' : ApiKey := ⟨"beta\t1"⟩
    let blank : ApiKey := ⟨"\t\u2003"⟩
    key.Usable ∧ key'.Usable ∧ Text.trim blank.secret.toList = [] ∧
    SeriesClient.create "web-01" blank options backend = .error .missingApiKey ∧
    ∃ s s', SeriesClient.create "web-01" key options backend = .ok s ∧
      SeriesClient.create "web-01" key' options backend = .ok s' ∧
      let o := execute ⟨.empty, []⟩ client ["incr", "hits", "flush"] ⟨s, .ofSeconds 10⟩
      let o' := execute ⟨.empty, []⟩ client ["incr", "hits", "flush"] ⟨s', .ofSeconds 10⟩
      o'.result = .error (.run (.commandFailed "flush" (.client (.status 429 "")))) ∧
      o.result = o'.result ∧ o.events = o'.events ∧
      o.world.client.backend.received.map (·.header? "DD-API-KEY") = [some "alpha"] ∧
      o'.world.client.backend.received.map (·.header? "DD-API-KEY") = [some "beta\t1"] := by
  intro options backend key key' blank
  have hkey : key.Usable := ⟨by decide, by decide⟩
  have hkey' : key'.Usable := ⟨by decide, by decide⟩
  have hblank : Text.trim blank.secret.toList = [] := by decide
  obtain ⟨hpairs, hnone⟩ := key_only_in_its_header "web-01" options backend
  obtain ⟨s, s', hs, hs', -, hsessions, -⟩ := hpairs key key' hkey hkey'
  refine ⟨hkey, hkey', hblank, (hnone blank hblank).1, s, s', hs, hs', ?_⟩
  obtain ⟨hresult, hevents, -, -, -⟩ := hsessions ⟨.empty, []⟩ ["incr", "hits", "flush"] (.ofSeconds 10)
  cases hs.symm.trans (SeriesClient.create_nonblank "web-01" options backend hkey.nonblank)
  cases hs'.symm.trans (SeriesClient.create_nonblank "web-01" options backend hkey'.nonblank)
  exact ⟨by decide +kernel, hresult, hevents, by decide +kernel, by decide +kernel⟩

end MetricStream
