/-
The diagnostic of a failed session: is it one line?

Whatever a message tells of the command line is quoted, and all else in it is
the program's own words and numbers, so none of it breaks the line. The answer
of the backend is the exception: its body is told as it came. A diagnostic is
one line exactly if such a body is, where it tells one (`diagnostic_line_iff`);
a body of two lines makes it two (`diagnostic_of_two_lines`).
-/
import MetricStream.Program
import MetricStream.Proofs.Session.Submissions
import MetricStream.Proofs.Text.Printable

namespace MetricStream

open SeriesClient (client)
open Text (Printable SingleLine printable_append printable_of_plain printable_quote)

/-! ## The texts of errors -/

theorem Duration.ReadError.printable_message (e : ReadError) : Printable e.message := by
  have hinvalid : Printable "invalid duration " := printable_of_plain (by decide +kernel)
  have hduration : Printable "duration " := printable_of_plain (by decide +kernel)
  have hrange : Printable " is out of range" := printable_of_plain (by decide +kernel)
  unfold message
  split
  · exact printable_append.2 ⟨hinvalid, printable_quote _⟩
  · exact printable_append.2 ⟨printable_append.2 ⟨hduration, printable_quote _⟩, hrange⟩

theorem OperandError.printable_chain (e : OperandError) : ∀ text ∈ e.chain, Printable text := by
  have hexpected : Printable "missing operand: expected " := printable_of_plain (by decide +kernel)
  have hfound : Printable ", found " := printable_of_plain (by decide +kernel)
  have hinvalid : Printable "invalid value " := printable_of_plain (by decide +kernel)
  have hvalue : Printable "value " := printable_of_plain (by decide +kernel)
  have hfinite : Printable " is not a finite number" := printable_of_plain (by decide +kernel)
  have hreason (typed : String) : Printable (numberReason typed) := by
    unfold numberReason
    split <;> exact printable_of_plain (by decide +kernel)
  cases e with
  | missing => simp [chain, Text.printable_repr, hexpected, hfound]
  | malformedNumber => simp [chain, printable_quote, hinvalid, hreason]
  | nonFinite => simp [chain, printable_quote, hvalue, hfinite]
  | duration cause => simp [chain, cause.printable_message]

theorem RunError.printable_message (e : RunError) : Printable e.message := by
  have hunknown : Printable "unknown command: " := printable_of_plain (by decide +kernel)
  have hcmd : Printable "cmd " := printable_of_plain (by decide +kernel)
  have hfailed : Printable " failed" := printable_of_plain (by decide +kernel)
  unfold message
  split
  · exact printable_append.2 ⟨hunknown, printable_quote _⟩
  · exact printable_append.2 ⟨printable_append.2 ⟨hcmd, printable_quote _⟩, hfailed⟩

theorem ClientError.printable_message {e : ClientError} (h : ∀ code body, e ≠ .status code body) :
    Printable e.message := by
  have hvalue : Printable "value for " := printable_of_plain (by decide +kernel)
  have hfinite : Printable " is not a finite number" := printable_of_plain (by decide +kernel)
  unfold message
  split
  case h_4 code body => exact absurd rfl (h code body)
  case h_5 => exact printable_append.2 ⟨printable_append.2 ⟨hvalue, printable_quote _⟩, hfinite⟩
  all_goals exact printable_of_plain (by decide +kernel)

/-- What is unprintable in the text of a client's error is so in the answer that
it tells. -/
theorem ClientError.mem_message {e : ClientError} {c : Char} (hc : Text.isUnprintable c = true) :
    c ∈ e.message.toList ↔ ∃ code body, e = .status code body ∧ c ∈ body.toList := by
  have hrejected : Printable "backend rejected submission with status " :=
    printable_of_plain (by decide +kernel)
  have hsep : Printable ": " := printable_of_plain (by decide +kernel)
  by_cases hstatus : ∃ code body, e = .status code body
  · obtain ⟨code, body, rfl⟩ := hstatus
    unfold message
    simp only [String.toList_append, List.mem_append, hrejected.notMem hc, hsep.notMem hc,
      (Text.printable_repr code).notMem hc, false_or]
    simp
  · rw [not_exists] at hstatus
    have hprintable := printable_message fun code body he => hstatus code ⟨body, he⟩
    exact iff_of_false (hprintable.notMem hc) fun ⟨code, body, he, _⟩ => hstatus code ⟨body, he⟩

/-- The texts of a session's error are its own, which are printable, and last the
client's, if the client is why it failed. -/
theorem SessionError.chain_eq (e : SessionError) :
    ∃ own, (∀ text ∈ own, Printable text) ∧
      e.chain = own ++ (e.client?.map ClientError.message).toList := by
  match e with
  | .run (.unknownCommand typed) =>
    exact ⟨[_], by simpa using RunError.printable_message (.unknownCommand typed), rfl⟩
  | .run (.commandFailed typed (.operand cause)) =>
    refine ⟨RunError.message (.commandFailed typed (.operand cause)) :: cause.chain, ?_,
      (List.append_nil _).symm⟩
    exact List.forall_mem_cons.2 ⟨RunError.printable_message _, cause.printable_chain⟩
  | .run (.commandFailed typed (.client cause)) =>
    exact ⟨[_], by simpa using RunError.printable_message (.commandFailed typed (.client cause)), rfl⟩
  | .close cause =>
    have hclose : Printable "unable to close metrics client" := printable_of_plain (by decide +kernel)
    exact ⟨[_], List.forall_mem_singleton.2 hclose, rfl⟩

/-! ## The diagnostic -/

/-- A line break in the diagnostic is one of the answer that it tells. -/
theorem SessionError.mem_report {http : List String} (hhttp : ∀ text ∈ http, SingleLine text)
    (e : SessionError) {c : Char} (hc : c ∈ Text.lineBreaks) :
    c ∈ (e.report http).toList ↔
      ∃ code body, e.client? = some (.status code body) ∧ c ∈ body.toList := by
  have hunprintable := Text.isUnprintable_of_lineBreak hc
  have hsep : Printable ": " := printable_of_plain (by decide +kernel)
  have hsources (text : String) (h : text ∈ e.client?.elim [] (ClientError.sources http)) :
      c ∉ text.toList := by
    cases hclient : e.client? with
    | none => simp [hclient] at h
    | some cause =>
      rw [hclient, Option.elim_some] at h
      cases cause <;> first | exact hhttp text h c hc | exact absurd h List.not_mem_nil
  obtain ⟨own, hown, hchain⟩ := e.chain_eq
  rw [report, Text.mem_intercalate (hsep.notMem hunprintable), hchain]
  simp only [List.mem_append, Option.mem_toList, Option.map_eq_some_iff, or_and_right, exists_or]
  constructor
  · rintro ((⟨text, htext, hmem⟩ | ⟨_, ⟨cause, hcause, rfl⟩, hmem⟩) | ⟨text, htext, hmem⟩)
    · exact absurd hmem ((hown text htext).notMem hunprintable)
    · obtain ⟨code, body, rfl, hbody⟩ := (ClientError.mem_message hunprintable).1 hmem
      exact ⟨code, body, hcause, hbody⟩
    · exact absurd hmem (hsources text htext)
  · rintro ⟨code, body, hcause, hbody⟩
    exact .inl (.inr ⟨_, ⟨_, hcause, rfl⟩, (ClientError.mem_message hunprintable).2 ⟨code, body, rfl, hbody⟩⟩)

theorem SessionError.singleLine_report {http : List String} (hhttp : ∀ text ∈ http, SingleLine text)
    (e : SessionError) :
    SingleLine (e.report http) ↔
      ∀ code body, e.client? = some (.status code body) → SingleLine body := by
  constructor
  · intro h code body hcause c hc hbody
    exact h c hc ((e.mem_report hhttp hc).2 ⟨code, body, hcause, hbody⟩)
  · intro h c hc hmem
    obtain ⟨code, body, hcause, hbody⟩ := (e.mem_report hhttp hc).1 hmem
    exact h code body hcause c hc hbody

/-! ## What a failed run prints -/

namespace Program

/-- A text to the standard error that is no log line. -/
def Output.complaint? : Output → Option String
  | .complaint text => some text
  | _ => none

theorem complaint?_of_occurrence {logger : Logger} {occurrence : Occurrence} {output : Output}
    (h : output ∈ logger.ofOccurrence occurrence) : output.complaint? = none := by
  cases occurrence with
  | called call => cases h
  | logged event =>
    simp only [Logger.ofOccurrence, Logger.outputs] at h
    split at h
    · obtain rfl := List.mem_singleton.1 h
      rfl
    · cases h
  | paused d =>
    obtain rfl := List.mem_singleton.1 h
    rfl

theorem complaints_of_failed {σ : Type} {o : Outcome σ SessionError Nat} {e : SessionError}
    (he : o.result = .error e) (http : List String) (logger : Logger) (opening : List Output)
    (backend : Delivery.Backend) :
    (finished http logger opening o backend).outputs.filterMap Output.complaint? =
      opening.filterMap Output.complaint? ++ [CommandLine.program ++ ": " ++ e.report http ++ "\n"] := by
  have htrace : (o.trace.flatMap logger.ofOccurrence).filterMap Output.complaint? = [] := by
    rw [List.filterMap_eq_nil_iff]
    intro output h
    obtain ⟨occurrence, -, h⟩ := List.mem_flatMap.1 h
    exact complaint?_of_occurrence h
  simp [finished, he, failed, htrace, Output.complaint?, Failure.line, Failure.report]

end Program

/-- **Where a diagnostic is one line.** A failed session of a new client is told
of in one text. This holds a line break exactly if it tells of an answer whose
body holds one. The answer is the backend's to the last request of the session,
a refusal, and nothing of its body is quoted. The texts `http` of the library
that carries requests are of one line each. -/
theorem diagnostic_line_iff {host : String} {key : ApiKey} {options : DeliveryOptions}
    {backend : Delivery.Backend} {s : SeriesClient}
    (hnew : SeriesClient.create host key options backend = .ok s) (ctx : Context)
    (tokens : List String) (now : Instant) {e : SessionError}
    (he : (execute ctx client tokens ⟨s, now⟩).result = .error e) {http : List String}
    (hhttp : ∀ text ∈ http, SingleLine text) :
    let o := execute ctx client tokens ⟨s, now⟩
    (SingleLine (e.report http) ↔
      ∀ code body, e.client? = some (.status code body) → SingleLine body) ∧
    (∀ code body, e.client? = some (.status code body) → ∃ i octets,
      backend.received.length ≤ i ∧ o.world.client.backend.received.length = i + 1 ∧
      (backend.script i).arriving = .answered code octets ∧ (backend.script i).isAccepted = false ∧
      body = String.ofList (Text.Octets.decodeMarked octets)) ∧
    ∀ logger : Program.Logger,
      (Program.finished http logger [] o o.world.client.backend).outputs.filterMap
        Program.Output.complaint? = ["dogcmd: " ++ e.report http ++ "\n"] := by
  intro o
  refine ⟨e.singleLine_report hhttp, ?_, ?_⟩
  · intro code body hcause
    have hbackend : s.backend = backend := by rw [SeriesClient.create_eq_ok hnew]
    obtain ⟨early, t, late, hturns, haccepted, -, hlate, hrefusal⟩ :=
      session_turns ctx tokens ⟨s, now⟩ (SeriesClient.create_fresh hnew).2
    obtain ⟨a, ha, hjudge⟩ := hrefusal e _ he hcause
    obtain ⟨octets, hreply, hrefused, hbody⟩ := SeriesClient.judge_eq_status.1 hjudge
    obtain ⟨i, hi, hlast, hscript⟩ := reply_of_last haccepted hlate ha (by simp [hreply])
    have hclient : o.world.client = client.after (early ++ t :: late) s :=
      hturns ▸ execute_client ctx client tokens ⟨s, now⟩
    rw [hreply] at hscript hrefused
    refine ⟨i, octets, hbackend ▸ hi, ?_, hbackend ▸ hscript.symm, ?_, hbody⟩
    · rw [hclient]
      exact hlast
    · rw [← hbackend, ← Delivery.Reply.isAccepted_arriving]
      exact hscript ▸ hrefused
  · intro logger
    rw [Program.complaints_of_failed he]
    rfl

/-- A flush is refused with a body of one line. -/
theorem diagnostic_line_iff_over_quota :
    let options : DeliveryOptions := ⟨"http://127.0.0.1:47125", .ofMillis 5000⟩
    let backend : Delivery.Backend :=
      .plain "127.0.0.1" 47125 fun _ => .answered 429 ("over quota".toList.map fun c => c.toNat.toUInt8)
    ∃ s : SeriesClient, SeriesClient.create "web-01" ⟨"secret"⟩ options backend = .ok s ∧
      let e : SessionError := .run (.commandFailed "flush" (.client (.status 429 "over quota")))
      (execute .bare client ["incr", "hits", "flush"] ⟨s, .ofSeconds 10⟩).result = .error e ∧
      SingleLine (e.report []) := by
  intro options backend
  have hnew : SeriesClient.create "web-01" ⟨"secret"⟩ options backend =
      .ok (.fresh "web-01" options backend ⟨"secret"⟩) :=
    SeriesClient.create_nonblank _ _ _ (by decide)
  refine ⟨_, hnew, ?_⟩
  intro e
  have he : (execute .bare client ["incr", "hits", "flush"]
      ⟨.fresh "web-01" options backend ⟨"secret"⟩, .ofSeconds 10⟩).result = .error e := by
    decide +kernel
  obtain ⟨hline, -⟩ := diagnostic_line_iff hnew .bare ["incr", "hits", "flush"] (.ofSeconds 10) he
    (List.forall_mem_nil _)
  refine ⟨he, hline.2 fun code body hcause => ?_⟩
  cases hcause
  decide +kernel

/-- A flush is refused with a body of two lines, and so is the diagnostic of two
lines. -/
theorem diagnostic_of_two_lines :
    let options : DeliveryOptions := ⟨"http://127.0.0.1:47125", .ofMillis 5000⟩
    let backend : Delivery.Backend :=
      .plain "127.0.0.1" 47125 fun _ => .answered 500 ("first\nsecond".toList.map fun c => c.toNat.toUInt8)
    ∃ s : SeriesClient, SeriesClient.create "h" ⟨"k"⟩ options backend = .ok s ∧
      ∃ e, (execute .bare client ["incr", "x", "flush"] ⟨s, .ofSeconds 10⟩).result = .error e ∧
        (Program.Failure.session e).line [] =
          "dogcmd: cmd \"flush\" failed: backend rejected submission with status 500: first\nsecond" ∧
        ¬ SingleLine (e.report []) := by
  intro options backend
  refine ⟨_, if_neg (by decide), .run (.commandFailed "flush" (.client (.status 500 "first\nsecond"))), ?_⟩
  decide +kernel

end MetricStream
