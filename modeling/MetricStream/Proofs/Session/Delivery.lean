/-
No silent loss: what the success of a session promises.

A session succeeds exactly if its tokens are commands to the last one that can
all be read, and every submission that it attempted, that of the close with the
others, was accepted (`session_ok_iff`). The close ends the last window, so
then every write of the session is in a window that was delivered after it
(`carried_after`).
-/
import MetricStream.Proofs.Series.Ledger
import MetricStream.Proofs.Session.Closing

namespace MetricStream

/-! ## Sessions of any client -/

section

variable {σ : Type} (ctx : Context) (client : Client σ) (tokens : List String) (w : World σ)

/-- **When a session succeeds.** -/
theorem execute_ok_iff {n : Nat} :
    (execute ctx client tokens w).result = .ok n ↔
      Complete ctx (cut tokens).2 (cut tokens).1 n ∧
      ∀ x ∈ client.exchanges (turnsOf w.now (execute ctx client tokens w).trace) w.client,
        x.answer = .ok () := by
  have hclient := (interpret_accounts ctx client tokens w).client_eq
  rw [execute_eq_ok, turnsOf_execute, client.exchanges_append, List.forall_mem_append, ← hclient,
    interpret_eq_follow (cut_spec tokens), follow_ok_iff, and_assoc]
  simp [Client.exchanges]

end

section

variable {σ : Type} {ctx : Context} {client : Client σ} {w : World σ} {before later : List Phrase}
  {p : Phrase} {call : Call} {n : Nat}

/-- Where a run succeeds, the run up to a command that makes a call is the first
part of it, and ends with this call. -/
theorem turns_of_follow_ok (h : (follow ctx client [] (before ++ p :: later) w).result = .ok n)
    (hcall : p.call? ctx = some call) :
    let done := follow ctx client [] (before ++ [p]) w
    (∃ earlier, turnsOf w.now done.trace = earlier ++ [⟨done.world.now, call⟩]) ∧
      ∃ late, (follow ctx client [] (before ++ p :: later) w).trace = done.trace ++ late := by
  obtain ⟨c, hc, hd⟩ := Phrase.call?_eq_some.1 hcall
  intro done
  have hsplit : follow ctx client [] (before ++ p :: later) w =
      done.andThen (follow ctx client [] later) := by
    rw [← follow_append, List.append_assoc, List.singleton_append]
  have hdone : done = (follow ctx client [] before w).andThen (follow ctx client [] [p]) :=
    follow_append [] before [p] w
  rcases hr : done.result with e | m
  · rw [hsplit, Outcome.andThen_error hr, hr] at h
    cases h
  rcases hr' : (follow ctx client [] before w).result with e | k
  · rw [hdone, Outcome.andThen_error hr', hr'] at hr
    cases hr
  have hnow := (follow_accounts ctx client [] before w).now_eq
  rw [Outcome.andThen_ok hr'] at hdone
  rcases ha : client.answer (follow ctx client [] before w).world.now call
    (follow ctx client [] before w).world.client with ⟨s, e | ⟨⟨⟩⟩⟩
  · rw [hdone, follow_refused [] hc hd ha] at hr
    cases hr
  · rw [follow_accepted [] hc hd ha] at hdone
    refine ⟨⟨turnsOf w.now (follow ctx client [] before w).trace, ?_⟩,
      (follow ctx client [] later done.world).trace, by rw [hsplit, Outcome.andThen_ok hr]⟩
    rw [hdone]
    simp [turnsOf_append, turnsOf, Outcome.afterOne, follow, hnow]

/-- The same of a session: after the call come others, and the close is among
them. -/
theorem turns_of_execute_ok {tokens : List String}
    (h : (execute ctx client tokens w).result = .ok n) (hcut : Cut tokens (before ++ p :: later) [])
    (hcall : p.call? ctx = some call) :
    let done := interpret ctx client ((before ++ [p]).flatMap Phrase.tokens) w
    (∃ earlier, turnsOf w.now done.trace = earlier ++ [⟨done.world.now, call⟩]) ∧
      ∃ late, turnsOf w.now (execute ctx client tokens w).trace = turnsOf w.now done.trace ++ late ∧
        ∃ t ∈ late, t.call = .close := by
  intro done
  have hinit : Cut tokens ((before ++ [p]) ++ later) [] := by
    rwa [List.append_assoc, List.singleton_append]
  have hdone : done = follow ctx client [] (before ++ [p]) w := interpret_eq_follow hinit.init w
  have hrun := (execute_eq_ok ctx client tokens w).1 h
  rw [interpret_eq_follow hcut] at hrun
  obtain ⟨hearlier, late, hlate⟩ := turns_of_follow_ok hrun.1 hcall
  rw [← hdone] at hearlier hlate
  have hturns := turnsOf_execute ctx client tokens w
  rw [interpret_eq_follow hcut, hlate, turnsOf_append, List.append_assoc] at hturns
  exact ⟨hearlier, _, hturns, _, List.mem_append_right _ (List.mem_singleton_self _), rfl⟩

end

/-! ## Sessions of the buffering client -/

open SeriesClient (client)

theorem session_accepted_iff {ctx : Context} {tokens : List String} {w : World SeriesClient}
    (hopen : w.client.closed = false) :
    (∀ x ∈ client.exchanges (turnsOf w.now (execute ctx client tokens w).trace) w.client,
        x.answer = .ok ()) ↔
      ∀ a ∈ SeriesClient.attempts (turnsOf w.now (execute ctx client tokens w).trace) w.client,
        a.reply.isAccepted = true := by
  have hsafe := safe_of_interpret ctx client tokens w
  have hrun := SeriesClient.exchanges_ok hopen (fun t ht => (hsafe t ht).1)
    fun t ht => (hsafe t ht).2
  have hclose := SeriesClient.answer_eq_ok
    (t := ⟨(interpret ctx client tokens w).world.now, .close⟩)
    (SeriesClient.closed_after hopen fun t ht => (hsafe t ht).1) (by simp [Turn.write?])
  rw [turnsOf_execute, client.exchanges_append, SeriesClient.attempts_append,
    List.forall_mem_append, List.forall_mem_append, hrun]
  simp only [Client.exchanges, SeriesClient.attempts, List.forall_mem_singleton, hclose,
    List.append_nil, Option.mem_toList]

theorem session_ok_iff {ctx : Context} {tokens : List String} {w : World SeriesClient} {n : Nat}
    (hopen : w.client.closed = false) :
    (execute ctx client tokens w).result = .ok n ↔
      Complete ctx (cut tokens).2 (cut tokens).1 n ∧
      ∀ a ∈ SeriesClient.attempts (turnsOf w.now (execute ctx client tokens w).trace) w.client,
        a.reply.isAccepted = true := by
  rw [execute_ok_iff, session_accepted_iff hopen]

/-- **A write is carried by a request after it.** If the client is closed at
last and every submission was accepted, then what is in the window now is in a
window that is submitted from now on, and a request that submits this window's
entries was received and accepted. -/
theorem carried_after {s : SeriesClient} (hp : s.pending = []) (hc : s.closed = false)
    {early late : List Turn} {w : Write}
    (hw : w ∈ (Ledger.of (client.exchanges early s)).window) (hclose : ∃ t ∈ late, t.call = .close)
    (hok : ∀ a ∈ SeriesClient.attempts (early ++ late) s, a.reply.isAccepted = true) :
    ∃ window ∈ (Ledger.of (client.exchanges (early ++ late) s)).submitted, w ∈ window ∧
      ∃ i r url, (client.after early s).backend.received.length ≤ i ∧
        (client.after (early ++ late) s).backend.received[i]? = some r ∧ s.url? = some url ∧
        r.Submits url s.apiKey s.host (entries window) ∧ (s.backend.script i).isAccepted = true := by
  obtain ⟨window, j, hwindow, hle, hj⟩ := Ledger.submitted_later hp hc hw hclose
  -- The attempt with the window's entries stands in the same place among the attempts.
  have hpoints := congrArg (·[j]?) (Ledger.points_attempts hp hc (early ++ late))
  simp only [List.getElem?_map, hj, Option.map_some, Option.map_eq_some_iff] at hpoints
  obtain ⟨a, ha, hpoints⟩ := hpoints
  obtain ⟨url, hurl, hreceived, hreply⟩ := SeriesClient.received_of_attempts
    (fun a ha => Delivery.Reply.ne_lost (hok a ha)) ha
  rw [hpoints] at hreceived
  refine ⟨window, List.mem_of_getElem? hj, hwindow, _, _, url, ?_, hreceived, hurl,
    SeriesClient.submits_request url s.apiKey s.host (entries window), ?_⟩
  · have hearly := congrArg List.length (Ledger.points_attempts hp hc early)
    have hsent := SeriesClient.length_received_le early s
    rw [List.length_map, List.length_map] at hearly
    omega
  · rw [← Delivery.Reply.isAccepted_arriving, ← hreply]
    exact hok a (List.mem_of_getElem? ha)

/-- **No silent loss.** A session of a new client succeeds with `n` exactly if
its tokens are `n` commands to the last one, each of which can be read, and
every submission that it attempted was accepted. If it succeeds, then every
command that writes to a series did so in a window that was submitted, and
after the command a request was received that submits the window's entries, the
one of this series among them: it was posted to where series are submitted, a
receiver reads these entries in its body, and it was accepted. -/
theorem no_silent_loss {host : String} {key : ApiKey} {options : DeliveryOptions}
    {backend : Delivery.Backend} {s : SeriesClient}
    (hnew : SeriesClient.create host key options backend = .ok s) (ctx : Context)
    (tokens : List String) (now : Instant) :
    let o := execute ctx client tokens ⟨s, now⟩
    o.world.client = client.after (turnsOf now o.trace) s ∧
    (∀ n, o.result = .ok n ↔
      (∃ phrases, Cut tokens phrases [] ∧ phrases.length = n ∧
        ∀ p ∈ phrases, ∃ c, p.command ctx = .ok c) ∧
      ∀ a ∈ SeriesClient.attempts (turnsOf now o.trace) s, a.reply.isAccepted = true) ∧
    (∀ n, o.result = .ok n → ∀ before p later, Cut tokens (before ++ p :: later) [] →
      p.verb ∈ [Verb.gauge, .count, .incr, .decr] →
      let done := interpret ctx client ((before ++ [p]).flatMap Phrase.tokens) ⟨s, now⟩
      ∃ k call write window, p.series? ctx = some k ∧ p.call? ctx = some call ∧
        (⟨done.world.now, call⟩ : Turn).write? = some write ∧ write.key = k ∧
        window ∈ (Ledger.of (client.exchanges (turnsOf now o.trace) s)).submitted ∧
        write ∈ window ∧ (∃ point ∈ entries window, point.key = k) ∧
        ∃ i r url, done.world.client.backend.received.length ≤ i ∧
          o.world.client.backend.received[i]? = some r ∧
          Delivery.Url.TakesSeries backend.plainName options.apiUrl url ∧
          r.Submits url key host (entries window) ∧ (backend.script i).isAccepted = true) := by
  intro o
  have hs := SeriesClient.create_eq_ok hnew
  obtain ⟨hp, hc⟩ := SeriesClient.create_fresh hnew
  have hclient : o.world.client = client.after (turnsOf now o.trace) s :=
    execute_client ctx client tokens _
  refine ⟨hclient, ?_, ?_⟩
  · intro n
    rw [session_ok_iff hc, complete_cut]
  intro n hn before p later hcut hv done
  obtain ⟨hcomplete, hanswers⟩ := (execute_ok_iff ctx client tokens _).1 hn
  obtain ⟨-, haccepted⟩ := (session_ok_iff hc).1 hn
  obtain ⟨-, -, hread⟩ := hcut.eq ▸ hcomplete
  obtain ⟨c, hpc⟩ := hread p (by simp)
  obtain ⟨k, call, hk, hcall, hwrite⟩ := Phrase.write_of_verb hpc hv
  obtain ⟨write, hwrite, hkey⟩ := hwrite done.world.now
  obtain ⟨⟨earlier, hearlier⟩, late, hlate, hclose⟩ := turns_of_execute_ok hn hcut hcall
  -- The command's call was accepted, so its write is the last of the window that is open after it.
  have hw : write ∈ (Ledger.of (client.exchanges (turnsOf now done.trace) s)).window := by
    rw [hlate, client.exchanges_append, List.forall_mem_append, hearlier, client.exchanges_append,
      List.forall_mem_append] at hanswers
    rw [hearlier]
    exact Ledger.mem_window_of hwrite (hanswers.1.2 _ (List.mem_singleton_self _))
  have hdone : done.world.client = client.after (turnsOf now done.trace) s :=
    (interpret_accounts ctx client _ _).client_eq
  obtain ⟨window, hwindow, hmem, i, r, url, hlate', hreceived, hurl, hsubmits, hreply⟩ :=
    carried_after hp hc hw hclose (by rwa [← hlate])
  refine ⟨k, call, write, window, hk, hcall, hwrite, hkey, ?_, hmem, ?_, i, r, url, ?_, ?_,
    SeriesClient.takesSeries_of_url? hnew hurl, ?_, ?_⟩
  · rwa [hlate]
  · exact hkey ▸ exists_entry hmem
  · rwa [hdone]
  · rw [hclient, hlate, hreceived]
  · rwa [hs] at hsubmits
  · rwa [hs] at hreply

/-- A session with two submissions, one by a flush and one by the close; an
operand spells a verb. -/
theorem no_silent_loss_two_windows :
    let options : DeliveryOptions := ⟨"http://127.0.0.1:47125", .ofMillis 5000⟩
    let backend : Delivery.Backend := .plain "127.0.0.1" 47125 fun _ => .answered 202 []
    let ctx : Context := ⟨.ofText "app", ["env:test"]⟩
    let tokens := ["count", "hits", "2", "flush", "incr", "flush"]
    ∃ s : SeriesClient, SeriesClient.create "web-01" ⟨"secret"⟩ options backend = .ok s ∧
      (execute ctx client tokens ⟨s, .ofSeconds 10⟩).result = .ok 3 ∧
      ∃ (window : List Write) (i : Nat) (r : Delivery.Request),
        (execute ctx client tokens ⟨s, .ofSeconds 10⟩).world.client.backend.received[i]? = some r ∧
        r.method = "POST" ∧ r.target = "/api/v1/series" ∧ r.header? "DD-API-KEY" = some "secret" ∧
        Submission.Carries "web-01" (entries window) r.body ∧
        ∃ p ∈ entries window, p.key = ⟨.count, "app.flush", ["env:test"]⟩ := by
  intro options backend ctx tokens
  let first : List Phrase := [⟨"count", .count, ["hits", "2"]⟩, ⟨"flush", .flush, []⟩]
  let last : Phrase := ⟨"incr", .incr, ["flush"]⟩
  have hnew : SeriesClient.create "web-01" ⟨"secret"⟩ options backend =
      .ok (.fresh "web-01" options backend ⟨"secret"⟩) :=
    SeriesClient.create_nonblank _ _ _ (by decide)
  have hcut : Cut tokens (first ++ [last]) [] := cut_iff.2 (by decide +kernel)
  have hread : ∀ p ∈ first ++ [last], ∃ c, p.command ctx = .ok c := by
    simp only [first, last, List.cons_append, List.nil_append, List.forall_mem_cons]
    refine ⟨⟨.count "app.hits" (.ofNat 2), ?_⟩, ⟨.flush, rfl⟩, ⟨.incr "app.flush", ?_⟩, nofun⟩ <;>
      decide +kernel
  obtain ⟨-, hresult, hcarried⟩ := no_silent_loss hnew ctx tokens (.ofSeconds 10)
  have hok := (hresult 3).2 ⟨⟨_, hcut, rfl, hread⟩, by decide +kernel⟩
  obtain ⟨k, -, -, window, hk, -, -, -, -, -, hpoint, i, r, url, -, hreceived, hseries, hsubmits, -⟩ :=
    hcarried 3 hok first last [] hcut (by decide)
  obtain rfl := Option.some.inj hk
  have hurl : Delivery.Url.read? backend.plainName (SeriesClient.seriesAddress options.apiUrl) =
      some ⟨false, "127.0.0.1", 47125, "/api/v1/series", none⟩ := by decide +kernel
  obtain rfl := Option.some.inj (hseries.resolves.symm.trans hurl)
  exact ⟨_, hnew, hok, window, i, r, hreceived, hsubmits.method, hsubmits.target, hsubmits.key,
    hsubmits.carries, hpoint⟩

end MetricStream
