/-
Flushes that change nothing.

An open client with no point to submit accepts a flush and stays what it is. So it
does directly after another flush, which submits the points whatever comes of it,
and before the first command. And a flush after the last command submits what the
close would have submitted, and leaves it nothing to do. With such a flush or
without it, a session ends in the same world, with the same requests received, and
it succeeds with it exactly if it does without (`redundant_flushes_are_free`).
-/
import MetricStream.Proofs.Interpreter.Composition
import MetricStream.Proofs.Session.Submissions

namespace MetricStream

open SeriesClient (client)

/-- The outcomes leave the same world, and one is a success exactly if the other
is. -/
structure Outcome.SameEnd {σ ε α : Type} (o o' : Outcome σ ε α) : Prop where
  world : o'.world = o.world
  succeeds : (∃ n, o'.result = .ok n) ↔ ∃ n, o.result = .ok n

/-! ## Any client -/

section

variable {σ ε α : Type}

theorem Outcome.SameEnd.refl (o : Outcome σ ε α) : o.SameEnd o := ⟨rfl, Iff.rfl⟩

theorem Outcome.SameEnd.symm {o o' : Outcome σ ε α} (h : o.SameEnd o') : o'.SameEnd o :=
  ⟨h.world.symm, h.succeeds.symm⟩

theorem Outcome.SameEnd.trans {o o' o'' : Outcome σ ε α} (h : o.SameEnd o') (h' : o'.SameEnd o'') :
    o.SameEnd o'' :=
  ⟨h'.world.trans h.world, h'.succeeds.trans h.succeeds⟩

theorem exists_map_eq_ok {x : Except RunError Nat} (k : Nat) :
    (∃ n, x.map (· + k) = .ok n) ↔ ∃ n, x = .ok n := by
  cases x <;> simp [Except.map]

theorem Outcome.sameEnd_afterOne (o : Outcome σ RunError Nat) (trace : List Occurrence) :
    o.SameEnd (o.afterOne trace) :=
  ⟨rfl, exists_map_eq_ok 1⟩

theorem Outcome.SameEnd.afterOne {o o' : Outcome σ RunError Nat} (h : o.SameEnd o')
    (trace trace' : List Occurrence) : (o.afterOne trace).SameEnd (o'.afterOne trace') :=
  ((sameEnd_afterOne o trace).symm.trans h).trans (sameEnd_afterOne o' trace')

/-- What comes after a success decides about the end. -/
theorem Outcome.SameEnd.andThen {o : Outcome σ RunError Nat}
    {next next' : World σ → Outcome σ RunError Nat} (h : (next o.world).SameEnd (next' o.world)) :
    (o.andThen next).SameEnd (o.andThen next') := by
  rcases hr : o.result with e | m
  · rw [Outcome.andThen_error hr, Outcome.andThen_error hr]
    exact .refl o
  · rw [Outcome.andThen_ok hr, Outcome.andThen_ok hr]
    exact ⟨h.world, (exists_map_eq_ok m).trans (h.succeeds.trans (exists_map_eq_ok m).symm)⟩

theorem interpret_append_of_cut {ctx : Context} {client : Client σ} {xs : List String}
    {phrases : List Phrase} (hcut : Cut xs phrases []) (ys : List String) (w : World σ) :
    interpret ctx client (xs ++ ys) w = (interpret ctx client xs w).andThen (interpret ctx client ys) := by
  rw [interpret_append_cut, hcut.eq, interpret_eq_follow hcut, List.nil_append]

theorem sameEnd_execute {ctx : Context} {client : Client σ} {xs ys : List String} {w : World σ}
    (h : (interpret ctx client xs w).SameEnd (interpret ctx client ys w)) :
    (execute ctx client xs w).SameEnd (execute ctx client ys w) := by
  refine ⟨?_, ?_⟩
  · rw [execute_world, execute_world, h.world]
  · simp only [execute_eq_ok, h.world, exists_and_right, h.succeeds]

end

/-! ## Flushes of an open client -/

theorem SeriesClient.answer_flush {s : SeriesClient} (hopen : s.closed = false) (now : Instant) :
    client.answer now .flush s = s.submit := by
  rw [answer_eq]
  exact if_neg (by simp [hopen])

theorem SeriesClient.closed_submit {s : SeriesClient} (hopen : s.closed = false) :
    s.submit.1.closed = false := by
  have hstill := open_answer (t := ⟨⟨0⟩, .flush⟩) hopen (by simp)
  rwa [answer_flush hopen] at hstill

theorem SeriesClient.answer_close {s : SeriesClient} (hopen : s.closed = false) (now : Instant) :
    client.answer now .close s = ({ s.submit.1 with closed := true }, s.submit.2) :=
  answer_open (t := ⟨now, .close⟩) rfl hopen

/-- The close has nothing to do directly after a flush. -/
theorem SeriesClient.answer_close_submit {s : SeriesClient} (hopen : s.closed = false)
    (now : Instant) :
    client.answer now .close s.submit.1 = ({ s.submit.1 with closed := true }, .ok ()) := by
  rw [answer_close (closed_submit hopen), submit_empty (submit_pending s)]

section

variable (ctx : Context) {f : String} (hf : Verb.lookup? f = some .flush)
  {w : World SeriesClient} (hopen : w.client.closed = false) (xs : List String)
include hf hopen

/-- A flush that the client refuses is the whole run, and otherwise the run goes on
from what the submission leaves. -/
theorem interpret_flush :
    (∃ e, w.client.submit.2 = .error e ∧
      interpret ctx client (f :: xs) w =
        ⟨.error (.commandFailed f (.client e)), [.called .flush], ⟨w.client.submit.1, w.now⟩⟩) ∨
    (w.client.submit.2 = .ok () ∧
      interpret ctx client (f :: xs) w =
        (interpret ctx client xs ⟨w.client.submit.1, w.now⟩).afterOne
          [.called .flush, .logged .flush]) := by
  have hp : (⟨f, .flush, []⟩ : Phrase).Whole := ⟨hf, rfl⟩
  have hanswer : client.answer w.now .flush w.client = (w.client.submit.1, w.client.submit.2) :=
    SeriesClient.answer_flush hopen w.now
  rcases hr : w.client.submit.2 with e | ⟨⟨⟩⟩ <;> rw [hr] at hanswer
  · exact .inl ⟨e, rfl, interpret_refused hp xs w rfl rfl hanswer⟩
  · exact .inr ⟨rfl, interpret_accepted hp xs w rfl rfl hanswer⟩

/-- A flush with nothing to submit can be left out. -/
theorem sameEnd_flush (hempty : w.client.pending = []) :
    (interpret ctx client xs w).SameEnd (interpret ctx client (f :: xs) w) := by
  have hsubmit := SeriesClient.submit_empty hempty
  rcases interpret_flush ctx hf hopen xs with ⟨e, he, -⟩ | ⟨-, hrun⟩
  · rw [hsubmit] at he
    cases he
  · rw [hrun, hsubmit]
    exact Outcome.sameEnd_afterOne _ _

/-- Of two flushes in a row one can be left out: the first one fails, or it leaves
nothing to submit. -/
theorem sameEnd_flush_flush {g g' : String} (hg : Verb.lookup? g = some .flush)
    (hg' : Verb.lookup? g' = some .flush) :
    (interpret ctx client (g :: xs) w).SameEnd (interpret ctx client (f :: g' :: xs) w) := by
  rcases interpret_flush ctx hf hopen (g' :: xs) with ⟨e, he, hrun⟩ | ⟨he, hrun⟩ <;>
    rcases interpret_flush ctx hg hopen xs with ⟨e', he', hrun'⟩ | ⟨he', hrun'⟩
  · rw [hrun, hrun']
    exact ⟨rfl, by simp⟩
  · rw [he] at he'
    cases he'
  · rw [he] at he'
    cases he'
  · rw [hrun, hrun']
    have hnext := sameEnd_flush ctx (w := ⟨w.client.submit.1, w.now⟩) hg'
      (SeriesClient.closed_submit hopen) xs (SeriesClient.submit_pending _)
    exact hnext.afterOne _ _

theorem interpret_flush_alone :
    (interpret ctx client [f] w).world = ⟨w.client.submit.1, w.now⟩ ∧
      ((∃ n, (interpret ctx client [f] w).result = .ok n) ↔ w.client.submit.2 = .ok ()) := by
  rcases interpret_flush ctx hf hopen [] with ⟨e, he, hrun⟩ | ⟨he, hrun⟩
  · rw [hrun, he]
    exact ⟨rfl, by simp⟩
  · rw [hrun, he, interpret_stuck stuck_nil]
    exact ⟨rfl, by simp [Outcome.afterOne, ending, Except.map]⟩

/-- A flush at the end submits what the close would have, which then has nothing to
do. -/
theorem sameEnd_last_flush
    (hwhole : ∀ e, (interpret ctx client xs w).result = .error e → ¬ e.CutShort) :
    (execute ctx client xs w).SameEnd (execute ctx client (xs ++ [f]) w) := by
  rcases hr : (interpret ctx client xs w).result with e | n
  · refine sameEnd_execute ?_
    rw [interpret_append_of_error hr (hwhole e hr)]
    exact .refl _
  have hstill := closed_of_interpret ctx xs hopen
  obtain ⟨hworld, hok⟩ := interpret_flush_alone ctx hf hstill
  have hboth := interpret_append hr [f]
  rw [Outcome.andThen_ok hr] at hboth
  constructor
  · rw [execute_world, execute_world, hboth]
    simp only [hworld, SeriesClient.answer_close hstill, SeriesClient.answer_close_submit hstill]
  · simp only [execute_eq_ok, hboth, hworld, hr, SeriesClient.answer_close hstill,
      SeriesClient.answer_close_submit hstill, and_true, exists_map_eq_ok, hok, Except.ok.injEq,
      exists_and_right, exists_eq', true_and]

end

/-- **Redundant flushes are free.** Sessions of an open client, as a new one is, end
in the same world, the requests that the backend received with it, and one succeeds
exactly if the other does, if their token lists differ in a flush: one at the end,
unless the list ended in a command that lacks operands; one directly before or
directly after another flush, where a command starts; or one before the first
command, if the client has no point yet. -/
theorem redundant_flushes_are_free (ctx : Context) {w : World SeriesClient}
    (hopen : w.client.closed = false) {f : String} (hf : Verb.lookup? f = some .flush) :
    (∀ xs, (∀ e, (interpret ctx client xs w).result = .error e → ¬ e.CutShort) →
      let o := execute ctx client xs w
      let o' := execute ctx client (xs ++ [f]) w
      o'.world.client.backend.received = o.world.client.backend.received ∧ o.SameEnd o') ∧
    (∀ xs phrases, Cut xs phrases [] → ∀ g, Verb.lookup? g = some .flush → ∀ ys,
      let o := execute ctx client (xs ++ g :: ys) w
      let before := execute ctx client (xs ++ f :: g :: ys) w
      let after := execute ctx client (xs ++ g :: f :: ys) w
      before.world.client.backend.received = o.world.client.backend.received ∧ o.SameEnd before ∧
      after.world.client.backend.received = o.world.client.backend.received ∧ o.SameEnd after) ∧
    (w.client.pending = [] → ∀ xs,
      let o := execute ctx client xs w
      let o' := execute ctx client (f :: xs) w
      o'.world.client.backend.received = o.world.client.backend.received ∧ o.SameEnd o') := by
  refine ⟨fun xs hwhole => ?_, fun xs phrases hcut g hg ys => ?_, fun hempty xs => ?_⟩
  · have hend := sameEnd_last_flush ctx hf hopen xs hwhole
    exact ⟨congrArg (·.client.backend.received) hend.world, hend⟩
  · -- Up to the flush the runs are one, and leave the client open.
    have hstill := closed_of_interpret ctx xs hopen
    have hbehind {zs} (h : (interpret ctx client (g :: ys) (interpret ctx client xs w).world).SameEnd
        (interpret ctx client zs (interpret ctx client xs w).world)) :
        (execute ctx client (xs ++ g :: ys) w).SameEnd (execute ctx client (xs ++ zs) w) := by
      refine sameEnd_execute ?_
      rw [interpret_append_of_cut hcut, interpret_append_of_cut hcut]
      exact .andThen h
    have hbefore := hbehind (sameEnd_flush_flush ctx hf hstill ys hg hg)
    have hafter := hbehind (sameEnd_flush_flush ctx hg hstill ys hg hf)
    exact ⟨congrArg (·.client.backend.received) hbefore.world, hbefore,
      congrArg (·.client.backend.received) hafter.world, hafter⟩
  · have hend := sameEnd_execute (sameEnd_flush ctx hf hopen xs hempty)
    exact ⟨congrArg (·.client.backend.received) hend.world, hend⟩

/-- The second of two submissions is refused, to the close or to a flush before it.
A flush more after the first flush, or at the start, sends nothing. -/
theorem redundant_flushes_are_free_refused_close :
    let backend : Delivery.Backend :=
      .plain "127.0.0.1" 47125 fun i => .answered (if i = 1 then 503 else 202) []
    let w : World SeriesClient :=
      ⟨⟨"web-01", ⟨"secret"⟩, "http://127.0.0.1:47125/api/v1/series", [], false, backend⟩,
        .ofSeconds 10⟩
    let xs := ["incr", "a", "flush", "gauge", "b", "2"]
    let o := execute .bare client xs w
    let last := execute .bare client (xs ++ ["f"]) w
    let twice := execute .bare client ["incr", "a", "flush", "f", "gauge", "b", "2"] w
    let first := execute .bare client ("f" :: xs) w
    o.result = .error (.close (.status 503 "")) ∧
    last.result = .error (.run (.commandFailed "f" (.client (.status 503 "")))) ∧
    o.world.client.backend.received.length = 2 ∧
    last.world.client.backend.received = o.world.client.backend.received ∧
    twice.world.client.backend.received = o.world.client.backend.received ∧
    first.world.client.backend.received = o.world.client.backend.received ∧
    ¬ ∃ n, first.result = .ok n := by
  intro backend w xs o last twice first
  have ho : o.result = .error (.close (.status 503 "")) := by decide +kernel
  have hxs : (interpret .bare client xs w).result = .ok 3 := by decide +kernel
  have hcut : Cut ["incr", "a"] [⟨"incr", .incr, ["a"]⟩] [] :=
    .cons (p := ⟨"incr", .incr, ["a"]⟩) ⟨rfl, rfl⟩ (.nil stuck_nil)
  obtain ⟨hlast, hnext, hfirst⟩ := redundant_flushes_are_free .bare (w := w) rfl (f := "f") rfl
  obtain ⟨hlastSent, -⟩ := hlast xs fun e he => by rw [hxs] at he; cases he
  obtain ⟨-, -, htwiceSent, -⟩ :=
    hnext ["incr", "a"] _ hcut "flush" rfl ["gauge", "b", "2"]
  obtain ⟨hfirstSent, hend⟩ := hfirst rfl xs
  refine ⟨ho, by decide +kernel, by decide +kernel, hlastSent, htwiceSent, hfirstSent, ?_⟩
  rw [hend.succeeds]
  rintro ⟨n, hn⟩
  rw [show (execute .bare client xs w).result = _ from ho] at hn
  cases hn

end MetricStream
