import MesonDecoy.Go

set_option autoImplicit false

/-!
# The worker loop, one iteration at a time

`worker()` caches the last acceptable PKI document and, each time its timer fires while that
document is for the current epoch, sends a decoy packet, draws the next wake interval and sweeps
the expired SURB contexts. Without a document for the current epoch it suspends: it re-arms the
timer with `math.MaxInt64`.

This file models the loop at the granularity of its iterations. What the `select` receives,
what the `PKI().Now()` calls return and the exponential draw are the inputs of an iteration, so
a sequence of inputs is any schedule of document arrivals, clock readings and timer expiries.
`MesonDecoy.Timer` refines this to the single timer operations, with expiries between them.

## Main definitions

* `MesonDecoy.Entry`, `MesonDecoy.Config` — what the worker reads of a `pkicache.Entry` and of
  the configuration.
* `MesonDecoy.Worker.accepts` — the four checks of the `docCh` case.
* `MesonDecoy.Worker.schedule` — the part of an iteration after the `select`.
* `MesonDecoy.Worker.iterate` — one iteration; `MesonDecoy.Worker.worker` — the loop.

## Main results

* `MesonDecoy.Worker.iterate_rearm` — what an iteration that reaches the re-arm did.
* `MesonDecoy.Worker.loop_docCache` — the cached document is the initial one or a document the
  loop received and accepted.
* `MesonDecoy.Worker.worker_spec` — both, for every iteration of every run.

## Implementation notes

`rand.Exp(d.rng, doc.LambdaM)` converted to `uint64` is the input `draw`: the model holds for
every value it gives. `sendDecoyPacket` and `sweepSURBCtxs` are recorded in the iteration's
outcome; what they do to the decoy is the subject of the other files. Logging and the Prometheus
counters are left out.
-/

namespace MesonDecoy

/-- The fields of a `pkicache.Entry` the worker reads: `Epoch()` and `Document().LambdaMMaxDelay`.
The document's `LambdaM` only parametrises the exponential draw, an input of the iteration. -/
structure Entry where
  epoch : UInt64
  lambdaMMaxDelay : UInt64
deriving DecidableEq, Repr

/-- The settings the worker reads from `d.glue.Config()`: `Debug.SendDecoyTraffic` and
`Server.IsProvider`. They are fixed for a run. -/
structure Config where
  sendDecoyTraffic : Bool
  isProvider : Bool
deriving DecidableEq, Repr

namespace Worker

/-- What the worker's `select` receives. -/
inductive Received
  /-- `<-d.HaltCh()`. -/
  | halt
  /-- `newEnt := <-d.docCh`, with what that case's `PKI().Now()` returns (`none`: an error). -/
  | doc (newEnt : Entry) (now : Option UInt64)
  /-- `<-timer.C`. -/
  | tick
deriving DecidableEq, Repr

/-- What one iteration reads: what its `select` receives, what the `PKI().Now()` after the
`select` returns (`none`: an error), and `uint64(rand.Exp(d.rng, doc.LambdaM))`. -/
structure Input where
  received : Received
  now : Option UInt64
  draw : UInt64
deriving DecidableEq, Repr

/-- How an iteration ends. -/
inductive Outcome
  /-- `return` on halt. -/
  | halt
  /-- `continue` after `ignoredPKIDocs.Inc()`: the document was rejected. -/
  | ignored
  /-- The iteration reached `timer.Reset(wakeInterval)`: whether the timer fired, the document
  `sendDecoyPacket` was called with (if it was), whether `sweepSURBCtxs` ran, and
  `wakeInterval`. -/
  | rearm (timerFired : Bool) (sent : Option Entry) (swept : Bool) (wakeInterval : Int)
deriving DecidableEq, Repr

/-- The four checks of the `docCh` case, in the source's order; `false` is one of its four
`continue`s. -/
def accepts (cfg : Config) (newEnt : Entry) (now : Option UInt64) : Bool :=
  if !cfg.sendDecoyTraffic then false
  else
    match now with
    | none => false
    | some now => if newEnt.epoch ≠ now then false else !cfg.isProvider

@[simp] lemma accepts_eq_true {cfg : Config} {newEnt : Entry} {now : Option UInt64} :
    accepts cfg newEnt now = true ↔
      cfg.sendDecoyTraffic = true ∧ now = some newEnt.epoch ∧ cfg.isProvider = false := by
  obtain ⟨send, provider⟩ := cfg
  cases send <;> rcases now with _ | now <;> simp only [accepts] <;> simp
  by_cases h : newEnt.epoch = now
  · simp [h]
  · simp [h, Ne.symm h]

/-- `wakeInterval` scheduled from `doc`: the draw, clamped to `LambdaMMaxDelay`, in ms. -/
def wakeInterval (doc : Entry) (draw : UInt64) : Int :=
  durationMillis (if draw > doc.lambdaMMaxDelay then doc.lambdaMMaxDelay else draw)

/-- The part of an iteration after the `select`: with `docCache` for the epoch `now`, send if
the timer fired, schedule and sweep; otherwise suspend with `math.MaxInt64`. -/
def schedule (timerFired : Bool) (docCache : Option Entry) (now : Option UInt64)
    (draw : UInt64) : Outcome :=
  match now, docCache with
  | some now, some doc =>
    if doc.epoch ≠ now then .rearm timerFired none false maxInt64
    else .rearm timerFired (if timerFired then some doc else none) true (wakeInterval doc draw)
  | _, _ => .rearm timerFired none false maxInt64

/-- One iteration of the loop of `worker()`: the cached document after it, and how it ends. -/
def iterate (cfg : Config) (docCache : Option Entry) (i : Input) : Option Entry × Outcome :=
  match i.received with
  | .halt => (docCache, .halt)
  | .doc newEnt now =>
    if accepts cfg newEnt now then (some newEnt, schedule false (some newEnt) i.now i.draw)
    else (docCache, .ignored)
  | .tick => (docCache, schedule true docCache i.now i.draw)

/-- The loop from a cached document: the cached document after each iteration and how the
iteration ended. It stops at `halt`. -/
def loop (cfg : Config) : Option Entry → List Input → List (Option Entry × Outcome)
  | _, [] => []
  | docCache, i :: is =>
    let r := iterate cfg docCache i
    r :: if r.2 = .halt then [] else loop cfg r.1 is

/-- `worker()`: the loop from `docCache` nil. -/
def worker (cfg : Config) (inputs : List Input) : List (Option Entry × Outcome) :=
  loop cfg none inputs

/-! ### One iteration -/

/-- `docCache` is a document for the epoch `now`: what an iteration needs to send and to
schedule. -/
def Current (docCache : Option Entry) (now : Option UInt64) : Prop :=
  ∃ doc, docCache = some doc ∧ now = some doc.epoch

lemma schedule_of_current {timerFired : Bool} {doc : Entry} {now : Option UInt64}
    (h : now = some doc.epoch) (draw : UInt64) :
    schedule timerFired (some doc) now draw =
      .rearm timerFired (if timerFired then some doc else none) true (wakeInterval doc draw) := by
  subst h; simp [schedule]

lemma schedule_of_not_current {docCache : Option Entry} {now : Option UInt64}
    (h : ¬ Current docCache now) (timerFired : Bool) (draw : UInt64) :
    schedule timerFired docCache now draw = .rearm timerFired none false maxInt64 := by
  unfold schedule
  split
  · split
    · rfl
    · exact absurd ⟨_, rfl, by simp_all⟩ h
  · rfl

/-- **What the part after the `select` does.** It sends at most once, only when the timer fired
and only with a document for the current epoch; it sweeps exactly when it has such a document,
and without one it suspends. -/
theorem schedule_spec {timerFired timerFired' swept : Bool} {docCache sent : Option Entry}
    {now : Option UInt64} {draw : UInt64} {wake : Int}
    (h : schedule timerFired docCache now draw = .rearm timerFired' sent swept wake) :
    timerFired' = timerFired ∧
      (∀ ent, sent = some ent → timerFired = true ∧ docCache = some ent ∧ now = some ent.epoch) ∧
      (swept = true ↔ Current docCache now) ∧ (¬ Current docCache now → wake = maxInt64) := by
  by_cases hc : Current docCache now
  · obtain ⟨doc, rfl, hnow⟩ := hc
    rw [schedule_of_current hnow] at h
    obtain ⟨rfl, rfl, rfl, rfl⟩ := Outcome.rearm.inj h
    refine ⟨rfl, fun ent hs => ?_, by simp [Current, hnow], fun hn => absurd ⟨doc, rfl, hnow⟩ hn⟩
    cases timerFired <;> simp_all
  · rw [schedule_of_not_current hc] at h
    obtain ⟨rfl, rfl, rfl, rfl⟩ := Outcome.rearm.inj h
    simp [hc]

/-- The cached document after an iteration is the one before it, or the document the iteration
received, accepted by the four checks. -/
lemma iterate_docCache (cfg : Config) (docCache : Option Entry) (i : Input) :
    (iterate cfg docCache i).1 = docCache ∨
      ∃ ent, (iterate cfg docCache i).1 = some ent ∧ i.received = .doc ent (some ent.epoch) ∧
        cfg.sendDecoyTraffic = true ∧ cfg.isProvider = false := by
  obtain ⟨_ | ⟨newEnt, now⟩ | _, now₂, draw⟩ := i
  · exact .inl rfl
  · by_cases ha : accepts cfg newEnt now = true
    · obtain ⟨hs, rfl, hp⟩ := accepts_eq_true.mp ha
      exact .inr ⟨newEnt, by simp [iterate, ha], rfl, hs, hp⟩
    · simp [iterate, ha]
  · exact .inl rfl

/-- **What an iteration that reaches the re-arm did.** The timer fired exactly when the `select`
took the tick; `sendDecoyPacket` ran only then, and with a cached document for the epoch of the
second `Now()`; the sweep ran exactly when there was such a document, and without one the
timer is re-armed with `math.MaxInt64`. -/
theorem iterate_rearm {cfg : Config} {docCache docCache' sent : Option Entry} {i : Input}
    {timerFired swept : Bool} {wake : Int}
    (h : iterate cfg docCache i = (docCache', .rearm timerFired sent swept wake)) :
    (timerFired = true ↔ i.received = .tick) ∧
      (∀ ent, sent = some ent → timerFired = true ∧ docCache' = some ent ∧ i.now = some ent.epoch) ∧
      (swept = true ↔ Current docCache' i.now) ∧ (¬ Current docCache' i.now → wake = maxInt64) := by
  obtain ⟨_ | ⟨newEnt, now⟩ | _, now₂, draw⟩ := i
  · cases h
  · by_cases ha : accepts cfg newEnt now = true
    · simp only [iterate, ha, if_true, Prod.mk.injEq] at h
      obtain ⟨rfl, h⟩ := h
      obtain ⟨rfl, hsent, hswept, hwake⟩ := schedule_spec h
      exact ⟨by simp, hsent, hswept, hwake⟩
    · simp [iterate, ha] at h
  · simp only [iterate, Prod.mk.injEq] at h
    obtain ⟨rfl, h⟩ := h
    obtain ⟨rfl, hsent, hswept, hwake⟩ := schedule_spec h
    exact ⟨by simp, hsent, hswept, hwake⟩

/-! ### Runs -/

/-- Each entry of the loop's result is an iteration on the input at the same position. -/
lemma getElem?_loop {cfg : Config} {inputs : List Input} :
    ∀ {docCache : Option Entry} {k : Nat} {r : Option Entry × Outcome},
      (loop cfg docCache inputs)[k]? = some r →
        ∃ docCache' i, inputs[k]? = some i ∧ iterate cfg docCache' i = r := by
  induction inputs with
  | nil => intro _ _ _ h; cases h
  | cons i is ih =>
    intro docCache k r h
    cases k with
    | zero => exact ⟨docCache, i, List.getElem?_cons_zero, by simpa [loop] using h⟩
    | succ k =>
      simp only [loop, List.getElem?_cons_succ] at h ⊢
      split at h
      · cases h
      · exact ih h

/-- **The cached document of a run.** After iteration `k`, `docCache` is the initial one, or a
document that one of the iterations `0, …, k` received with `SendDecoyTraffic` set, `IsProvider`
unset and an epoch equal to what that iteration's `Now()` returned. -/
theorem loop_docCache {cfg : Config} {inputs : List Input} :
    ∀ {docCache₀ docCache : Option Entry} {k : Nat} {o : Outcome},
      (loop cfg docCache₀ inputs)[k]? = some (docCache, o) →
        docCache = docCache₀ ∨ ∃ ent, docCache = some ent ∧ cfg.sendDecoyTraffic = true ∧
          cfg.isProvider = false ∧
          ∃ j ≤ k, ∃ i, inputs[j]? = some i ∧ i.received = .doc ent (some ent.epoch) := by
  induction inputs with
  | nil => intro _ _ _ _ h; cases h
  | cons i is ih =>
    intro docCache₀ docCache k o h
    -- the document after the first iteration, as seen from iteration `k`
    have first : ∀ k, (iterate cfg docCache₀ i).1 = docCache₀ ∨ ∃ ent,
        (iterate cfg docCache₀ i).1 = some ent ∧ cfg.sendDecoyTraffic = true ∧
          cfg.isProvider = false ∧
          ∃ j ≤ k, ∃ i' : Input, (i :: is)[j]? = some i' ∧
            i'.received = .doc ent (some ent.epoch) :=
      fun k => (iterate_docCache cfg docCache₀ i).imp_right fun ⟨ent, he, hr, hs, hp⟩ =>
        ⟨ent, he, hs, hp, 0, Nat.zero_le k, i, List.getElem?_cons_zero, hr⟩
    cases k with
    | zero =>
      simp only [loop, List.getElem?_cons_zero, Option.some.injEq] at h
      simpa only [h] using first 0
    | succ k =>
      simp only [loop, List.getElem?_cons_succ] at h
      split at h
      · cases h
      · rcases ih h with rfl | ⟨ent, rfl, hs, hp, j, hj, i', hi', hr⟩
        · exact first (k + 1)
        · exact .inr ⟨ent, rfl, hs, hp, j + 1, by omega, i', by rwa [List.getElem?_cons_succ], hr⟩

/-- **The worker loop under a fixed configuration.** In every run (any documents with any
epochs, any results of the two `Now()` calls, the timer firing at any iteration), after every
iteration `k`: the cached document is nil, or a document received by one of the iterations up
to `k` while `SendDecoyTraffic` was set and `IsProvider` unset, with the epoch `Now()` returned
then. If iteration `k` reached the re-arm, it called `sendDecoyPacket` at most once, only if the
timer fired, and only with a cached document for the epoch of its second `Now()`; without such
a document it re-armed the timer with `math.MaxInt64`, and it swept only with one. -/
theorem worker_spec (cfg : Config) (inputs : List Input) (k : Nat) (docCache : Option Entry)
    (o : Outcome) (hk : (worker cfg inputs)[k]? = some (docCache, o)) :
    (docCache = none ∨ ∃ ent, docCache = some ent ∧ cfg.sendDecoyTraffic = true ∧
        cfg.isProvider = false ∧
        ∃ j ≤ k, ∃ i, inputs[j]? = some i ∧ i.received = .doc ent (some ent.epoch)) ∧
      ∃ i, inputs[k]? = some i ∧
        ∀ timerFired sent swept wake, o = .rearm timerFired sent swept wake →
          (∀ ent, sent = some ent →
            i.received = .tick ∧ timerFired = true ∧ docCache = some ent ∧
              i.now = some ent.epoch) ∧
          (¬ Current docCache i.now → wake = maxInt64) ∧
          (swept = true → Current docCache i.now) := by
  refine ⟨loop_docCache hk, ?_⟩
  obtain ⟨docCache', i, hi, hit⟩ := getElem?_loop hk
  refine ⟨i, hi, ?_⟩
  rintro timerFired sent swept wake rfl
  obtain ⟨hfired, hsent, hswept, hwake⟩ := iterate_rearm hit
  refine ⟨fun ent hs => ?_, hwake, hswept.mp⟩
  obtain ⟨hf, hdoc, hnow⟩ := hsent ent hs
  exact ⟨hfired.mp hf, hf, hdoc, hnow⟩

/-- A document for epoch 3 accepted, then the tick: the second iteration sends with it. -/
theorem worker_spec_send_after_doc :
    (worker ⟨true, false⟩ [⟨.doc ⟨3, 100⟩ (some 3), some 3, 7⟩, ⟨.tick, some 3, 500⟩])[1]? =
        some (some ⟨3, 100⟩, .rearm true (some ⟨3, 100⟩) true (wakeInterval ⟨3, 100⟩ 500)) ∧
      ∃ i, [(⟨.doc ⟨3, 100⟩ (some 3), some 3, 7⟩ : Input), ⟨.tick, some 3, 500⟩][1]? = some i ∧
        i.received = .tick ∧ i.now = some 3 :=
  have hk : (worker ⟨true, false⟩ [⟨.doc ⟨3, 100⟩ (some 3), some 3, 7⟩, ⟨.tick, some 3, 500⟩])[1]? =
      some (some ⟨3, 100⟩, .rearm true (some ⟨3, 100⟩) true (wakeInterval ⟨3, 100⟩ 500)) := rfl
  let ⟨i, hi, hrearm⟩ := (worker_spec _ _ 1 _ _ hk).2
  let ⟨hr, _, _, hn⟩ := (hrearm _ _ _ _ rfl).1 _ rfl
  ⟨hk, i, hi, hr, hn⟩

end Worker

end MesonDecoy
