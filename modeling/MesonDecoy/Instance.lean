import MesonDecoy.System
import MesonDecoy.Worker
import MesonDecoy.DecoyPacket

set_option autoImplicit false

/-!
# A decoy instance: the worker, the token state and the replies

`New` starts the goroutine `worker()`, and the crypto workers hand every SURB reply for the node
to `OnPacket`. Both reach the token state only under the mutex, so a run of a decoy instance is
a sequence of calls of two kinds: an iteration of the worker's loop, and an `OnPacket`. An
iteration calls `sendDecoyPacket` when its timer fired with a document for the current epoch,
and `sendDecoyPacket` calls `sendLoopPacket`; the iteration then calls `sweepSURBCtxs`
whenever it has such a document.

An iteration reaches the token state at two points only: `storeSURBCtx`, in its send, and
`sweepSURBCtxs`. Each holds the mutex, as `loadAndDeleteSURBCtx` in `OnPacket` does, so a run
of a decoy instance is a sequence of calls of two kinds: an iteration, with the replies handled
between its two points, and an `OnPacket` between iterations. A reply before an iteration's
store, or after its sweep, meets the token state the iteration before or after it leaves.

This file joins the models of the other files into one. An iteration is
`MesonDecoy.Worker.iterate`, with the calls its outcome records made on the token state in the
source's order; a reply is `MesonDecoy.Decoy.onPacket`. The worker's decisions read no token
state, so a run projects onto the worker's loop, and its token state is the run of
`MesonDecoy.Decoy.step` over the sends, sweeps and replies it makes.

## Main definitions

* `MesonDecoy.PkiEntry` — a `pkicache.Entry`, as the worker and `sendDecoyPacket` read it.
* `MesonDecoy.Instance` — the worker's cached document, whether it has returned, and the token
  state; `MesonDecoy.Instance.iterate`, `MesonDecoy.Instance.step`, `MesonDecoy.Instance.run`.
* `MesonDecoy.Instance.events` — the calls a run makes on the token state.

## Main results

* `MesonDecoy.Instance.run_refines` — a run projects onto `MesonDecoy.Worker.loop` and onto
  `MesonDecoy.Decoy.runEvents`.
* `MesonDecoy.Instance.run_safe` — from `New`, a run in which the PKI agrees with the
  configuration and the token calls are admissible does not panic, and keeps `Inv`.
* `MesonDecoy.Instance.run_panics_of_provider` — without that agreement, the worker panics.
* `MesonDecoy.Instance.accepts_sent` — a reply retires a context only if it answers a SURB that
  a tick of the run sent.
* `MesonDecoy.Instance.run_keeps_held` — a held context stays held until a reply with its SURB ID
  or a sweep past its deadline.
* `MesonDecoy.Instance.run_drops_replay` — once a reply is accepted, a replay of it only
  increments `packetsDropped`.
* `MesonDecoy.Instance.iterate_sweeps_expired` — after a sweep, no held context is past its
  deadline.
* `MesonDecoy.Instance.effects_le_ticks` — a run stores and dispatches at most once per tick.
* `MesonDecoy.Instance.run_silent_of_disabled` — with decoy traffic disabled, or on a provider,
  a run stores and dispatches nothing.

## Implementation notes

What an iteration reads of the random sources and the clocks is its input: `rng.Perm`, the
`rng.Uint64` of the SURB ID, the external calls of the attempts of `sendLoopPacket` and
`sendDiscardPacket`, and the `monotime.Now()` of the sweep, beside what
`MesonDecoy.Worker.Input` holds. `DecoySlack` and the constants of other packages are fields of
`MesonDecoy.Env`, fixed for a run. The worker's timer operations touch no state of the decoy, so
an iteration is one call here; `MesonDecoy.Timer` refines the loop to those operations.
`OnNewDocument` is the sender of the document an iteration receives.
-/

namespace MesonDecoy

/-- A `pkicache.Entry`: what the worker reads of it (`Epoch()` and the document's
`LambdaMMaxDelay`), and what `sendDecoyPacket` reads (`Self()` and the document's
`Providers`). -/
structure PkiEntry where
  entry : Entry
  self : MixDescriptor
  doc : Document

/-- What a decoy instance runs with, fixed for a run: what it reads of `d.glue.Config()`,
`sphinx.DecryptSURBPayload`, and constants of other packages. -/
structure Env (τ : Type) where
  /-- `Debug.SendDecoyTraffic` and `Server.IsProvider`. -/
  config : Config
  /-- `time.Duration(Debug.DecoySlack) * time.Millisecond`. -/
  slack : τ
  /-- `pki.LayerProvider`. -/
  layerProvider : UInt8
  /-- `kaetzchen.LoopCapability`. -/
  loopCapability : String
  /-- `epochtime.TestPeriod * 2`, the budget of a packet's transit. -/
  maxTransit : τ
  /-- `constants.UserForwardPayloadLength`. -/
  userForwardPayloadLength : Nat
  /-- `sphinx.SURBLength`. -/
  surbLength : Nat
  /-- `sphinx.DecryptSURBPayload`: the plaintext, or `none` on an error. -/
  decrypt : List UInt8 → List UInt8 → Option (List UInt8)

/-- A decoy instance: the worker's `docCache`, whether `worker()` has returned, and the token
state. -/
structure Instance (τ : Type) where
  docCache : Option PkiEntry
  halted : Bool
  token : Decoy τ

namespace Instance

/-- What an iteration's `select` receives. -/
inductive Received
  /-- `<-d.HaltCh()`. -/
  | halt
  /-- `newEnt := <-d.docCh`, with what that case's `PKI().Now()` returns. -/
  | doc (newEnt : PkiEntry) (now : Option UInt64)
  /-- `<-timer.C`. -/
  | tick

/-- What one iteration reads: its `select`, the second `PKI().Now()`, the exponential draw, and
what the calls it makes read of the random sources and the clocks. -/
structure Input (τ : Type) where
  received : Received
  now : Option UInt64
  draw : UInt64
  /-- `d.rng.Perm(n)`, in `sendDecoyPacket`. -/
  perm : Nat → List Nat
  /-- `d.rng.Uint64()`, in `makeSURBID`. -/
  suffix : UInt64
  /-- What the external calls of `sendLoopPacket`'s attempts return. -/
  attempt : Nat → Attempt τ
  /-- What the external calls of `sendDiscardPacket`'s attempts return. -/
  discardAttempt : Nat → DiscardAttempt τ
  /-- The SURB replies the crypto workers hand to `OnPacket` after the iteration's
  `storeSURBCtx` and before its `sweepSURBCtxs`. -/
  replies : List {pkt : Packet // pkt.isSURBReply = true}
  /-- `monotime.Now()`, in `sweepSURBCtxs`. -/
  monoNow : τ

/-- The `select` as `MesonDecoy.Worker.iterate` reads it. -/
def Received.toWorker : Received → Worker.Received
  | .halt => .halt
  | .doc newEnt now => .doc newEnt.entry now
  | .tick => .tick

/-- The iteration as `MesonDecoy.Worker.iterate` reads it. -/
def Input.toWorker {τ : Type} (i : Input τ) : Worker.Input := ⟨i.received.toWorker, i.now, i.draw⟩

end Instance

/-- A call into a decoy instance: an iteration of the worker's loop, or `OnPacket` from a crypto
worker. -/
inductive Call (τ : Type)
  | iterate (i : Instance.Input τ)
  | reply (pkt : Packet) (hs : pkt.isSURBReply = true)

namespace Instance

variable {τ : Type}

/-- The instance `New` starts: the token state of `New`, and the worker entering its loop with
`docCache` nil. -/
def new [Inhabited τ] (surbIDBase : UInt64) (recipient : List UInt8) : Instance τ :=
  ⟨none, false, .new surbIDBase recipient⟩

/-- The iterations of a run, as `MesonDecoy.Worker.iterate` reads them. -/
def iterations : List (Call τ) → List Worker.Input
  | [] => []
  | .iterate i :: cs => i.toWorker :: iterations cs
  | .reply _ _ :: cs => iterations cs

/-- The cached document `sendDecoyPacket` is called with by an iteration with outcome `o`. -/
def sent : Worker.Outcome → Option PkiEntry → Option PkiEntry
  | .rearm _ (some _) _ _, some ent => some ent
  | _, _ => none

/-- Whether an iteration with outcome `o` calls `sweepSURBCtxs`. -/
def swept : Worker.Outcome → Bool
  | .rearm _ _ true _ => true
  | _ => false

section Iterate

variable (env : Env τ)

/-- `docCache` after the `select`: the document received, when the four checks accept it. -/
def cache (docCache : Option PkiEntry) : Received → Option PkiEntry
  | .doc newEnt now => if Worker.accepts env.config newEnt.entry now then some newEnt else docCache
  | _ => docCache

/-- How an iteration ends, as `MesonDecoy.Worker.iterate` decides it. -/
def outcome (docCache : Option PkiEntry) (i : Input τ) : Worker.Outcome :=
  (Worker.iterate env.config (docCache.map PkiEntry.entry) i.toWorker).2

/-- The call `sendDecoyPacket(ent)` ends in. -/
def decoyCall (ent : PkiEntry) (i : Input τ) : Except Panic DecoyCall :=
  sendDecoyPacket env.loopCapability env.layerProvider ent.self ent.doc
    (i.perm ent.doc.providers.length)

/-- The worker model sees the cached document of the instance. -/
lemma cache_map (docCache : Option PkiEntry) (i : Input τ) :
    (cache env docCache i.received).map PkiEntry.entry =
      (Worker.iterate env.config (docCache.map PkiEntry.entry) i.toWorker).1 := by
  obtain ⟨_ | ⟨newEnt, now⟩ | _, _, _, _, _, _, _, _, _⟩ := i
  · rfl
  · simp only [cache, Input.toWorker, Received.toWorker, Worker.iterate]
    split_ifs <;> rfl
  · rfl

/-! ### What the safety of a run assumes -/

/-- The cached document does not place the node at the provider layer. -/
def SelfOk (docCache : Option PkiEntry) : Prop :=
  ∀ ent, docCache = some ent → ent.self.layer ≠ env.layerProvider

/-- In every iteration of a run, `rng.Perm(n)` returns a permutation of `0, …, n - 1`. -/
def PermsOk (cs : List (Call τ)) : Prop :=
  ∀ i, Call.iterate i ∈ cs → ∀ n, (i.perm n).Perm (List.range n)

/-- The PKI agrees with the configuration: no document a run receives places the node at the
provider layer while `Server.IsProvider` is unset. -/
def PkiAgrees (cs : List (Call τ)) : Prop :=
  ∀ i newEnt now, Call.iterate i ∈ cs → i.received = .doc newEnt now →
    env.config.isProvider = false → newEnt.self.layer ≠ env.layerProvider

@[simp] lemma permsOk_nil : PermsOk ([] : List (Call τ)) := fun _ h => nomatch h

lemma permsOk_cons {c : Call τ} {cs : List (Call τ)} :
    PermsOk (c :: cs) ↔ (∀ i, c = .iterate i → ∀ n, (i.perm n).Perm (List.range n)) ∧
      PermsOk cs := by
  simp only [PermsOk, List.mem_cons, or_imp, forall_and, @eq_comm _ c]

@[simp] lemma pkiAgrees_nil : PkiAgrees env [] := fun _ _ _ h => nomatch h

lemma pkiAgrees_cons {c : Call τ} {cs : List (Call τ)} :
    PkiAgrees env (c :: cs) ↔ (∀ i, c = .iterate i → ∀ newEnt now, i.received = .doc newEnt now →
      env.config.isProvider = false → newEnt.self.layer ≠ env.layerProvider) ∧
      PkiAgrees env cs := by
  simp only [PkiAgrees, List.mem_cons, or_imp, forall_and, @eq_comm _ c, imp_forall_iff]

/-- The four checks of the `docCache` case keep a document at the provider layer out of the
cache while the node is not configured as a provider. -/
lemma selfOk_cache {docCache : Option PkiEntry} (hself : SelfOk env docCache) {r : Received}
    (hpki : ∀ newEnt now, r = .doc newEnt now → env.config.isProvider = false →
      newEnt.self.layer ≠ env.layerProvider) :
    SelfOk env (cache env docCache r) := by
  cases r with
  | doc newEnt now =>
    intro ent he
    simp only [cache] at he
    split_ifs at he with ha
    · cases he
      exact hpki _ _ rfl (Worker.accepts_eq_true.1 ha).2.2
    · exact hself ent he
  | _ => exact hself

/-- With `Debug.SendDecoyTraffic` off, or on a provider, the four checks of the `docCh` case
reject every document. -/
lemma cache_of_disabled
    (hcfg : env.config.sendDecoyTraffic = false ∨ env.config.isProvider = true) (r : Received) :
    cache env none r = none := by
  cases r with
  | doc newEnt now =>
    have ha : Worker.accepts env.config newEnt.entry now = false := by
      rw [Bool.eq_false_iff]
      intro h
      obtain ⟨hs, -, hp⟩ := Worker.accepts_eq_true.1 h
      rcases hcfg with h' | h' <;> simp_all
    simp [cache, ha]
  | _ => rfl

lemma sent_none (o : Worker.Outcome) : sent o none = none := by
  rcases o with _ | _ | ⟨_, _ | _, _, _⟩ <;> rfl

lemma sent_eq_some {o : Worker.Outcome} {docCache : Option PkiEntry} {ent : PkiEntry}
    (h : sent o docCache = some ent) :
    docCache = some ent ∧ ∃ tf e sw w, o = .rearm tf (some e) sw w := by
  rcases o with _ | _ | ⟨tf, _ | e, sw, w⟩ <;> rcases docCache with _ | e' <;> simp [sent] at h ⊢
  exact h

lemma Received.toWorker_eq_tick {r : Received} : r.toWorker = .tick ↔ r = .tick := by
  cases r <;> simp [Received.toWorker]

/-- An iteration calls `sendDecoyPacket` only when its `select` took the timer's tick, and then
with its cached document, for the epoch its second `Now()` returned. -/
lemma sent_outcome {docCache : Option PkiEntry} {i : Input τ} {ent : PkiEntry}
    (h : sent (outcome env docCache i) (cache env docCache i.received) = some ent) :
    i.received = .tick ∧ cache env docCache i.received = some ent ∧
      i.now = some ent.entry.epoch := by
  obtain ⟨hc, tf, e, sw, w, ho⟩ := sent_eq_some h
  have hit : Worker.iterate env.config (docCache.map PkiEntry.entry) i.toWorker =
      (some ent.entry, .rearm tf (some e) sw w) :=
    Prod.ext (by rw [← cache_map, hc]; rfl) ho
  obtain ⟨hf, hsent, -⟩ := Worker.iterate_rearm hit
  obtain ⟨htf, he, hnow⟩ := hsent e rfl
  obtain rfl : e = ent.entry := (Option.some.inj he).symm
  exact ⟨Received.toWorker_eq_tick.1 (hf.1 htf), hc, hnow⟩

/-- `sendDecoyPacket` on a document that does not place the node at the provider layer, with a
permutation from `rng.Perm`, does not panic. -/
lemma decoyCall_ok {ent : PkiEntry} {i : Input τ} (hself : ent.self.layer ≠ env.layerProvider)
    (hperm : ∀ n, (i.perm n).Perm (List.range n)) : ∃ call, decoyCall env ent i = .ok call := by
  rcases sendDecoyPacket_ok env.loopCapability env.layerProvider ent.self ent.doc _ hself
      (fun j hj => List.mem_range.1 ((hperm _).subset hj)) with h | ⟨_, _, h⟩
  exacts [⟨_, h⟩, ⟨_, h⟩]

/-! ### The calls a run makes on the token state -/

/-- SURB replies as events of `MesonDecoy.Decoy.step`. -/
def replyEvents (ps : List {pkt : Packet // pkt.isSURBReply = true}) : List (Event τ) :=
  ps.map fun p => .reply p.1 p.2

/-- The calls an iteration makes on the token state, as events of `MesonDecoy.Decoy.step`: the
send, when `sendDecoyPacket` ends in `sendLoopPacket`, the replies handled meanwhile, then the
sweep. -/
def callEvents (o : Worker.Outcome) (docCache : Option PkiEntry) (i : Input τ) : List (Event τ) :=
  (match sent o docCache with
    | some ent =>
      match decoyCall env ent i with
      | .ok (.sendLoopPacket ..) => [.send i.attempt i.suffix]
      | _ => []
    | none => []) ++
  (replyEvents i.replies ++ if swept o then [.sweep i.monoNow env.slack] else [])

/-- The calls a run from the cached document `docCache` makes on the token state. -/
def events (docCache : Option PkiEntry) (halted : Bool) : List (Call τ) → List (Event τ)
  | [] => []
  | .iterate i :: cs =>
    if halted then events docCache halted cs
    else callEvents env (outcome env docCache i) (cache env docCache i.received) i ++
      events (cache env docCache i.received) (outcome env docCache i = .halt) cs
  | .reply pkt hs :: cs => .reply pkt hs :: events docCache halted cs

variable [LinearOrder τ] [Add τ] [Sub τ]

/-- `d.sendDecoyPacket(ent)`, with the call it ends in made on the token state. -/
def sendDecoy (d : Decoy τ) (ent : PkiEntry) (i : Input τ) :
    Except Panic (Decoy τ × List (Effect τ)) := do
  match ← decoyCall env ent i with
  | .noProvider => pure (d, [])
  | .sendLoopPacket .. =>
    d.sendLoopPacket env.maxTransit env.userForwardPayloadLength i.attempt i.suffix
  | .sendDiscardPacket .. =>
    pure (d, sendDiscardPacket env.maxTransit env.userForwardPayloadLength env.surbLength
      i.discardAttempt)

/-- `OnPacket` on each of `ps`, in order. -/
def onPackets (d : Decoy τ) : List {pkt : Packet // pkt.isSURBReply = true} → Except Panic (Decoy τ)
  | [] => pure d
  | p :: ps => d.onPacket env.decrypt p.1 >>= fun d => onPackets d ps

/-- What an iteration's calls do after `sendDecoyPacket`: the replies handled meanwhile, then
`sweepSURBCtxs()` when the outcome `o` records it. -/
def afterSend (o : Worker.Outcome) (d : Decoy τ) (i : Input τ) (effs : List (Effect τ)) :
    Except Panic (Decoy τ × List (Effect τ)) := do
  let d ← onPackets env d i.replies
  if swept o then (fun r => (r.1, effs)) <$> d.sweepSURBCtxs i.monoNow env.slack
  else pure (d, effs)

/-- The calls an iteration with outcome `o` and cached document `docCache` makes on the token
state, in the source's order: `sendDecoyPacket(docCache)`, then `sweepSURBCtxs()`, each when the
outcome records it, and the replies handled between them. -/
def calls (o : Worker.Outcome) (docCache : Option PkiEntry) (d : Decoy τ) (i : Input τ) :
    Except Panic (Decoy τ × List (Effect τ)) := do
  let (d, effs) ← match sent o docCache with
    | some ent => sendDecoy env d ent i
    | none => pure (d, [])
  afterSend env o d i effs

/-- One iteration of `worker()`'s loop: the outcome `MesonDecoy.Worker.iterate` decides, and the
calls it records. -/
def iterate (s : Instance τ) (i : Input τ) :
    Except Panic (Instance τ × Worker.Outcome × List (Effect τ)) := do
  let docCache := cache env s.docCache i.received
  let o := outcome env s.docCache i
  let (token, effs) ← calls env o docCache s.token i
  pure (⟨docCache, o = .halt, token⟩, o, effs)

/-- One call: an iteration, unless `worker()` has returned, or `OnPacket`. It returns the
instance after it, what the iteration cached and how it ended, and its effects. -/
def step (s : Instance τ) :
    Call τ → Except Panic (Instance τ × List (Option Entry × Worker.Outcome) × List (Effect τ))
  | .iterate i =>
    if s.halted then pure (s, [], [])
    else (fun r => (r.1, [(r.1.docCache.map PkiEntry.entry, r.2.1)], r.2.2)) <$> s.iterate env i
  | .reply pkt _ => (fun token => ({ s with token }, [], [])) <$> s.token.onPacket env.decrypt pkt

/-- A run of calls: the instance after it, what each iteration cached and how it ended, and the
effects, in order. -/
def run (s : Instance τ) :
    List (Call τ) → Except Panic (Instance τ × List (Option Entry × Worker.Outcome) ×
      List (Effect τ))
  | [] => pure (s, [], [])
  | c :: cs => do
    let (s₁, tr₁, effs₁) ← s.step env c
    let (s₂, tr₂, effs₂) ← s₁.run cs
    pure (s₂, tr₁ ++ tr₂, effs₁ ++ effs₂)

/-! ### One iteration -/

lemma iterate_eq (s : Instance τ) (i : Input τ) :
    s.iterate env i = (fun r => (⟨cache env s.docCache i.received,
        outcome env s.docCache i = .halt, r.1⟩, outcome env s.docCache i, r.2)) <$>
      calls env (outcome env s.docCache i) (cache env s.docCache i.received) s.token i := by
  simp only [iterate]
  cases calls env (outcome env s.docCache i) (cache env s.docCache i.received) s.token i <;> rfl

/-- **What an iteration call does.** Once `worker()` has returned, nothing; otherwise the calls
its outcome records, after which the instance caches the document the `select` left and records
whether `worker()` returned. -/
theorem step_iterate_cases {s s₁ : Instance τ} {i : Input τ}
    {tr : List (Option Entry × Worker.Outcome)} {effs : List (Effect τ)}
    (h : s.step env (.iterate i) = .ok (s₁, tr, effs)) :
    (s.halted = true ∧ s₁ = s ∧ tr = [] ∧ effs = []) ∨
    (s.halted = false ∧
      calls env (outcome env s.docCache i) (cache env s.docCache i.received) s.token i =
        .ok (s₁.token, effs) ∧
      s₁.docCache = cache env s.docCache i.received ∧
      s₁.halted = decide (outcome env s.docCache i = .halt) ∧
      tr = [((cache env s.docCache i.received).map PkiEntry.entry, outcome env s.docCache i)]) := by
  cases hh : s.halted
  · simp only [step, hh, Bool.false_eq_true, if_false, iterate_eq] at h
    obtain ⟨r, hr, he⟩ := map_eq_ok h
    obtain ⟨⟨token, effs'⟩, hc, rfl⟩ := map_eq_ok hr
    simp only [Prod.mk.injEq] at he
    obtain ⟨rfl, rfl, rfl⟩ := he
    exact .inr ⟨rfl, hc, rfl, rfl, rfl⟩
  · simp only [step, hh, if_true, pure_eq_ok, Except.ok.injEq, Prod.mk.injEq] at h
    obtain ⟨rfl, rfl, rfl⟩ := h
    exact .inl ⟨rfl, rfl, rfl, rfl⟩

/-- **What a reply call does**: `OnPacket` on the token state, and nothing else. -/
theorem step_reply_cases {s s₁ : Instance τ} {pkt : Packet} {hp : pkt.isSURBReply = true}
    {tr : List (Option Entry × Worker.Outcome)} {effs : List (Effect τ)}
    (h : s.step env (.reply pkt hp) = .ok (s₁, tr, effs)) :
    s.token.onPacket env.decrypt pkt = .ok s₁.token ∧ s₁.docCache = s.docCache ∧
      s₁.halted = s.halted ∧ tr = [] ∧ effs = [] := by
  obtain ⟨token, ht, he⟩ := map_eq_ok h
  simp only [Prod.mk.injEq] at he
  obtain ⟨rfl, rfl, rfl⟩ := he
  exact ⟨ht, rfl, rfl, rfl, rfl⟩

/-- A reply that `OnPacket` handles without panicking changes the token state alone. -/
lemma step_reply_eq {s : Instance τ} {pkt : Packet} (hp : pkt.isSURBReply = true)
    {d : Decoy τ} (h : s.token.onPacket env.decrypt pkt = .ok d) :
    s.step env (.reply pkt hp) = .ok ({ s with token := d }, [], []) := by
  simp only [step, h]
  rfl

lemma onPackets_eq (d : Decoy τ) (ps : List {pkt : Packet // pkt.isSURBReply = true}) :
    onPackets env d ps =
      d.runEvents env.decrypt env.maxTransit env.userForwardPayloadLength (replyEvents ps) := by
  induction ps generalizing d with
  | nil => rfl
  | cons p ps ih =>
    simp only [onPackets, replyEvents, List.map_cons, Decoy.runEvents, Decoy.step]
    cases d.onPacket env.decrypt p.1 with
    | error => rfl
    | ok d₁ => exact ih d₁

/-- What an iteration does after its send is the run of the replies, then of the sweep. -/
lemma fst_afterSend (o : Worker.Outcome) (d : Decoy τ) (i : Input τ)
    (effs : List (Effect τ)) :
    Prod.fst <$> afterSend env o d i effs =
    d.runEvents env.decrypt env.maxTransit env.userForwardPayloadLength
      (replyEvents i.replies ++ if swept o then [.sweep i.monoNow env.slack] else []) := by
  rw [Decoy.runEvents_append, ← onPackets_eq, afterSend]
  cases onPackets env d i.replies with
  | error => rfl
  | ok d₁ =>
    simp only [ok_bind]
    cases swept o
    · rfl
    · simp only [if_true, Decoy.runEvents, Decoy.step]
      cases d₁.sweepSURBCtxs i.monoNow env.slack <;> rfl

/-- **An iteration's calls are events of the token state.** Unless `sendDecoyPacket` panics, the
calls an iteration makes have the effect on the token state of the run of `callEvents`. -/
theorem fst_calls {o : Worker.Outcome} {docCache : Option PkiEntry} (d : Decoy τ) {i : Input τ}
    (h : ∀ ent, sent o docCache = some ent → ∃ call, decoyCall env ent i = .ok call) :
    Prod.fst <$> calls env o docCache d i =
      d.runEvents env.decrypt env.maxTransit env.userForwardPayloadLength
        (callEvents env o docCache i) := by
  simp only [calls, callEvents]
  cases hs : sent o docCache with
  | none => simpa using fst_afterSend env o d i []
  | some ent =>
    obtain ⟨call, hc⟩ := h ent hs
    cases call with
    | noProvider => simpa [sendDecoy, hc] using fst_afterSend env o d i []
    | sendLoopPacket =>
      simp only [sendDecoy, hc, ok_bind, List.singleton_append, Decoy.runEvents, Decoy.step]
      cases d.sendLoopPacket env.maxTransit env.userForwardPayloadLength i.attempt i.suffix with
      | error => rfl
      | ok r => exact fst_afterSend env o r.1 i r.2
    | sendDiscardPacket => simpa [sendDecoy, hc] using fst_afterSend env o d i _

/-- An iteration whose calls return made a `sendDecoyPacket` that did not panic. -/
lemma calls_decoyCall {o : Worker.Outcome} {docCache : Option PkiEntry} {d : Decoy τ}
    {i : Input τ} {r : Decoy τ × List (Effect τ)} (h : calls env o docCache d i = .ok r)
    (ent : PkiEntry) (hs : sent o docCache = some ent) :
    ∃ call, decoyCall env ent i = .ok call := by
  simp only [calls, hs, sendDecoy] at h
  cases hc : decoyCall env ent i with
  | error e => simp [hc] at h
  | ok call => exact ⟨call, rfl⟩

/-! ### Runs -/

/-- **A run projects onto the worker's loop and onto the token state's calls.** In a run that
does not panic, the iterations cache and end as `MesonDecoy.Worker.loop` over their inputs, the
replies in between notwithstanding, until the worker returns; and the token state is the one
`MesonDecoy.Decoy.runEvents` reaches over the sends, sweeps and replies the run makes.

**Proof sketch.** Induction on the run: an iteration is `Worker.iterate` on the cached entry
(`cache_map`) with calls that are the run of its events (`fst_calls`); a reply is the event
itself. -/
theorem run_refines {cs : List (Call τ)} :
    ∀ {s s' : Instance τ} {tr : List (Option Entry × Worker.Outcome)} {effs : List (Effect τ)},
      s.run env cs = .ok (s', tr, effs) →
      (s.halted = false → tr = Worker.loop env.config (s.docCache.map PkiEntry.entry)
        (iterations cs)) ∧ (s.halted = true → tr = []) ∧
      s.token.runEvents env.decrypt env.maxTransit env.userForwardPayloadLength
        (events env s.docCache s.halted cs) = .ok s'.token := by
  induction cs with
  | nil =>
    intro s s' tr effs h
    cases h
    exact ⟨fun _ => rfl, fun _ => rfl, rfl⟩
  | cons c cs ih =>
    intro s s' tr effs h
    obtain ⟨⟨s₁, tr₁, effs₁⟩, h₁, h⟩ := bind_eq_ok h
    obtain ⟨⟨s₂, tr₂, effs₂⟩, h₂, h⟩ := bind_eq_ok h
    cases h
    obtain ⟨ih₁, ih₂, ih₃⟩ := ih h₂
    cases c with
    | iterate i =>
      rcases step_iterate_cases env h₁ with ⟨hh, rfl, rfl, rfl⟩ | ⟨hh, hc, hdc, hh₁, rfl⟩
      · refine ⟨fun h => absurd (hh.symm.trans h) (by decide), fun _ => ih₂ hh, ?_⟩
        simpa [events, hh] using ih₃
      · have hw : Worker.iterate env.config (s.docCache.map PkiEntry.entry) i.toWorker =
            ((cache env s.docCache i.received).map PkiEntry.entry, outcome env s.docCache i) :=
          Prod.ext (cache_map env _ _).symm rfl
        have hev : s.token.runEvents env.decrypt env.maxTransit env.userForwardPayloadLength
            (callEvents env (outcome env s.docCache i) (cache env s.docCache i.received) i) =
              .ok s₁.token := by
          rw [← fst_calls env s.token (calls_decoyCall env hc), hc]
          rfl
        simp only [hdc, hh₁] at ih₁ ih₂ ih₃
        refine ⟨fun _ => ?_, fun h => absurd (hh.symm.trans h) Bool.false_ne_true, ?_⟩
        · simp only [iterations, Worker.loop, hw, List.singleton_append]
          by_cases ho : outcome env s.docCache i = .halt
          · simp [ho, ih₂ (by simp [ho])]
          · simp [ho, ih₁ (by simp [ho])]
        · simp only [events, hh, Bool.false_eq_true, if_false, Decoy.runEvents_append, hev, ok_bind]
          exact ih₃
    | reply pkt hs =>
      obtain ⟨ht, hdc, hh₁, rfl, rfl⟩ := step_reply_cases env h₁
      simp only [hdc, hh₁] at ih₁ ih₂ ih₃
      refine ⟨fun h => by simpa [iterations] using ih₁ h, fun h => by simpa using ih₂ h, ?_⟩
      simp only [events, Decoy.runEvents, Decoy.step, ht, ok_bind]
      exact ih₃

/-- A run whose `sendDecoyPacket`s cannot panic, and whose calls on the token state do not
panic, does not panic. -/
lemma run_ok {cs : List (Call τ)} (hperm : PermsOk cs) (hpki : PkiAgrees env cs) :
    ∀ {s : Instance τ} {d' : Decoy τ}, SelfOk env s.docCache →
      s.token.runEvents env.decrypt env.maxTransit env.userForwardPayloadLength
        (events env s.docCache s.halted cs) = .ok d' →
      ∃ s' tr effs, s.run env cs = .ok (s', tr, effs) := by
  induction cs with
  | nil => intro s _ _ _; exact ⟨s, [], [], rfl⟩
  | cons c cs ih =>
    obtain ⟨hperm₀, hperm'⟩ := permsOk_cons.1 hperm
    obtain ⟨hpki₀, hpki'⟩ := (pkiAgrees_cons env).1 hpki
    intro s d' hself h
    cases c with
    | iterate i =>
      cases hh : s.halted
      · simp only [events, hh, Bool.false_eq_true, if_false, Decoy.runEvents_append] at h
        obtain ⟨d₁, h₁, h⟩ := bind_eq_ok h
        have hself₁ : SelfOk env (cache env s.docCache i.received) :=
          selfOk_cache env hself (hpki₀ i rfl)
        rw [← fst_calls env s.token fun ent hs => decoyCall_ok env
          (hself₁ ent (sent_eq_some hs).1) (hperm₀ i rfl)] at h₁
        obtain ⟨⟨token, effs⟩, hc, rfl⟩ := map_eq_ok h₁
        obtain ⟨s', tr, effs', hrun⟩ := ih hperm' hpki'
          (s := ⟨cache env s.docCache i.received, outcome env s.docCache i = .halt, token⟩) hself₁ h
        refine ⟨s', [((cache env s.docCache i.received).map PkiEntry.entry,
          outcome env s.docCache i)] ++ tr, effs ++ effs', ?_⟩
        simp only [run, step, hh, Bool.false_eq_true, if_false, iterate_eq, hc, map_ok, ok_bind,
          hrun]
        rfl
      · obtain ⟨s', tr, effs, hrun⟩ := ih hperm' hpki' hself (by simpa [events, hh] using h)
        exact ⟨s', tr, effs, by simp [run, step, hh, hrun]⟩
    | reply pkt hs =>
      simp only [events, Decoy.runEvents, Decoy.step] at h
      obtain ⟨token, ht, h⟩ := bind_eq_ok h
      obtain ⟨s', tr, effs, hrun⟩ := ih hperm' hpki' (s := { s with token }) hself h
      exact ⟨s', tr, effs, by simp [run, step_reply_eq env hs ht, hrun]⟩

/-- After a run from `New` whose calls on the token state are admissible, the token state
satisfies `Inv`. -/
lemma inv_of_run_new [Inhabited τ] {b : UInt64} {r : List UInt8} {cs : List (Call τ)}
    {s : Instance τ} {tr : List (Option Entry × Worker.Outcome)} {effs : List (Effect τ)}
    (h : (new b r : Instance τ).run env cs = .ok (s, tr, effs))
    (hadm : (Decoy.new b r : Decoy τ).admissibleEvents env.decrypt env.maxTransit
      env.userForwardPayloadLength (events env none false cs) = true) : s.token.Inv := by
  obtain ⟨d, hd', hd, -⟩ := (Decoy.inv_new b r).runEvents env.decrypt env.maxTransit
    env.userForwardPayloadLength _ hadm
  obtain rfl : d = s.token := Except.ok.inj (hd'.symm.trans (run_refines env h).2.2)
  exact hd

/-! ### The provider panic -/

/-- An iteration that receives a document for the epoch `Now()` returns, under a configuration
that sends decoy traffic and is not a provider's, caches it; on a state satisfying `Inv`, with no
reply handled meanwhile, it does not panic. -/
lemma step_doc {s : Instance τ} (hs : s.halted = false) (hd : s.token.Inv) {ent : PkiEntry}
    {i : Input τ} (hcfg : env.config.sendDecoyTraffic = true ∧ env.config.isProvider = false)
    (hr : i.received = .doc ent (some ent.entry.epoch)) (hrep : i.replies = []) :
    ∃ s₁ tr effs, s.step env (.iterate i) = .ok (s₁, tr, effs) ∧ s₁.docCache = some ent ∧
      s₁.halted = false := by
  have ha : Worker.accepts env.config ent.entry (some ent.entry.epoch) = true :=
    Worker.accepts_eq_true.2 ⟨hcfg.1, rfl, hcfg.2⟩
  have hcache : cache env s.docCache i.received = some ent := by simp [cache, hr, ha]
  have ho : outcome env s.docCache i = Worker.schedule false (some ent.entry) i.now i.draw := by
    simp [outcome, Worker.iterate, Input.toWorker, hr, Received.toWorker, ha]
  have hn : sent (outcome env s.docCache i) (cache env s.docCache i.received) = none := by
    cases h : sent (outcome env s.docCache i) (cache env s.docCache i.received) with
    | none => rfl
    | some e => cases (sent_outcome env h).1.symm.trans hr
  have hhalt : outcome env s.docCache i ≠ .halt := by
    rw [ho]
    unfold Worker.schedule
    split <;> simp [ite_eq_iff]
  obtain ⟨r, hsw, -⟩ := hd.sweepSURBCtxs i.monoNow env.slack
  obtain ⟨d₁, hc⟩ : ∃ d₁, calls env (outcome env s.docCache i) (cache env s.docCache i.received)
      s.token i = .ok (d₁, []) := by
    simp only [calls, hn, afterSend, hrep, onPackets]
    cases swept (outcome env s.docCache i)
    · exact ⟨_, rfl⟩
    · exact ⟨r.1, by simp [hsw]⟩
  have hstep : s.step env (.iterate i) = .ok (⟨cache env s.docCache i.received,
      outcome env s.docCache i = .halt, d₁⟩, [((cache env s.docCache i.received).map
        PkiEntry.entry, outcome env s.docCache i)], []) := by
    simp only [step, hs, Bool.false_eq_true, if_false, iterate_eq, hc, map_ok]
  exact ⟨_, _, _, hstep, hcache, by simpa using hhalt⟩

/-- A tick within the epoch of a cached document that places the node at the provider layer
panics in `sendDecoyPacket`. -/
lemma step_tick_of_provider {s : Instance τ} (hs : s.halted = false) {ent : PkiEntry}
    (hc : s.docCache = some ent) (hself : ent.self.layer = env.layerProvider) {i : Input τ}
    (ht : i.received = .tick) (hnow : i.now = some ent.entry.epoch) :
    s.step env (.iterate i) =
      .error (.bug "BUG: Provider generated decoy traffic not supported yet") := by
  have hcache : cache env s.docCache i.received = some ent := by rw [ht, hc]; rfl
  have ho : outcome env s.docCache i =
      .rearm true (some ent.entry) true (Worker.wakeInterval ent.entry i.draw) := by
    simp [outcome, Worker.iterate, Input.toWorker, ht, Received.toWorker, hc,
      Worker.schedule_of_current hnow]
  have hdc : decoyCall env ent i =
      .error (.bug "BUG: Provider generated decoy traffic not supported yet") :=
    sendDecoyPacket_of_provider _ _ _ _ _ hself
  simp [step, hs, iterate_eq, calls, ho, hcache, sent, sendDecoy, hdc]

/-- **Where the PKI disagrees with the configuration, the decoy panics.** On any instance whose
worker runs and whose token state satisfies `Inv`, under a configuration that sends decoy
traffic and is not a provider's: an iteration that receives a document for the current epoch
placing the node at the provider layer, with no reply handled meanwhile, caches it, and the next
iteration, a tick within that epoch, panics with "BUG: Provider generated decoy traffic not
supported yet". So the agreement `run_safe` assumes cannot be dropped. -/
theorem run_panics_of_provider (s : Instance τ) (hs : s.halted = false) (hd : s.token.Inv)
    {ent : PkiEntry} {i₁ i₂ : Input τ}
    (hcfg : env.config.sendDecoyTraffic = true ∧ env.config.isProvider = false)
    (hself : ent.self.layer = env.layerProvider)
    (h₁ : i₁.received = .doc ent (some ent.entry.epoch)) (hrep : i₁.replies = [])
    (h₂ : i₂.received = .tick) (hnow : i₂.now = some ent.entry.epoch) :
    s.run env [.iterate i₁, .iterate i₂] =
      .error (.bug "BUG: Provider generated decoy traffic not supported yet") := by
  obtain ⟨s₁, tr, effs, hst, hc, hs₁⟩ := step_doc env hs hd hcfg h₁ hrep
  simp [run, hst, step_tick_of_provider env hs₁ hc hself h₂ hnow]

/-- A node that sends decoy traffic and is not a provider, with a decoy slack of `0`, a transit
budget of `10`, and every SURB payload decrypting. -/
def loopEnv : Env ℤ := ⟨⟨true, false⟩, 0, 255, "loop", 10, 0, 0, fun _ _ => some []⟩

/-- A document for epoch `3` placing the node at layer `0`, with one provider running the loop
service. -/
def mixEntry : PkiEntry := ⟨⟨3, 100⟩, ⟨0, fun _ => none⟩, ⟨[loopProvider]⟩⟩

/-- A document for epoch `3` placing the node at the provider layer. -/
def providerEntry : PkiEntry := ⟨⟨3, 100⟩, loopProvider, ⟨[loopProvider]⟩⟩

/-- An iteration in epoch `3` that receives `received` and handles `replies` meanwhile; a send
in it draws the suffix `5` and fits its first attempt, and its sweep runs at time `0`. -/
def loopIteration (received : Received) (replies : List {pkt : Packet // pkt.isSURBReply = true}) :
    Input ℤ :=
  ⟨received, some 3, 7, List.range, 5, fun _ => Decoy.loopFits 1,
    fun _ => ⟨0, none, fun _ _ => none, fun _ => false⟩, replies, 0⟩

theorem run_panics_of_provider_after_doc : (new 0 [] : Instance ℤ).run loopEnv
    [.iterate (loopIteration (.doc providerEntry (some 3)) []), .iterate (loopIteration .tick [])] =
      .error (.bug "BUG: Provider generated decoy traffic not supported yet") :=
  run_panics_of_provider loopEnv _ rfl (Decoy.inv_new 0 []) ⟨rfl, rfl⟩ rfl rfl rfl rfl rfl

/-! ### The safety of a run -/

/-- **A decoy instance does not panic, and its token state stays well formed.** From `New`,
take any run of worker iterations and `OnPacket`s in which `rng.Perm` returns permutations, the
PKI agrees with the configuration, and the sends, sweeps and replies the run makes avoid the two
kinds of call `MesonDecoy.Decoy.admissibleEvents` leaves out: a send whose `rng.Uint64` suffix is
already a key of `surbStore`, and a reply that retires a context from a node holding another.
Then no call panics, neither in `sendDecoyPacket` nor on the token state, and after the run the
token state satisfies `Inv`, with the recipient and token base `New` chose.

**Proof sketch.** The token state's calls are a run of `MesonDecoy.Decoy.step`, which keeps
`Inv` and does not panic (`MesonDecoy.Decoy.Inv.runEvents`). The four checks keep a document at
the provider layer out of the cache (`selfOk_cache`), so `sendDecoyPacket` does not panic either,
and the run goes through (`run_ok`); its token state is the one of the events
(`run_refines`). -/
theorem run_safe [Inhabited τ] (b : UInt64) (r : List UInt8) (cs : List (Call τ))
    (hperm : PermsOk cs) (hpki : PkiAgrees env cs)
    (hadm : (Decoy.new b r : Decoy τ).admissibleEvents env.decrypt env.maxTransit
      env.userForwardPayloadLength (events env none false cs) = true) :
    ∃ s' tr effs, (new b r : Instance τ).run env cs = .ok (s', tr, effs) ∧ s'.token.Inv ∧
      s'.token.recipient = r ∧ s'.token.surbIDBase = b := by
  obtain ⟨d', h, hd', hr, hb⟩ := (Decoy.inv_new b r).runEvents env.decrypt env.maxTransit
    env.userForwardPayloadLength _ hadm
  obtain ⟨s', tr, effs, hrun⟩ := run_ok env hperm hpki (s := new b r) (fun _ h => nomatch h) h
  obtain rfl : d' = s'.token := Except.ok.inj (h.symm.trans (run_refines env hrun).2.2)
  exact ⟨s', tr, effs, hrun, hd', hr, hb⟩

/-- A document for the current epoch, then a tick that sends a loop packet, during which the
reply to it arrives. -/
def docThenTick (replies : List {pkt : Packet // pkt.isSURBReply = true}) : List (Call ℤ) :=
  [.iterate (loopIteration (.doc mixEntry (some 3)) []), .iterate (loopIteration .tick replies)]

theorem run_safe_one_loop : ∃ s' tr effs, (new 0 [] : Instance ℤ).run loopEnv
      (docThenTick [⟨Decoy.replyTo 5, rfl⟩]) = .ok (s', tr, effs) ∧
    s'.token.Inv ∧ s'.token.recipient = [] ∧ s'.token.surbIDBase = 0 :=
  run_safe loopEnv 0 [] _ (by simp [docThenTick, permsOk_cons, loopIteration])
    (by simp [docThenTick, pkiAgrees_cons, loopIteration]; decide) (by decide)

/-! ### The instance refines the worker and the token system -/

/-- From `New`, `run_refines` reads: a run caches and ends its iterations as `worker()` does over
their inputs alone, and leaves the token state `MesonDecoy.Decoy.runEvents` reaches from `New`
over the sends, replies and sweeps the run makes. -/
lemma new_refines [Inhabited τ] (b : UInt64) (r : List UInt8) {cs : List (Call τ)}
    {s : Instance τ} {tr : List (Option Entry × Worker.Outcome)} {effs : List (Effect τ)}
    (h : (new b r : Instance τ).run env cs = .ok (s, tr, effs)) :
    tr = Worker.worker env.config (iterations cs) ∧
      (Decoy.new b r : Decoy τ).runEvents env.decrypt env.maxTransit
        env.userForwardPayloadLength (events env none false cs) = .ok s.token :=
  ⟨(run_refines env h).1 rfl, (run_refines env h).2.2⟩

/-! ### The SURB IDs the instance accepts -/

/-- `OnPacket` compares the reply's recipient with `d.recipient` and its SURB ID base with
`d.surbIDBase` before it takes the mutex; no call writes either field, so a run ends with the
recipient and token base it started with (`MesonDecoy.Decoy.runEvents_frame`). -/
lemma run_keeps_unlocked_fields {s s' : Instance τ} {cs : List (Call τ)}
    {tr : List (Option Entry × Worker.Outcome)} {effs : List (Effect τ)}
    (h : s.run env cs = .ok (s', tr, effs)) :
    s'.token.recipient = s.token.recipient ∧ s'.token.surbIDBase = s.token.surbIDBase :=
  let ⟨hr, hb, _⟩ := Decoy.runEvents_frame env.decrypt env.maxTransit
    env.userForwardPayloadLength (run_refines env h).2.2
  ⟨hr, hb⟩

/-! ### A context until its reply -/

/-- **No context outlives a sweep past its deadline.** Where `a ↦ a + slack` is monotone, as on
exact time (`MesonDecoy.Duration` wraps), take an instance whose token state satisfies `Inv`,
and an iteration whose calls on the token state are admissible and whose outcome calls
`sweepSURBCtxs()`. After it, every context still held has a deadline `eta + slack` after the
time the sweep read, the context sent by the iteration itself included: the sweep comes after
the send and the replies.

**Proof sketch.** The iteration's calls are its send and its replies, then its sweep
(`fst_calls`); the first keep `Inv` (`MesonDecoy.Decoy.Inv.runEvents`), so the sweep leaves
only live contexts (`MesonDecoy.Decoy.Inv.sweepSURBCtxs_live`). -/
theorem iterate_sweeps_expired (hmono : Monotone fun a : τ => a + env.slack)
    {s s' : Instance τ} (hd : s.token.Inv) (hs : s.halted = false) {i : Input τ}
    (hsw : swept (outcome env s.docCache i) = true)
    (hadm : s.token.admissibleEvents env.decrypt env.maxTransit env.userForwardPayloadLength
      (events env s.docCache s.halted [.iterate i]) = true)
    {tr : List (Option Entry × Worker.Outcome)} {effs : List (Effect τ)}
    (h : s.step env (.iterate i) = .ok (s', tr, effs)) :
    ∀ p ∈ s'.token.held, i.monoNow < (s'.token.ctx p).eta + env.slack := by
  obtain ⟨-, hc, -⟩ := (step_iterate_cases env h).resolve_left fun ⟨hh, _⟩ =>
    absurd (hs.symm.trans hh) Bool.false_ne_true
  -- the calls on the token state: the send and the replies, then the sweep
  have hev := fst_calls env s.token (calls_decoyCall env hc)
  rw [hc] at hev
  simp only [events, hs, Bool.false_eq_true, if_false, List.append_nil] at hadm
  simp only [callEvents, hsw, if_true, ← List.append_assoc] at hev hadm
  obtain ⟨hadm₁, -⟩ := Decoy.admissibleEvents_append env.decrypt env.maxTransit
    env.userForwardPayloadLength hadm
  obtain ⟨d₀, h₀, hd₀, -⟩ := hd.runEvents env.decrypt env.maxTransit
    env.userForwardPayloadLength _ hadm₁
  obtain ⟨r, hsweep, hlive⟩ := hd₀.sweepSURBCtxs_live i.monoNow env.slack hmono
  rw [Decoy.runEvents_append, h₀] at hev
  simp only [ok_bind, Decoy.runEvents, Decoy.step, hsweep, map_ok] at hev
  rw [show s'.token = r.1 from Except.ok.inj hev]
  exact hlive

/-- After the loop packet of `docThenTick []`, whose context has deadline `1`, a further
document whose iteration sweeps at time `5`. -/
theorem iterate_sweeps_expired_after_loop : ∃ s₁ tr₁ effs₁, (new 0 [] : Instance ℤ).run loopEnv
      (docThenTick []) = .ok (s₁, tr₁, effs₁) ∧ 0 ∈ s₁.token.held ∧
    ∃ s' tr effs, s₁.step loopEnv
        (.iterate { loopIteration (.doc mixEntry (some 3)) [] with monoNow := 5 }) =
      .ok (s', tr, effs) ∧ ∀ p ∈ s'.token.held, (5 : ℤ) < (s'.token.ctx p).eta + loopEnv.slack := by
  obtain ⟨s₁, tr₁, effs₁, h₁, hp, hs, hsw, hadm, s', tr, effs, h⟩ : ∃ s₁ tr₁ effs₁,
      (new 0 [] : Instance ℤ).run loopEnv (docThenTick []) = .ok (s₁, tr₁, effs₁) ∧
      0 ∈ s₁.token.held ∧ s₁.halted = false ∧
      swept (outcome loopEnv s₁.docCache
        { loopIteration (.doc mixEntry (some 3)) [] with monoNow := 5 }) = true ∧
      s₁.token.admissibleEvents loopEnv.decrypt loopEnv.maxTransit
        loopEnv.userForwardPayloadLength (events loopEnv s₁.docCache s₁.halted
          [.iterate { loopIteration (.doc mixEntry (some 3)) [] with monoNow := 5 }]) = true ∧
      ∃ s' tr effs, s₁.step loopEnv
        (.iterate { loopIteration (.doc mixEntry (some 3)) [] with monoNow := 5 }) =
        .ok (s', tr, effs) :=
    ⟨_, _, _, rfl, by decide, rfl, rfl, by decide, _, _, _, rfl⟩
  exact ⟨s₁, tr₁, effs₁, h₁, hp, s', tr, effs, h, iterate_sweeps_expired loopEnv
    (fun _ _ h => Int.add_le_add_right h _) (inv_of_run_new loopEnv h₁ (by decide)) hs hsw hadm h⟩

/-! ### The decoy traffic of a run -/

/-- Whether the `select` took the timer's tick. -/
def Received.isTick : Received → Bool
  | .tick => true
  | _ => false

/-- `1` for an iteration whose `select` took the timer's tick, `0` for any other call. -/
def tick : Call τ → Nat
  | .iterate i => i.received.isTick.toNat
  | .reply _ _ => 0

/-- The number of iterations of a run whose `select` took the timer's tick. -/
def ticks : List (Call τ) → Nat
  | [] => 0
  | c :: cs => tick c + ticks cs

lemma sendDecoy_atMostOneEach {d d' : Decoy τ} {ent : PkiEntry} {i : Input τ}
    {effs : List (Effect τ)} (h : sendDecoy env d ent i = .ok (d', effs)) :
    Effect.AtMostOneEach effs := by
  obtain ⟨call, -, h⟩ := bind_eq_ok h
  cases call with
  | noProvider => cases h; exact Effect.atMostOneEach_nil
  | sendLoopPacket => exact Decoy.sendLoopPacket_atMostOneEach _ _ h
  | sendDiscardPacket => cases h; exact sendDiscardPacket_atMostOneEach _ _ _ _

/-- An iteration stores and dispatches nothing unless it calls `sendDecoyPacket`, and then at
most one context and one packet. -/
lemma calls_effects {o : Worker.Outcome} {docCache : Option PkiEntry} {d d' : Decoy τ}
    {i : Input τ} {effs : List (Effect τ)} (h : calls env o docCache d i = .ok (d', effs)) :
    effs = [] ∨ (sent o docCache).isSome ∧ Effect.AtMostOneEach effs := by
  -- the replies and the sweep after the send make no effect
  have hsnd : ∀ {d₁ : Decoy τ} {effs₁ : List (Effect τ)},
      afterSend env o d₁ i effs₁ = .ok (d', effs) → effs = effs₁ := by
    intro d₁ effs₁ h
    unfold afterSend at h
    obtain ⟨d₂, -, h⟩ := bind_eq_ok h
    split at h
    · obtain ⟨_, -, he⟩ := map_eq_ok h
      exact (congrArg Prod.snd he).symm
    · cases h
      rfl
  unfold calls at h
  cases hs : sent o docCache with
  | none =>
    simp only [hs] at h
    exact .inl (hsnd h)
  | some ent =>
    simp only [hs] at h
    obtain ⟨⟨d₁, effs₁⟩, h₁, h⟩ := bind_eq_ok h
    obtain rfl := hsnd h
    exact .inr ⟨rfl, sendDecoy_atMostOneEach env h₁⟩

/-- One call stores at most one context and dispatches at most one packet, and only an
iteration that took the timer's tick does either. -/
lemma step_effects {s s' : Instance τ} {c : Call τ}
    {tr : List (Option Entry × Worker.Outcome)} {effs : List (Effect τ)}
    (h : s.step env c = .ok (s', tr, effs)) :
    effs.countP Effect.isStore ≤ tick c ∧ effs.countP Effect.isDispatch ≤ tick c := by
  cases c with
  | iterate i =>
    rcases step_iterate_cases env h with ⟨-, -, -, rfl⟩ | ⟨-, hc, -⟩
    · simp
    · rcases calls_effects env hc with h0 | ⟨hs, hle⟩
      · rw [h0]
        simp
      · obtain ⟨ent, hent⟩ := Option.isSome_iff_exists.1 hs
        simpa [tick, (sent_outcome env hent).1, Received.isTick] using hle
  | reply pkt hs =>
    obtain ⟨-, -, -, -, rfl⟩ := step_reply_cases env h
    simp

/-- **A decoy instance sends at most one decoy packet per tick.** In any run that does not
panic, the contexts stored and the packets dispatched are each at most as many as the iterations
whose `select` took the timer's tick: an iteration that receives a document or halts, and an
`OnPacket`, store and dispatch nothing, and a tick at most one context and one packet, however
many of `sendLoopPacket`'s attempts run.

**Proof sketch.** Induction on the run, from `step_effects`: only a tick calls
`sendDecoyPacket` (`sent_outcome`), whose loop sends in at most one attempt
(`MesonDecoy.Decoy.sendLoopPacket_atMostOneEach`). -/
theorem effects_le_ticks {cs : List (Call τ)} :
    ∀ {s s' : Instance τ} {tr : List (Option Entry × Worker.Outcome)} {effs : List (Effect τ)},
      s.run env cs = .ok (s', tr, effs) →
      effs.countP Effect.isStore ≤ ticks cs ∧ effs.countP Effect.isDispatch ≤ ticks cs := by
  induction cs with
  | nil =>
    intro s s' tr effs h
    cases h
    simp
  | cons c cs ih =>
    intro s s' tr effs h
    obtain ⟨⟨s₁, tr₁, effs₁⟩, h₁, h⟩ := bind_eq_ok h
    obtain ⟨⟨s₂, tr₂, effs₂⟩, h₂, h⟩ := bind_eq_ok h
    cases h
    obtain ⟨hs₁, hd₁⟩ := step_effects env h₁
    obtain ⟨hs₂, hd₂⟩ := ih h₂
    simp only [ticks, List.countP_append]
    omega

/-- The run of one loop packet reaches the bound: one tick, one context stored, one packet
dispatched. -/
theorem effects_le_ticks_one_loop : ∃ s tr effs, (new 0 [] : Instance ℤ).run loopEnv
      (docThenTick []) = .ok (s, tr, effs) ∧ ticks (docThenTick []) = 1 ∧
    effs.countP Effect.isStore = 1 ∧ effs.countP Effect.isDispatch = 1 ∧
    (effs.countP Effect.isStore ≤ ticks (docThenTick []) ∧
      effs.countP Effect.isDispatch ≤ ticks (docThenTick [])) := by
  obtain ⟨s, tr, effs, h, hs, hd⟩ : ∃ s tr effs, (new 0 [] : Instance ℤ).run loopEnv
      (docThenTick []) = .ok (s, tr, effs) ∧ effs.countP Effect.isStore = 1 ∧
      effs.countP Effect.isDispatch = 1 := ⟨_, _, _, rfl, by decide, by decide⟩
  exact ⟨s, tr, effs, h, rfl, hs, hd, effects_le_ticks loopEnv h⟩

/-- With no document cached and none accepted, a call stores and dispatches nothing, and caches
no document. -/
lemma step_silent_of_disabled
    (hcfg : env.config.sendDecoyTraffic = false ∨ env.config.isProvider = true)
    {s s₁ : Instance τ} {c : Call τ} {tr : List (Option Entry × Worker.Outcome)}
    {effs : List (Effect τ)} (hdc : s.docCache = none) (h : s.step env c = .ok (s₁, tr, effs)) :
    effs = [] ∧ s₁.docCache = none := by
  cases c with
  | iterate i =>
    rcases step_iterate_cases env h with ⟨-, rfl, -, rfl⟩ | ⟨-, hc, hdc₁, -⟩
    · exact ⟨rfl, hdc⟩
    · rw [hdc, cache_of_disabled env hcfg] at hc hdc₁
      refine ⟨?_, hdc₁⟩
      rcases calls_effects env hc with h0 | ⟨hs, -⟩
      · exact h0
      · simp [sent_none] at hs
  | reply pkt hs =>
    obtain ⟨-, hdc₁, -, -, rfl⟩ := step_reply_cases env h
    exact ⟨rfl, hdc₁.trans hdc⟩

/-- **With decoy traffic disabled, the decoy sends nothing.** Under a configuration with
`Debug.SendDecoyTraffic` off, or with `Server.IsProvider` set, a run from an instance with no
cached document, `New`'s in particular, caches no document, stores no context and dispatches
no packet, whatever documents, ticks and replies it receives.

**Proof sketch.** Induction on the run from `step_silent_of_disabled`: the four checks reject
every document (`cache_of_disabled`), so no iteration calls `sendDecoyPacket`
(`calls_effects`). -/
theorem run_silent_of_disabled
    (hcfg : env.config.sendDecoyTraffic = false ∨ env.config.isProvider = true)
    {cs : List (Call τ)} :
    ∀ {s s' : Instance τ} {tr : List (Option Entry × Worker.Outcome)} {effs : List (Effect τ)},
      s.docCache = none → s.run env cs = .ok (s', tr, effs) → effs = [] ∧ s'.docCache = none := by
  induction cs with
  | nil =>
    intro s s' tr effs hdc h
    cases h
    exact ⟨rfl, hdc⟩
  | cons c cs ih =>
    intro s s' tr effs hdc h
    obtain ⟨⟨s₁, tr₁, effs₁⟩, h₁, h⟩ := bind_eq_ok h
    obtain ⟨⟨s₂, tr₂, effs₂⟩, h₂, h⟩ := bind_eq_ok h
    cases h
    obtain ⟨rfl, hdc₁⟩ := step_silent_of_disabled env hcfg hdc h₁
    obtain ⟨rfl, hdc₂⟩ := ih hdc₁ h₂
    exact ⟨rfl, hdc₂⟩

/-- The run `docThenTick []` on a node with `SendDecoyTraffic` off. -/
theorem run_silent_of_disabled_doc_then_tick : ∃ s tr effs,
    (new 0 [] : Instance ℤ).run { loopEnv with config := ⟨false, false⟩ } (docThenTick []) =
      .ok (s, tr, effs) ∧ effs = [] ∧ s.docCache = none := by
  obtain ⟨s, tr, effs, h⟩ : ∃ s tr effs, (new 0 [] : Instance ℤ).run
      { loopEnv with config := ⟨false, false⟩ } (docThenTick []) = .ok (s, tr, effs) :=
    ⟨_, _, _, rfl⟩
  exact ⟨s, tr, effs, h, run_silent_of_disabled _ (.inl rfl) rfl h⟩

end Iterate

end Instance

end MesonDecoy
