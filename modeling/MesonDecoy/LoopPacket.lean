import MesonDecoy.Store

set_option autoImplicit false

/-!
# `sendLoopPacket`

A loop decoy packet carries a SURB whose reply comes back to the decoy. `sendLoopPacket` draws
the SURB ID (the token base, then a random suffix), and makes up to `maxAttempts` attempts to
pick a forward and a reverse path whose transit fits the time budget. In the first attempt that
fits it builds the SURB and the payload, stores the token context (id the suffix, ETA now plus
the transit time, key the SURB's), and only then builds the Sphinx packet and dispatches it.
A path error ends the call. So the call stores at most one context, before any dispatch, and
dispatches exactly when `sphinx.NewPacket` and `packet.New` succeed after the store: when either
fails, the stored context has no packet and waits for the sweep.

## Main definitions

* `MesonDecoy.makeSURBID` — `decoy.go:386`.
* `MesonDecoy.Attempt` — what the external calls of one attempt return.
* `MesonDecoy.Decoy.sendLoopPacket` — `decoy.go:286`, with `dispatchPacket` (`decoy.go:372`).
* `MesonDecoy.sendDiscardPacket` — `decoy.go:345`, which `sendDecoyPacket` never calls.

## Main results

* `MesonDecoy.Decoy.loopAttempts_cases` — the loop stops with nothing done, or sends in the
  first attempt whose paths fit the budget.
* `MesonDecoy.Decoy.sendLoopPacket_spec` — what the call stores and dispatches.
* `MesonDecoy.Decoy.sendLoopPacket_atMostOneEach` — at most one context and one packet.

## Implementation notes

The external calls are parameters, one `Attempt` per iteration: `path.New`, `sphinx.NewSURB`,
`sphinx.NewPacket`, `packet.New` and the clocks may return anything, so every result holds for
every PKI document, descriptor and random source. `path.New` gets the SURB ID, and the reverse
call the arrival time of the forward path, as in the source; a path is non-empty, as `path.New`
builds one. An error of `NewSURB` is only logged by the source, which goes on with the SURB and
key returned, so the model has `newSURB` return the pair without an error. The call's effects
outside the token state, the store and the dispatch, are returned in order as `Effect`s.
-/

namespace MesonDecoy

/-- `maxAttempts`. -/
def maxAttempts : Nat := 3

/-- `d.makeSURBID(&surbID)`, with `d.rng.Uint64()` returning `suffix`: the token base and the
suffix, each as eight big-endian bytes. -/
def makeSURBID (surbIDBase suffix : UInt64) : List UInt8 := putUint64 surbIDBase ++ putUint64 suffix

@[simp] lemma bigEndianUint64_makeSURBID (surbIDBase suffix : UInt64) :
    bigEndianUint64 (makeSURBID surbIDBase suffix) = surbIDBase :=
  bigEndianUint64_putUint64_append _ _

@[simp] lemma bigEndianUint64_makeSURBID_drop (surbIDBase suffix : UInt64) :
    bigEndianUint64 ((makeSURBID surbIDBase suffix).drop 8) = suffix := by
  simpa [makeSURBID, List.drop_left'] using bigEndianUint64_putUint64_append suffix []

lemma length_makeSURBID (surbIDBase suffix : UInt64) :
    (makeSURBID surbIDBase suffix).length = 16 := by
  simp [makeSURBID]

/-- A sixteen-byte SURB ID is the one `makeSURBID` builds from the two values `OnPacket` reads
from it. -/
lemma eq_makeSURBID_iff {surbID : List UInt8} (h : surbID.length = 16)
    (surbIDBase suffix : UInt64) :
    surbID = makeSURBID surbIDBase suffix ↔
      bigEndianUint64 surbID = surbIDBase ∧ bigEndianUint64 (surbID.drop 8) = suffix := by
  refine ⟨fun e => e ▸ ⟨bigEndianUint64_makeSURBID _ _, bigEndianUint64_makeSURBID_drop _ _⟩,
    fun ⟨hb, hs⟩ => ?_⟩
  have hfirst : bigEndianUint64 (surbID.take 8) = surbIDBase := by
    rw [← hb, bigEndianUint64, bigEndianUint64, List.take_take, Nat.min_self]
  rw [makeSURBID, ← hfirst, ← hs, putUint64_bigEndianUint64 (by simp [h]),
    putUint64_bigEndianUint64 (by simp [h]), List.take_append_drop]

/-- A path `path.New` builds: the ids of its hops, first hop first. -/
structure Path where
  hops : List (List UInt8)
  hops_ne_nil : hops ≠ []

/-- `fwdPath[0].ID`. -/
def Path.firstHop (p : Path) : List UInt8 := p.hops.head p.hops_ne_nil

/-- What the external calls of one iteration of `sendLoopPacket`'s loop return. -/
structure Attempt (τ : Type) where
  /-- `time.Now()` before the paths are built. -/
  now : τ
  /-- `path.New(d.rng, doc, recipient, src, dst, &surbID, time.Now(), false, true)`, given the
  SURB ID: the forward path and the time it ends, or an error. -/
  fwdPath : List UInt8 → Option (Path × τ)
  /-- `path.New(d.rng, doc, d.recipient, dst, src, &surbID, then, false, false)`, given the SURB
  ID and the time the forward path ends: the reverse path and the time it ends, or an error. -/
  revPath : List UInt8 → τ → Option (Path × τ)
  /-- `sphinx.NewSURB(rand.Reader, revPath)`: the SURB and its key. -/
  newSURB : Path → List UInt8 × List UInt8
  /-- `monotime.Now()` when the context is built. -/
  monoNow : τ
  /-- `sphinx.NewPacket(rand.Reader, fwdPath, payload)`, or an error. -/
  newPacket : Path → List UInt8 → Option (List UInt8)
  /-- Whether `packet.New(raw)` succeeds. -/
  packetNew : List UInt8 → Bool

/-- What the external calls of one iteration of `sendDiscardPacket`'s loop return. -/
structure DiscardAttempt (τ : Type) where
  /-- `time.Now()` before the path is built. -/
  now : τ
  /-- `path.New(d.rng, doc, recipient, src, dst, nil, time.Now(), false, true)`: the forward
  path and the time it ends, or an error. -/
  fwdPath : Option (Path × τ)
  /-- `sphinx.NewPacket(rand.Reader, fwdPath, payload[:])`, or an error. -/
  newPacket : Path → List UInt8 → Option (List UInt8)
  /-- Whether `packet.New(raw)` succeeds. -/
  packetNew : List UInt8 → Bool

/-- An effect of `sendLoopPacket` on the world: a token context stored with `storeSURBCtx`, or a
packet handed to `Connector().DispatchPacket` with its next hop. -/
inductive Effect (τ : Type)
  | store (c : SurbCtx τ)
  | dispatch (nextNodeHop raw : List UInt8)

namespace Effect

variable {τ : Type}

/-- Whether the effect is a store. -/
def isStore : Effect τ → Bool
  | .store _ => true
  | .dispatch .. => false

/-- Whether the effect is a dispatch. -/
def isDispatch : Effect τ → Bool
  | .store _ => false
  | .dispatch .. => true

/-- At most one store and at most one dispatch. -/
def AtMostOneEach (effs : List (Effect τ)) : Prop :=
  effs.countP isStore ≤ 1 ∧ effs.countP isDispatch ≤ 1

lemma atMostOneEach_nil : AtMostOneEach ([] : List (Effect τ)) :=
  ⟨Nat.zero_le _, Nat.zero_le _⟩

end Effect

section Send

variable {τ : Type} (maxTransit : τ) (userForwardPayloadLength : Nat)

/-- The payload of a loop packet: `1` (it has a SURB), `0`, the SURB, and
`constants.UserForwardPayloadLength` zero bytes. -/
def loopPayload (surb : List UInt8) : List UInt8 :=
  [1, 0] ++ surb ++ List.replicate userForwardPayloadLength 0

/-- `d.dispatchPacket(fwdPath, raw)`: the dispatch, unless `packet.New(raw)` fails. -/
def Decoy.dispatchPacket (fwdPath : Path) (raw : List UInt8) (packetNewOk : Bool) :
    List (Effect τ) :=
  if packetNewOk then [.dispatch fwdPath.firstHop raw] else []

lemma Decoy.countP_dispatchPacket (fwdPath : Path) (raw : List UInt8) (packetNewOk : Bool) :
    (dispatchPacket fwdPath raw packetNewOk : List (Effect τ)).countP Effect.isStore = 0 ∧
      (dispatchPacket fwdPath raw packetNewOk : List (Effect τ)).countP Effect.isDispatch ≤ 1 := by
  unfold dispatchPacket
  split <;> simp [Effect.isStore, Effect.isDispatch]

namespace Attempt

variable [Add τ]

/-- The context an attempt stores: the suffix of the SURB ID, `monotime.Now() + deltaT`, and
the key of the SURB built on the reverse path. -/
def ctx (a : Attempt τ) (surbID : List UInt8) (revPath : Path) (deltaT : τ) : SurbCtx τ :=
  ⟨bigEndianUint64 (surbID.drop 8), a.monoNow + deltaT, (a.newSURB revPath).2⟩

/-- What an attempt dispatches after storing: the Sphinx packet of the payload on the forward
path, unless `sphinx.NewPacket` or `packet.New` fails. -/
def dispatched (a : Attempt τ) (fwdPath revPath : Path) : List (Effect τ) :=
  match a.newPacket fwdPath (loopPayload userForwardPayloadLength (a.newSURB revPath).1) with
  | none => []
  | some raw => Decoy.dispatchPacket fwdPath raw (a.packetNew raw)

variable [Sub τ] [LT τ]

/-- Both paths of an attempt are built and fit the budget: the forward path ends at `then₁`,
the reverse path, started then, at `then₂`, and `deltaT = then₂ - now < maxTransit`. -/
def Fits (a : Attempt τ) (surbID : List UInt8) (fwdPath revPath : Path) (deltaT : τ) : Prop :=
  ∃ then₁ then₂, a.fwdPath surbID = some (fwdPath, then₁) ∧
    a.revPath surbID then₁ = some (revPath, then₂) ∧ deltaT = then₂ - a.now ∧ deltaT < maxTransit

end Attempt

namespace Decoy

variable [LinearOrder τ] [Add τ]

/-- The body of the loop once both paths fit the budget: build the SURB and the payload, store
the context, build the packet and dispatch it. -/
def sendAttempt (a : Attempt τ) (surbID : List UInt8) (fwdPath revPath : Path) (deltaT : τ)
    (d : Decoy τ) : Except Panic (Decoy τ × List (Effect τ)) := do
  -- surb, k, err := sphinx.NewSURB(rand.Reader, revPath); on error only a log line
  let (surb, k) := a.newSURB revPath
  let payload := loopPayload userForwardPayloadLength surb
  let ctx : SurbCtx τ := ⟨bigEndianUint64 (surbID.drop 8), a.monoNow + deltaT, k⟩
  let (c, d) := d.alloc ctx
  let d ← d.storeSURBCtx c
  match a.newPacket fwdPath payload with
  | none => pure (d, [.store ctx])
  | some raw => pure (d, .store ctx :: dispatchPacket fwdPath raw (a.packetNew raw))

/-- The body of an attempt stores `a.ctx` and then dispatches `a.dispatched`; a panic can only
come from the store. -/
lemma sendAttempt_eq (a : Attempt τ) (surbID : List UInt8) (fwdPath revPath : Path)
    (deltaT : τ) (d : Decoy τ) :
    sendAttempt userForwardPayloadLength a surbID fwdPath revPath deltaT d =
      (fun d' => (d', .store (a.ctx surbID revPath deltaT) ::
        a.dispatched userForwardPayloadLength fwdPath revPath)) <$>
        (d.alloc (a.ctx surbID revPath deltaT)).2.storeSURBCtx d.ctxCount := by
  simp only [sendAttempt, Attempt.ctx, Attempt.dispatched, alloc_fst]
  cases (d.alloc _).2.storeSURBCtx d.ctxCount with
  | error e => rfl
  | ok d' => cases a.newPacket fwdPath _ <;> rfl

variable [Sub τ]

/-- The loop `for attempts := 0; attempts < maxAttempts; attempts++`, from attempt `i` with
`left` iterations remaining; `attempt j` is what iteration `j`'s external calls return. -/
def loopAttempts (attempt : Nat → Attempt τ) (surbID : List UInt8) (d : Decoy τ) (i : Nat) :
    Nat → Except Panic (Decoy τ × List (Effect τ))
  | 0 => pure (d, [])
  | left + 1 =>
    let a := attempt i
    match a.fwdPath surbID with
    | none => pure (d, [])
    | some (fwdPath, then₁) =>
      match a.revPath surbID then₁ with
      | none => pure (d, [])
      | some (revPath, then₂) =>
        -- deltaT := then.Sub(now); deltaT < epochtime.TestPeriod*2
        if then₂ - a.now < maxTransit then
          sendAttempt userForwardPayloadLength a surbID fwdPath revPath (then₂ - a.now) d
        else loopAttempts attempt surbID d (i + 1) left

/-- `d.sendLoopPacket(doc, recipient, src, dst)`, with `d.rng.Uint64()` returning `suffix`. -/
def sendLoopPacket (attempt : Nat → Attempt τ) (d : Decoy τ) (suffix : UInt64) :
    Except Panic (Decoy τ × List (Effect τ)) :=
  loopAttempts maxTransit userForwardPayloadLength attempt (makeSURBID d.surbIDBase suffix) d 0
    maxAttempts

/-- **The loop stops with nothing done, or sends in one attempt.** From attempt `i` with `left`
iterations remaining, the loop either returns the state unchanged with no effect (a path error,
or every attempt over the budget), or is the body of some attempt `j` among them whose paths fit.

**Proof sketch.** Induction on `left`: an iteration stops, sends, or goes on to the next. -/
theorem loopAttempts_cases (attempt : Nat → Attempt τ) (surbID : List UInt8) (d : Decoy τ) :
    ∀ i left, loopAttempts maxTransit userForwardPayloadLength attempt surbID d i left =
        .ok (d, []) ∨
      ∃ j fwdPath revPath deltaT, i ≤ j ∧ j < i + left ∧
        (attempt j).Fits maxTransit surbID fwdPath revPath deltaT ∧
        loopAttempts maxTransit userForwardPayloadLength attempt surbID d i left =
          sendAttempt userForwardPayloadLength (attempt j) surbID fwdPath revPath deltaT d
  | _, 0 => Or.inl rfl
  | i, left + 1 => by
    simp only [loopAttempts]
    rcases hf : (attempt i).fwdPath surbID with _ | ⟨fwdPath, then₁⟩
    · exact Or.inl rfl
    dsimp only
    rcases hr : (attempt i).revPath surbID then₁ with _ | ⟨revPath, then₂⟩
    · exact Or.inl rfl
    dsimp only
    split_ifs with hlt
    · exact Or.inr ⟨i, fwdPath, revPath, _, le_rfl, by omega, ⟨then₁, then₂, hf, hr, rfl, hlt⟩,
        rfl⟩
    · rcases loopAttempts_cases attempt surbID d (i + 1) left with
        h | ⟨j, f, r, t, hij, hj, hfit, h⟩
      · exact Or.inl h
      · exact Or.inr ⟨j, f, r, t, by omega, by omega, hfit, h⟩

/-- `sendLoopPacket` does nothing, or stores, at the next pointer, a context whose id is
`suffix` and then has its other effects; a panic can only come from the store. -/
lemma sendLoopPacket_cases (attempt : Nat → Attempt τ) (d : Decoy τ) (suffix : UInt64) :
    d.sendLoopPacket maxTransit userForwardPayloadLength attempt suffix = .ok (d, []) ∨
    ∃ c : SurbCtx τ, c.id = suffix ∧ ∃ effs,
      d.sendLoopPacket maxTransit userForwardPayloadLength attempt suffix =
        (fun d' => (d', .store c :: effs)) <$> (d.alloc c).2.storeSURBCtx d.ctxCount := by
  rcases loopAttempts_cases maxTransit userForwardPayloadLength attempt
      (makeSURBID d.surbIDBase suffix) d 0 maxAttempts with h | ⟨j, f, r, t, -, -, -, h⟩
  · exact Or.inl h
  · refine Or.inr ⟨(attempt j).ctx (makeSURBID d.surbIDBase suffix) r t, by simp [Attempt.ctx],
      (attempt j).dispatched userForwardPayloadLength f r, ?_⟩
    rw [sendLoopPacket, h, sendAttempt_eq]

/-- **What `sendLoopPacket` stores and dispatches.** Either the call changes nothing and
dispatches nothing, or, in one of its first `maxAttempts` attempts, one whose paths for the SURB
ID `makeSURBID surbIDBase suffix` fit the budget, it stores one context, with id `suffix` and the
key `NewSURB` returned for the SURB it built, and after the store dispatches the packet
`sphinx.NewPacket` built from the payload `[1, 0] ++ surb ++ zeros` when `NewPacket` and
`packet.New` succeed, and nothing when either fails. A panic can only come from the store.

**Proof sketch.** `loopAttempts_cases` gives the attempt and `sendAttempt_eq` its effects; the
id the context gets is the suffix, read back from the SURB ID. -/
theorem sendLoopPacket_spec (attempt : Nat → Attempt τ) (d : Decoy τ) (suffix : UInt64) :
    d.sendLoopPacket maxTransit userForwardPayloadLength attempt suffix = .ok (d, []) ∨
    ∃ j < maxAttempts, ∃ fwdPath revPath deltaT,
      (attempt j).Fits maxTransit (makeSURBID d.surbIDBase suffix) fwdPath revPath deltaT ∧
      let c : SurbCtx τ :=
        ⟨suffix, (attempt j).monoNow + deltaT, ((attempt j).newSURB revPath).2⟩
      d.sendLoopPacket maxTransit userForwardPayloadLength attempt suffix =
        (fun d' => (d', .store c ::
          match (attempt j).newPacket fwdPath
            (loopPayload userForwardPayloadLength ((attempt j).newSURB revPath).1) with
          | none => []
          | some raw =>
            if (attempt j).packetNew raw then [.dispatch fwdPath.firstHop raw] else [])) <$>
          (d.alloc c).2.storeSURBCtx d.ctxCount := by
  rcases loopAttempts_cases maxTransit userForwardPayloadLength attempt
      (makeSURBID d.surbIDBase suffix) d 0 maxAttempts with h | ⟨j, f, r, t, -, hj, hfit, h⟩
  · exact Or.inl h
  · refine Or.inr ⟨j, by simpa using hj, f, r, t, hfit, ?_⟩
    rw [sendLoopPacket, h, sendAttempt_eq]
    simp [Attempt.ctx, Attempt.dispatched, dispatchPacket]

/-- **`sendLoopPacket` stores at most one context and dispatches at most one packet.** -/
theorem sendLoopPacket_atMostOneEach {attempt : Nat → Attempt τ} {d d' : Decoy τ}
    {suffix : UInt64} {effs : List (Effect τ)}
    (h : d.sendLoopPacket maxTransit userForwardPayloadLength attempt suffix = .ok (d', effs)) :
    Effect.AtMostOneEach effs := by
  rcases loopAttempts_cases maxTransit userForwardPayloadLength attempt
      (makeSURBID d.surbIDBase suffix) d 0 maxAttempts with h' | ⟨j, f, r, t, -, -, -, h'⟩
  · rw [sendLoopPacket, h'] at h
    cases h
    exact Effect.atMostOneEach_nil
  · rw [sendLoopPacket, h', sendAttempt_eq] at h
    obtain ⟨_, -, he⟩ := map_eq_ok h
    simp only [Prod.mk.injEq] at he
    obtain ⟨-, rfl⟩ := he
    have hd : ((attempt j).dispatched userForwardPayloadLength f r).countP Effect.isStore = 0 ∧
        ((attempt j).dispatched userForwardPayloadLength f r).countP Effect.isDispatch ≤ 1 := by
      unfold Attempt.dispatched
      split
      · simp
      · exact countP_dispatchPacket _ _ _
    simp only [Effect.AtMostOneEach, List.countP_cons, Effect.isStore, Effect.isDispatch, hd.1]
    exact ⟨le_rfl, by simpa using hd.2⟩

/-- The attempt of `sendLoopPacket_stores_without_dispatch`: both paths are built, with a
transit of `1`, and `sphinx.NewPacket` fails. -/
def newPacketFails : Attempt ℤ :=
  ⟨0, fun _ => some (⟨[[]], List.cons_ne_nil _ _⟩, 0),
    fun _ _ => some (⟨[[]], List.cons_ne_nil _ _⟩, 1),
    fun _ => ([], []), 0, fun _ _ => none, fun _ => true⟩

/-- A call in which `sphinx.NewPacket` fails after the store: the context is in `surbStore`,
and no packet is dispatched. -/
theorem sendLoopPacket_stores_without_dispatch :
    ∃ d', (new 0 [] : Decoy ℤ).sendLoopPacket 10 0 (fun _ => newPacketFails) 5 =
      .ok (d', [.store ⟨5, 1, []⟩]) ∧ d'.surbStore 5 = some 0 :=
  ⟨_, rfl, by decide⟩

end Decoy

/-! ### `sendDiscardPacket` -/

variable [LinearOrder τ] [Sub τ] (surbLength : Nat)

/-- The payload of a discard packet, `var payload [2 + sphinx.SURBLength +
constants.UserForwardPayloadLength]byte`: all zero. -/
def discardPayload : List UInt8 := List.replicate (2 + surbLength + userForwardPayloadLength) 0

/-- The loop `for attempts := 0; attempts < maxAttempts; attempts++` of `sendDiscardPacket`,
from attempt `i` with `left` iterations remaining: what it dispatches. -/
def discardAttempts (attempt : Nat → DiscardAttempt τ) (i : Nat) : Nat → List (Effect τ)
  | 0 => []
  | left + 1 =>
    let a := attempt i
    match a.fwdPath with
    | none => []
    | some (fwdPath, then₁) =>
      -- then.Sub(now) < epochtime.TestPeriod*2
      if then₁ - a.now < maxTransit then
        match a.newPacket fwdPath (discardPayload userForwardPayloadLength surbLength) with
        | none => []
        | some raw => Decoy.dispatchPacket fwdPath raw (a.packetNew raw)
      else discardAttempts attempt (i + 1) left

/-- `d.sendDiscardPacket(doc, recipient, src, dst)`: what it dispatches. It reaches no state of
the decoy. -/
def sendDiscardPacket (attempt : Nat → DiscardAttempt τ) : List (Effect τ) :=
  discardAttempts maxTransit userForwardPayloadLength surbLength attempt 0 maxAttempts

/-- The loop dispatches nothing, or, in the first of its attempts whose path fits the budget,
the packet `sphinx.NewPacket` builds from the zero payload, when `packet.New` accepts it.

**Proof sketch.** Induction on `left`, as for `loopAttempts_cases`. -/
lemma discardAttempts_cases (attempt : Nat → DiscardAttempt τ) :
    ∀ i left, discardAttempts maxTransit userForwardPayloadLength surbLength attempt i left = [] ∨
      ∃ j fwdPath then₁ raw, i ≤ j ∧ j < i + left ∧
        (∀ j', i ≤ j' → j' < j → ∃ p t, (attempt j').fwdPath = some (p, t) ∧
          ¬ t - (attempt j').now < maxTransit) ∧
        (attempt j).fwdPath = some (fwdPath, then₁) ∧ then₁ - (attempt j).now < maxTransit ∧
        (attempt j).newPacket fwdPath (discardPayload userForwardPayloadLength surbLength) =
          some raw ∧ (attempt j).packetNew raw = true ∧
        discardAttempts maxTransit userForwardPayloadLength surbLength attempt i left =
          [.dispatch fwdPath.firstHop raw]
  | _, 0 => Or.inl rfl
  | i, left + 1 => by
    simp only [discardAttempts]
    rcases hf : (attempt i).fwdPath with _ | ⟨fwdPath, then₁⟩
    · exact Or.inl rfl
    dsimp only
    split_ifs with hlt
    · rcases hp : (attempt i).newPacket fwdPath (discardPayload userForwardPayloadLength surbLength)
        with _ | raw
      · exact Or.inl rfl
      cases hn : (attempt i).packetNew raw
      · simp [Decoy.dispatchPacket, hn]
      · exact Or.inr ⟨i, fwdPath, then₁, raw, le_rfl, by omega,
          fun j' h1 h2 => absurd h2 (by omega), hf, hlt, hp, hn, by simp [Decoy.dispatchPacket, hn]⟩
    · rcases discardAttempts_cases attempt (i + 1) left with
        h | ⟨j, f, t, raw, hij, hj, hbefore, hrest⟩
      · exact Or.inl h
      · refine Or.inr ⟨j, f, t, raw, by omega, by omega, fun j' h1 h2 => ?_, hrest⟩
        rcases Nat.lt_or_ge i j' with h | h
        · exact hbefore j' h h2
        · obtain rfl : j' = i := by omega
          exact ⟨fwdPath, then₁, hf, hlt⟩

/-- `sendDiscardPacket` dispatches at most one packet, and stores nothing. -/
lemma sendDiscardPacket_atMostOneEach (attempt : Nat → DiscardAttempt τ) :
    Effect.AtMostOneEach
      (sendDiscardPacket maxTransit userForwardPayloadLength surbLength attempt) := by
  rcases discardAttempts_cases maxTransit userForwardPayloadLength surbLength attempt 0
      maxAttempts with h | ⟨j, f, t, raw, -, -, -, -, -, -, -, h⟩ <;>
    rw [sendDiscardPacket, h]
  · exact Effect.atMostOneEach_nil
  · simp [Effect.AtMostOneEach, Effect.isStore, Effect.isDispatch]

end Send

end MesonDecoy
