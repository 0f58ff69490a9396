import MesonDecoy.Sweep

set_option autoImplicit false

/-!
# Runs of the token operations

The mutex serialises the worker's `storeSURBCtx` and `sweepSURBCtxs` and the crypto workers'
`loadAndDeleteSURBCtx` into one sequence of calls. This file follows such sequences from the
state `New` builds. Two kinds of call break the representation invariant: storing a context
under an id that is already a key (the ids are random 64-bit draws, and nothing checks that a
draw is new), and retiring a context from a node that holds another, after which the node holds
a nil `*surbCtx` and the next type assertion on it panics. Every run that avoids both keeps
`Inv`, and none of its calls panics.

## Main definitions

* `MesonDecoy.Op` — a call; `MesonDecoy.Decoy.run` — a sequence of calls.
* `MesonDecoy.Decoy.admissibleRun` — the runs that avoid the two kinds of call.

## Main results

* `MesonDecoy.Decoy.Inv.run` — an admissible run keeps `Inv` and does not panic.
-/

namespace MesonDecoy

/-- A call on the token state: `storeSURBCtx` of a newly built context, `loadAndDeleteSURBCtx`,
or `sweepSURBCtxs` at a monotonic time with a slack. -/
inductive Op (τ : Type)
  | store (x : SurbCtx τ)
  | loadAndDelete (id : UInt64)
  | sweep (now slack : τ)

namespace Decoy

variable {τ : Type} [LinearOrder τ]

variable [Add τ]

/-- One call, made under the mutex. -/
def apply (d : Decoy τ) : Op τ → Except Panic (Decoy τ)
  | .store x => (d.alloc x).2.storeSURBCtx (d.alloc x).1
  | .loadAndDelete id => Prod.snd <$> d.loadAndDeleteSURBCtx id
  | .sweep now slack => Prod.fst <$> d.sweepSURBCtxs now slack

/-- A sequence of calls; a panic ends the process. -/
def run (d : Decoy τ) : List (Op τ) → Except Panic (Decoy τ)
  | [] => .ok d
  | op :: ops => do (← d.apply op).run ops

/-- Whether a call avoids the two kinds that break the invariant: it stores a context whose id
is not a key, retires an id whose context's node holds only that context, or sweeps. -/
def admissible (d : Decoy τ) : Op τ → Bool
  | .store x => (d.surbStore x.id).isNone
  | .loadAndDelete id =>
    match d.surbStore id with
    | some c =>
      match d.etaNode c with
      | some n => d.surbETAs.value n == .surbCtxs [c]
      | none => true
    | none => true
  | .sweep _ _ => true

/-- Whether every call of a sequence is admissible in the state it is made in. -/
def admissibleRun (d : Decoy τ) : List (Op τ) → Bool
  | [] => true
  | op :: ops => d.admissible op &&
    match d.apply op with
    | .ok d' => d'.admissibleRun ops
    | .error _ => true

/-- **An admissible call keeps `Inv`** and does not panic. -/
theorem Inv.apply {d : Decoy τ} (hd : d.Inv) {op : Op τ} (ha : d.admissible op = true) :
    ∃ d', d.apply op = .ok d' ∧ d'.Inv := by
  cases op with
  | store x => exact hd.alloc_storeSURBCtx x (by simpa [admissible] using ha)
  | loadAndDelete id =>
    cases hs : d.surbStore id with
    | none => exact ⟨d, by simp [Decoy.apply, loadAndDeleteSURBCtx_of_none hs], hd⟩
    | some c =>
      obtain ⟨n, -, -, hn⟩ := hd.exists_node ((hd.held_iff c).2 ⟨id, hs⟩)
      have hv : d.surbETAs.value n = .surbCtxs [c] := by simpa [admissible, hs, hn] using ha
      exact ⟨_, by rw [Decoy.apply, Decoy.loadAndDeleteSURBCtx_of_single hs hn hv]; rfl,
        hd.loadAndDeleteSURBCtx_of_single hs hn hv⟩
  | sweep now slack =>
    obtain ⟨r, hr, hi⟩ := hd.sweepSURBCtxs now slack
    exact ⟨r.1, by simp [Decoy.apply, hr], hi⟩

/-- **An admissible run keeps `Inv`** and none of its calls panics. -/
theorem Inv.run {d : Decoy τ} (hd : d.Inv) :
    ∀ ops : List (Op τ), d.admissibleRun ops = true → ∃ d', d.run ops = .ok d' ∧ d'.Inv
  | [], _ => ⟨d, rfl, hd⟩
  | op :: ops, h => by
    simp only [admissibleRun, Bool.and_eq_true] at h
    obtain ⟨d1, h1, hd1⟩ := hd.apply h.1
    rw [h1] at h
    obtain ⟨d', h', hd'⟩ := hd1.run ops h.2
    exact ⟨d', by simp [Decoy.run, h1, h'], hd'⟩

/-- A prefix of an admissible run is admissible. -/
lemma admissibleRun_take {d : Decoy τ} :
    ∀ (ops : List (Op τ)) (i : Nat), d.admissibleRun ops = true →
      d.admissibleRun (ops.take i) = true
  | [], _, h => by rwa [List.take_nil]
  | _ :: _, 0, _ => rfl
  | op :: ops, i + 1, h => by
    simp only [admissibleRun, Bool.and_eq_true, List.take_succ_cons] at h ⊢
    refine ⟨h.1, ?_⟩
    cases happ : d.apply op with
    | error e => rfl
    | ok d' =>
      rw [happ] at h
      exact admissibleRun_take ops i h.2

/-! ### Runs from `New` -/

/-- **Every admissible run from `New` keeps the representation invariant**: none of its calls
panics, and the state after each call satisfies `RepInv`. -/
theorem repInv_of_admissibleRun [Inhabited τ] (b : UInt64) (r : List UInt8) (ops : List (Op τ))
    (h : (new b r : Decoy τ).admissibleRun ops = true) (i : Nat) :
    ∃ d, (new b r : Decoy τ).run (ops.take i) = .ok d ∧ d.RepInv := by
  obtain ⟨d, hr, hd⟩ := (inv_new b r).run _ (admissibleRun_take ops i h)
  exact ⟨d, hr, hd.toRepInv⟩

/-- A run with an ETA collision resolved by a sweep is admissible, and the invariant holds after
its last call. -/
theorem repInv_of_admissibleRun_eta_collision_swept :
    (new 0 [] : Decoy ℤ).admissibleRun
        [.store ⟨1, 5, []⟩, .store ⟨2, 5, []⟩, .store ⟨3, 9, []⟩, .loadAndDelete 3, .sweep 6 0] =
      true ∧
    ∃ d, (new 0 [] : Decoy ℤ).run ([.store ⟨1, 5, []⟩, .store ⟨2, 5, []⟩, .store ⟨3, 9, []⟩,
      .loadAndDelete 3, .sweep 6 0].take 5) = .ok d ∧ d.RepInv :=
  ⟨by decide, repInv_of_admissibleRun 0 [] _ (by decide) 5⟩

/-- Two runs from `New` after which `RepInv` fails. Storing two contexts under the id `7` leaves
the first held by its node but no longer a value of `surbStore`. Retiring one of two contexts with
ETA `5` leaves their node holding a nil `*surbCtx`. -/
theorem repInv_fails_after_collision :
    (∃ d, (new 0 [] : Decoy ℤ).run [.store ⟨7, 1, []⟩, .store ⟨7, 2, []⟩] = .ok d ∧
      ¬ d.RepInv) ∧
    (∃ d, (new 0 [] : Decoy ℤ).run [.store ⟨1, 5, []⟩, .store ⟨2, 5, []⟩, .loadAndDelete 1] =
      .ok d ∧ ¬ d.RepInv) := by
  refine ⟨⟨_, rfl, fun h => ?_⟩, ⟨_, rfl, fun h => ?_⟩⟩
  · exact absurd (h.store_id 0 (by decide)) (by decide)
  · obtain ⟨cs, hcs, -⟩ := h.group 0 (by decide)
    cases hcs

/-- **A retirement from a shared node makes the next touch of the node panic.** After two
contexts with ETA `5` are stored and the first is retired, their node holds a nil `*surbCtx`: a
sweep at any time with any slack, and the retirement of the second context, both fail the type
assertion `node.Value.([]*surbCtx)`. -/
theorem run_panics_after_shared_node_retire (now slack : ℤ) :
    (new 0 [] : Decoy ℤ).run [.store ⟨1, 5, []⟩, .store ⟨2, 5, []⟩, .loadAndDelete 1,
      .sweep now slack] = .error .typeAssertion ∧
    (new 0 [] : Decoy ℤ).run [.store ⟨1, 5, []⟩, .store ⟨2, 5, []⟩, .loadAndDelete 1,
      .loadAndDelete 2] = .error .typeAssertion :=
  ⟨rfl, rfl⟩

end Decoy

end MesonDecoy
