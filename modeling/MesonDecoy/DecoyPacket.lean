import MesonDecoy.Go

set_option autoImplicit false

/-!
# `sendDecoyPacket`: the provider of a loop packet

The worker calls `sendDecoyPacket` when its timer fires with a document for the current epoch.
It refuses to run on a node the document places at the provider layer. Otherwise it walks the
providers of the document in the order of a random permutation `d.rng.Perm(len(doc.Providers))`
and stops at the first whose `Kaetzchen` has the loop capability with a string `"endpoint"`;
it sends a loop packet to that provider and endpoint, or returns when no provider has one.

## Main definitions

* `MesonDecoy.Iface`, `MesonDecoy.MixDescriptor`, `MesonDecoy.Document` — what
  `sendDecoyPacket` reads of the PKI.
* `MesonDecoy.pickProvider` — the loop over the permutation.
* `MesonDecoy.sendDecoyPacket` — `decoy.go:241`, with `MesonDecoy.DecoyCall`, the call it ends
  in.
* `MesonDecoy.loopEndpoint` — a provider's loop endpoint, if it has one.

## Main results

* `MesonDecoy.pickProvider_cases` — the loop ends on the first provider of the permutation with
  a loop endpoint, holding that endpoint, or on none.
* `MesonDecoy.sendDecoyPacket_spec` — which call `sendDecoyPacket` ends in.

## Implementation notes

`pki.LayerProvider` and `kaetzchen.LoopCapability` are constants of packages outside the
repository: here they are the parameters `layerProvider` and `loopCapability`. The permutation
`d.rng.Perm` returns is the argument `perm`. A Go map that is only read is a function to
`Option`. The providers are descriptors rather than pointers, as a PKI document lists no nil
descriptor.
-/

namespace MesonDecoy

/-- A value of static type `interface{}`, as far as the assertion `.(string)` tells it. -/
inductive Iface
  | string (s : String)
  /-- `nil`, or a value of a dynamic type other than `string`. -/
  | other
deriving DecidableEq, Repr

/-- `loopRecip, ok = v.(string)` on a map read `v`, which is `nil` for a missing key: the string
and `true`, or the zero value `""` and `false`. -/
def assertString : Option Iface → String × Bool
  | some (.string s) => (s, true)
  | _ => ("", false)

/-- The fields of a `pki.MixDescriptor` that `sendDecoyPacket` reads. -/
structure MixDescriptor where
  /-- `Layer`. -/
  layer : UInt8
  /-- `Kaetzchen`, a `map[string]map[string]interface{}`: the parameters of each capability. -/
  kaetzchen : String → Option (String → Option Iface)

/-- The field of a `pki.Document` that `sendDecoyPacket` reads: `Providers`. -/
structure Document where
  providers : List MixDescriptor

/-- The call `sendDecoyPacket` ends in. -/
inductive DecoyCall
  /-- `return` after "Failed to find suitable provider". -/
  | noProvider
  /-- `d.sendLoopPacket(doc, []byte(loopRecip), selfDesc, providerDesc)`. -/
  | sendLoopPacket (doc : Document) (recipient : List UInt8) (src dst : MixDescriptor)
  /-- `d.sendDiscardPacket(doc, []byte(loopRecip), selfDesc, providerDesc)`. -/
  | sendDiscardPacket (doc : Document) (recipient : List UInt8) (src dst : MixDescriptor)

section Select

variable (loopCapability : String)

/-- The loop `for _, idx := range d.rng.Perm(len(doc.Providers))` over the indices still to
visit, from the loop's `providerDesc` and `loopRecip`: `doc.Providers[idx]` panics out of range,
a provider without the capability or without a string endpoint is skipped, and the first with
both ends the loop. -/
def pickProvider (providers : List MixDescriptor) :
    List Nat → Option MixDescriptor × String → Except Panic (Option MixDescriptor × String)
  | [], st => pure st
  | idx :: rest, (providerDesc, loopRecip) =>
    match providers[idx]? with
    | none => throw .indexOutOfRange
    | some desc =>
      match desc.kaetzchen loopCapability with
      | none => pickProvider providers rest (providerDesc, loopRecip)
      | some params =>
        let (loopRecip, ok) := assertString (params "endpoint")
        if !ok then pickProvider providers rest (providerDesc, loopRecip)
        else pure (some desc, loopRecip)

/-- `d.sendDecoyPacket(ent)`, with `selfDesc = ent.Self()`, `doc = ent.Document()` and `perm`
the permutation `d.rng.Perm(len(doc.Providers))` returns. -/
def sendDecoyPacket (layerProvider : UInt8) (selfDesc : MixDescriptor) (doc : Document)
    (perm : List Nat) : Except Panic DecoyCall := do
  let isLoopPkt := true
  if selfDesc.layer = layerProvider then
    throw (.bug "BUG: Provider generated decoy traffic not supported yet")
  let (providerDesc, loopRecip) ← pickProvider loopCapability doc.providers perm (none, "")
  match providerDesc with
  | none => pure .noProvider
  | some providerDesc =>
    if isLoopPkt then pure (.sendLoopPacket doc (stringBytes loopRecip) selfDesc providerDesc)
    else pure (.sendDiscardPacket doc (stringBytes loopRecip) selfDesc providerDesc)

/-- The loop endpoint of a provider: the `"endpoint"` parameter of its `LoopCapability` entry,
when it has the entry and the parameter is a string. -/
def loopEndpoint (desc : MixDescriptor) : Option String :=
  (desc.kaetzchen loopCapability).bind fun params =>
    match params "endpoint" with
    | some (.string s) => some s
    | _ => none

/-! ### One provider -/

variable {loopCapability} {providers : List MixDescriptor} {idx : Nat} {rest : List Nat}
  {desc : MixDescriptor}

/-- A provider with a loop endpoint ends the loop, holding its endpoint. -/
lemma pickProvider_of_endpoint (h : providers[idx]? = some desc) {s : String}
    (he : loopEndpoint loopCapability desc = some s) (st : Option MixDescriptor × String) :
    pickProvider loopCapability providers (idx :: rest) st = .ok (some desc, s) := by
  obtain ⟨params, hp, hs⟩ := Option.bind_eq_some.mp he
  obtain ⟨providerDesc, loopRecip⟩ := st
  split at hs <;> cases hs
  simp [pickProvider, h, hp, assertString, *]

/-- A provider without one is skipped; the loop goes on with its `providerDesc`, and with
`loopRecip` unchanged or zeroed. -/
lemma pickProvider_of_no_endpoint (h : providers[idx]? = some desc)
    (he : loopEndpoint loopCapability desc = none) (st : Option MixDescriptor × String) :
    ∃ loopRecip, pickProvider loopCapability providers (idx :: rest) st =
      pickProvider loopCapability providers rest (st.1, loopRecip) := by
  obtain ⟨providerDesc, loopRecip⟩ := st
  cases hp : desc.kaetzchen loopCapability with
  | none => exact ⟨loopRecip, by simp [pickProvider, h, hp]⟩
  | some params =>
    simp only [loopEndpoint, hp, Option.some_bind] at he
    refine ⟨"", ?_⟩
    split at he
    · cases he
    · simp [pickProvider, h, hp, assertString, *]

/-! ### The loop -/

/-- **The loop over the permutation.** Over indices in range, the loop ends on the first provider
in the permutation's order that has a loop endpoint, holding that endpoint; when none has one,
it ends with the `providerDesc` it started from. -/
theorem pickProvider_cases {perm : List Nat} (hr : ∀ i ∈ perm, i < providers.length)
    (st : Option MixDescriptor × String) :
    ((∃ loopRecip, pickProvider loopCapability providers perm st = .ok (st.1, loopRecip)) ∧
      ∀ i ∈ perm, ∀ desc, providers[i]? = some desc → loopEndpoint loopCapability desc = none) ∨
    ∃ pre idx post dst endpoint, perm = pre ++ idx :: post ∧
      (∀ j ∈ pre, ∀ desc, providers[j]? = some desc → loopEndpoint loopCapability desc = none) ∧
      providers[idx]? = some dst ∧ loopEndpoint loopCapability dst = some endpoint ∧
      pickProvider loopCapability providers perm st = .ok (some dst, endpoint) := by
  induction perm generalizing st with
  | nil => exact .inl ⟨⟨st.2, rfl⟩, by simp⟩
  | cons idx rest ih =>
    obtain ⟨desc, hd⟩ : ∃ desc, providers[idx]? = some desc :=
      ⟨_, List.getElem?_eq_getElem (hr idx (List.mem_cons_self _ _))⟩
    cases he : loopEndpoint loopCapability desc with
    | some s =>
      exact .inr ⟨[], idx, rest, desc, s, rfl, by simp, hd, he, pickProvider_of_endpoint hd he st⟩
    | none =>
      have hidx : ∀ d, providers[idx]? = some d → loopEndpoint loopCapability d = none :=
        fun d hid => Option.some.inj (hd.symm.trans hid) ▸ he
      obtain ⟨r, hstep⟩ := pickProvider_of_no_endpoint hd he st
      rcases ih (fun i hi => hr i (List.mem_cons_of_mem _ hi)) (st.1, r) with
        ⟨⟨r', h⟩, hall⟩ | ⟨pre, j, post, dst, s, rfl, hpre, hdst, hs, h⟩
      · exact .inl ⟨⟨r', hstep.trans h⟩, List.forall_mem_cons.2 ⟨hidx, hall⟩⟩
      · exact .inr ⟨idx :: pre, j, post, dst, s, rfl, List.forall_mem_cons.2 ⟨hidx, hpre⟩, hdst,
          hs, hstep.trans h⟩

/-! ### `sendDecoyPacket` -/

variable (loopCapability) (layerProvider : UInt8) (selfDesc : MixDescriptor) (doc : Document)
  (perm : List Nat)

/-- **Which call `sendDecoyPacket` ends in.** On a node that the document does not place at the
provider layer, and for a permutation of the providers' indices, `sendDecoyPacket` does not
panic, and exactly one of two things happens. No provider has a loop endpoint, and it returns
without sending; or it calls `sendLoopPacket` with `dst` the first provider in the permutation's
order that has one, and `recipient` that provider's own endpoint. -/
theorem sendDecoyPacket_spec (hself : selfDesc.layer ≠ layerProvider)
    (hperm : perm.Perm (List.range doc.providers.length)) :
    (sendDecoyPacket loopCapability layerProvider selfDesc doc perm = .ok .noProvider ∧
        ∀ desc ∈ doc.providers, loopEndpoint loopCapability desc = none) ∨
    ∃ pre idx post dst endpoint, perm = pre ++ idx :: post ∧
      (∀ j ∈ pre, ∀ desc, doc.providers[j]? = some desc →
        loopEndpoint loopCapability desc = none) ∧
      doc.providers[idx]? = some dst ∧ loopEndpoint loopCapability dst = some endpoint ∧
      sendDecoyPacket loopCapability layerProvider selfDesc doc perm =
        .ok (.sendLoopPacket doc (stringBytes endpoint) selfDesc dst) := by
  rcases @pickProvider_cases loopCapability doc.providers perm
      (fun i hi => List.mem_range.1 (hperm.subset hi)) (none, "") with
    ⟨⟨r, h⟩, hall⟩ | ⟨pre, idx, post, dst, s, hsplit, hpre, hdst, hs, h⟩
  · refine .inl ⟨by simp [sendDecoyPacket, hself, h], fun desc hdesc => ?_⟩
    obtain ⟨i, hi⟩ := List.mem_iff_getElem?.1 hdesc
    exact hall i (hperm.symm.subset (List.mem_range.2 (List.getElem?_eq_some_iff.1 hi).1)) desc hi
  · exact .inr ⟨pre, idx, post, dst, s, hsplit, hpre, hdst, hs,
      by simp [sendDecoyPacket, hself, h]⟩

/-- On a node at the provider layer, `sendDecoyPacket` panics before it looks at the
providers. -/
lemma sendDecoyPacket_of_provider (hself : selfDesc.layer = layerProvider) :
    sendDecoyPacket loopCapability layerProvider selfDesc doc perm =
      .error (.bug "BUG: Provider generated decoy traffic not supported yet") := by
  simp [sendDecoyPacket, hself]

/-- On any other node, with indices in range, `sendDecoyPacket` does not panic: it returns
without sending, or calls `sendLoopPacket` with the document and its own descriptor. -/
lemma sendDecoyPacket_ok (hself : selfDesc.layer ≠ layerProvider)
    (hperm : ∀ i ∈ perm, i < doc.providers.length) :
    sendDecoyPacket loopCapability layerProvider selfDesc doc perm = .ok .noProvider ∨
      ∃ recipient dst, sendDecoyPacket loopCapability layerProvider selfDesc doc perm =
        .ok (.sendLoopPacket doc recipient selfDesc dst) := by
  rcases @pickProvider_cases loopCapability doc.providers perm hperm (none, "") with
    ⟨⟨r, h⟩, -⟩ | ⟨-, -, -, dst, s, -, -, -, -, h⟩
  · exact .inl (by simp [sendDecoyPacket, hself, h])
  · exact .inr ⟨stringBytes s, dst, by simp [sendDecoyPacket, hself, h]⟩

end Select

/-- A provider whose capability `"loop"` has the endpoint `"e"`. -/
def loopProvider : MixDescriptor :=
  ⟨255, fun c => if c = "loop" then some fun k => if k = "endpoint" then some (.string "e")
    else none else none⟩

/-- A provider whose capability `"loop"` has an endpoint that is not a string. -/
def badEndpointProvider : MixDescriptor :=
  ⟨255, fun c => if c = "loop" then some fun _ => some .other else none⟩

/-- A mix at layer `0`, with the providers above visited in the order `1, 0`: the first fails
the assertion, and the second is chosen. -/
theorem sendDecoyPacket_spec_second_visited :
    ∃ dst endpoint, sendDecoyPacket "loop" 255 ⟨0, fun _ => none⟩
        ⟨[loopProvider, badEndpointProvider]⟩ [1, 0] =
      .ok (.sendLoopPacket ⟨[loopProvider, badEndpointProvider]⟩ (stringBytes endpoint)
        ⟨0, fun _ => none⟩ dst) ∧ loopEndpoint "loop" dst = some endpoint := by
  rcases sendDecoyPacket_spec "loop" 255 ⟨0, fun _ => none⟩ ⟨[loopProvider, badEndpointProvider]⟩
      [1, 0] (by decide) (by decide) with
    ⟨-, hall⟩ | ⟨-, -, -, dst, endpoint, -, -, -, he, h⟩
  · cases (hall _ (List.mem_cons_self _ _)).symm.trans
      (rfl : loopEndpoint "loop" loopProvider = some "e")
  · exact ⟨dst, endpoint, h, he⟩

/-- On a node at the provider layer, `sendDecoyPacket` panics before it looks at the providers,
even when one of them has a loop endpoint. -/
theorem sendDecoyPacket_panics_on_provider :
    loopEndpoint "loop" loopProvider = some "e" ∧
      sendDecoyPacket "loop" 255 loopProvider ⟨[loopProvider]⟩ [0] =
        .error (.bug "BUG: Provider generated decoy traffic not supported yet") :=
  ⟨rfl, rfl⟩

end MesonDecoy
