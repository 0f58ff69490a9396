import MesonDecoy.Retire

set_option autoImplicit false

/-!
# `OnPacket`

The crypto workers hand every SURB reply addressed to the decoy to `OnPacket`. It drops the
packet, counting it in `packetsDropped`, unless the recipient is the decoy's, the first eight
bytes of the SURB ID are the token base and the last eight a key of `surbStore`; then it retires
that key's context with `loadAndDeleteSURBCtx` and decrypts the payload with the context's key,
counting the packet as dropped if decryption fails. The token state changes only through
`loadAndDeleteSURBCtx`.

## Main definitions

* `MesonDecoy.Packet` — the fields of a `packet.Packet` that `OnPacket` reads.
* `MesonDecoy.Decoy.onPacket` — `decoy.go:118`.

## Main results

* `MesonDecoy.Decoy.onPacket_of_drop`, `MesonDecoy.Decoy.onPacket_of_accept` — the two paths.
* `MesonDecoy.Decoy.onPacket_spec` — what `OnPacket` does to the token state.

## Implementation notes

`sphinx.DecryptSURBPayload` is a parameter: the model holds for every result it gives. The
packet's `Dispose` and the debug log are left out; they touch no state the decoy keeps.
-/

namespace MesonDecoy

/-- The fields of a `packet.Packet` that `OnPacket` reads. -/
structure Packet where
  /-- `pkt.IsSURBReply()`. -/
  isSURBReply : Bool
  /-- `pkt.Recipient.ID[:]`. -/
  recipientID : List UInt8
  /-- `pkt.SurbReply.ID`, a `[sConstants.SURBIDLength]byte`. -/
  surbReplyID : List UInt8
  surbReplyID_length : surbReplyID.length = 16
  /-- `pkt.Payload`. -/
  payload : List UInt8

namespace Decoy

variable {τ : Type}

/-- `packetsDropped.Inc()`. -/
def dropPacket (d : Decoy τ) : Decoy τ := { d with packetsDropped := d.packetsDropped + 1 }

@[simp] lemma dropPacket_surbStore (d : Decoy τ) : d.dropPacket.surbStore = d.surbStore := rfl

@[simp] lemma dropPacket_surbETAs (d : Decoy τ) : d.dropPacket.surbETAs = d.surbETAs := rfl

@[simp] lemma dropPacket_etaNode (d : Decoy τ) : d.dropPacket.etaNode = d.etaNode := rfl

@[simp] lemma dropPacket_ctx (d : Decoy τ) : d.dropPacket.ctx = d.ctx := rfl

@[simp] lemma dropPacket_packetsDropped (d : Decoy τ) :
    d.dropPacket.packetsDropped = d.packetsDropped + 1 := rfl

/-- `d.OnPacket(pkt)`, with `sphinx.DecryptSURBPayload` as `decryptSURBPayload`. -/
def onPacket (decryptSURBPayload : List UInt8 → List UInt8 → Option (List UInt8))
    (d : Decoy τ) (pkt : Packet) : Except Panic (Decoy τ) := do
  if !pkt.isSURBReply then throw (.bug "BUG: OnPacket called with non-SURB Reply")
  if constantTimeCompare pkt.recipientID d.recipient ≠ 1 then return d.dropPacket
  let idBase := bigEndianUint64 pkt.surbReplyID
  let id := bigEndianUint64 (pkt.surbReplyID.drop 8)
  if idBase ≠ d.surbIDBase then return d.dropPacket
  let (ctx, d) ← d.loadAndDeleteSURBCtx id
  match ctx with
  | none => return d.dropPacket
  | some c =>
    match decryptSURBPayload pkt.payload (d.ctx c).sprpKey with
    | none => return d.dropPacket
    | some _ => return d

/-- The token id `OnPacket` reads from a packet: `binary.BigEndian.Uint64(pkt.SurbReply.ID[8:])`. -/
def replyID (pkt : Packet) : UInt64 := bigEndianUint64 (pkt.surbReplyID.drop 8)

/-- Whether `OnPacket` retires a stored context for a packet: the recipient is the decoy's, the
first eight bytes of the SURB ID are the token base and the last eight a key of `surbStore`.
Every packet that passes the first two checks reaches `loadAndDeleteSURBCtx`; one whose token id
is not a key retires nothing there and is dropped. -/
def Accepts (d : Decoy τ) (pkt : Packet) : Prop :=
  pkt.recipientID = d.recipient ∧ bigEndianUint64 pkt.surbReplyID = d.surbIDBase ∧
    d.surbStore (replyID pkt) ≠ none

instance (d : Decoy τ) (pkt : Packet) : Decidable (d.Accepts pkt) :=
  inferInstanceAs (Decidable (_ ∧ _ ∧ _))

variable (decrypt : List UInt8 → List UInt8 → Option (List UInt8))

/-- A packet that is not a SURB reply aborts. -/
lemma onPacket_of_not_surbReply (d : Decoy τ) {pkt : Packet} (h : pkt.isSURBReply = false) :
    d.onPacket decrypt pkt = .error (.bug "BUG: OnPacket called with non-SURB Reply") := by
  simp [onPacket, h]

/-- **The drop path.** A SURB reply `OnPacket` does not accept is counted as dropped, and the
state is otherwise unchanged. -/
theorem onPacket_of_drop (d : Decoy τ) {pkt : Packet} (hs : pkt.isSURBReply = true)
    (h : ¬ d.Accepts pkt) : d.onPacket decrypt pkt = .ok d.dropPacket := by
  simp only [Accepts, not_and_or, ne_eq, not_not] at h
  rcases h with h | h | h
  · simp [onPacket, hs, h]
  · by_cases hr : pkt.recipientID = d.recipient
    · simp [onPacket, hs, hr, h]
    · simp [onPacket, hs, hr]
  · by_cases hr : pkt.recipientID = d.recipient
    · by_cases hb : bigEndianUint64 pkt.surbReplyID = d.surbIDBase
      · have h' : d.surbStore (bigEndianUint64 (pkt.surbReplyID.drop 8)) = none := h
        simp [onPacket, hs, hr, hb, loadAndDeleteSURBCtx_of_none h']
      · simp [onPacket, hs, hr, hb]
    · simp [onPacket, hs, hr]

/-- **The accept path.** An accepted SURB reply has the effect of `loadAndDeleteSURBCtx` on its
token id, and at most counts the packet as dropped. -/
theorem onPacket_of_accept (d : Decoy τ) {pkt : Packet} (hs : pkt.isSURBReply = true)
    (h : d.Accepts pkt) :
    d.onPacket decrypt pkt = (fun r => r.2) <$> d.loadAndDeleteSURBCtx (replyID pkt) ∨
      d.onPacket decrypt pkt =
        (fun r => r.2.dropPacket) <$> d.loadAndDeleteSURBCtx (replyID pkt) := by
  obtain ⟨hr, hb, -⟩ := h
  rcases hl : d.loadAndDeleteSURBCtx (replyID pkt) with e | ⟨_ | c, d'⟩
  all_goals simp only [replyID] at hl
  · simp [onPacket, hs, hr, hb, hl]
  · simp [onPacket, hs, hr, hb, hl]
  · cases hdec : decrypt pkt.payload (d'.ctx c).sprpKey <;> simp [onPacket, hs, hr, hb, hl, hdec]

/-- **`OnPacket` changes the token state only through `loadAndDeleteSURBCtx`.** For every state,
every SURB reply and every result of `DecryptSURBPayload`: a packet `OnPacket` does not accept
increments `packetsDropped` and leaves every other field, `surbStore` and `surbETAs` among them,
as it was; an accepted one, whose token id `x` is a key, has the effect of
`loadAndDeleteSURBCtx(x)`, a panic included, with at most `packetsDropped` incremented. -/
theorem onPacket_spec (d : Decoy τ) (pkt : Packet) (hs : pkt.isSURBReply = true) :
    (¬ d.Accepts pkt →
      d.onPacket decrypt pkt = .ok { d with packetsDropped := d.packetsDropped + 1 }) ∧
    (d.Accepts pkt →
      d.onPacket decrypt pkt = (fun r => r.2) <$> d.loadAndDeleteSURBCtx (replyID pkt) ∨
      d.onPacket decrypt pkt = (fun r => { r.2 with packetsDropped := r.2.packetsDropped + 1 }) <$>
        d.loadAndDeleteSURBCtx (replyID pkt)) :=
  ⟨onPacket_of_drop decrypt d hs, onPacket_of_accept decrypt d hs⟩

/-- A SURB reply to the state `New` builds, whose store is empty, is dropped. -/
theorem onPacket_spec_empty_store :
    ∃ pkt : Packet, pkt.isSURBReply = true ∧ ¬ (new 0 [] : Decoy ℤ).Accepts pkt ∧
      (new 0 [] : Decoy ℤ).onPacket (fun _ _ => none) pkt =
        .ok { (new 0 [] : Decoy ℤ) with packetsDropped := (new 0 [] : Decoy ℤ).packetsDropped + 1 } :=
  ⟨⟨true, [], List.replicate 16 0, rfl, []⟩, rfl, by decide,
    (onPacket_spec _ (new 0 []) _ rfl).1 (by decide)⟩

end Decoy

end MesonDecoy
