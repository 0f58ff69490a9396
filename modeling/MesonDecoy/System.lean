import MesonDecoy.Reply
import MesonDecoy.LoopPacket
import MesonDecoy.Runs

set_option autoImplicit false

/-!
# The decoy as a system: sends, replies and sweeps

The worker's `sendLoopPacket` and `sweepSURBCtxs` and the crypto workers' `OnPacket` reach the
token state only under the mutex, so every run of the decoy is a sequence of such calls. This
file follows a loop packet through a run: the context `sendLoopPacket` stores for a SURB ID is
the one the first reply carrying that ID retires, as long as no sweep has expired it, and later
replies carrying the ID are dropped.

Two kinds of call are left out, as in `MesonDecoy.Runs`: a draw of `rng.Uint64` that is the id of
an outstanding context, and an `OnPacket` that retires a context from a node holding another.

## Main definitions

* `MesonDecoy.Event` — a call into the decoy.
* `MesonDecoy.Decoy.step`, `MesonDecoy.Decoy.runEvents` — one call, and a run of calls.
* `MesonDecoy.Decoy.admissibleEvents` — the runs that avoid the two kinds of call.

## Main results

* `MesonDecoy.Decoy.runEvents_frame` — whatever the state, a run keeps the recipient and the
  token base, and adds to `surbStore` only the keys its sends draw.
* `MesonDecoy.Decoy.Inv.runEvents` — an admissible run keeps `Inv` and does not panic.
* `MesonDecoy.Decoy.Inv.runEvents_window` — until its reply, a sent context stays outstanding.
* `MesonDecoy.Decoy.onPacket_retires_sent_context` — the reply to a loop packet retires the
  context its send stored, and later replies carrying its SURB ID are dropped.
-/

namespace MesonDecoy

/-- A call into the decoy: `sendLoopPacket`, with `rng.Uint64()` returning `suffix`, or
`sweepSURBCtxs` at `now` with `slack`, from the worker; `OnPacket` on a SURB reply, from a crypto
worker. -/
inductive Event (τ : Type)
  | send (attempt : Nat → Attempt τ) (suffix : UInt64)
  | reply (pkt : Packet) (hs : pkt.isSURBReply = true)
  | sweep (now slack : τ)

namespace Event

variable {τ : Type}

/-- A reply to `recipient` with SURB ID `surbID`. -/
def RepliesWith (recipient surbID : List UInt8) : Event τ → Prop
  | .reply pkt _ => pkt.recipientID = recipient ∧ pkt.surbReplyID = surbID
  | _ => False

/-- A sweep that removes a context with ETA `eta`: one with `eta + slack ≤ now`. -/
def Expires [Add τ] [LT τ] (eta : τ) : Event τ → Prop
  | .sweep now slack => ¬ now < eta + slack
  | _ => False

/-- A send that draws the suffix `x`. -/
def Draws (x : UInt64) : Event τ → Prop
  | .send _ suffix => suffix = x
  | _ => False

end Event

namespace Decoy

variable {τ : Type} {d : Decoy τ}

/-- Removing a node that does not hold `p` keeps `p` held. -/
lemma mem_held_remove {p n : Nat} (hp : p ∈ d.held) (hpn : p ∉ (d.surbETAs.value n).members) :
    p ∈ (d.setTree (d.surbETAs.remove n)).held := by
  obtain ⟨m, hm, hpm⟩ := mem_held.1 hp
  have hmn : m ≠ n := fun e => hpn (e ▸ hpm)
  exact mem_held.2 ⟨m, (List.mem_erase_of_ne hmn).2 hm, hpm⟩

/-- A reply that `OnPacket` accepts, with token id `x`, carries the SURB ID `makeSURBID` builds
from the token base and `x`. -/
lemma Accepts.eq_makeSURBID {pkt : Packet} (h : d.Accepts pkt) :
    pkt.surbReplyID = makeSURBID d.surbIDBase (replyID pkt) :=
  (eq_makeSURBID_iff pkt.surbReplyID_length _ _).2 ⟨h.2.1, rfl⟩

variable [LinearOrder τ]

/-- `packetsDropped` is not part of the token state. -/
lemma Inv.dropPacket (hd : d.Inv) : d.dropPacket.Inv :=
  ⟨⟨⟨hd.group, hd.sorted, hd.nodup, hd.held_iff, hd.store_id, hd.etaNode⟩, hd.key_id⟩, hd.held_lt⟩

variable [Add τ] [Sub τ]

section System

variable (decrypt : List UInt8 → List UInt8 → Option (List UInt8)) (maxTransit : τ)
  (userForwardPayloadLength : Nat)

/-- One call into the decoy. -/
def step (d : Decoy τ) : Event τ → Except Panic (Decoy τ)
  | .send attempt suffix =>
    Prod.fst <$> d.sendLoopPacket maxTransit userForwardPayloadLength attempt suffix
  | .reply pkt _ => d.onPacket decrypt pkt
  | .sweep now slack => Prod.fst <$> d.sweepSURBCtxs now slack

/-- A run of calls; a panic ends the process. -/
def runEvents (d : Decoy τ) : List (Event τ) → Except Panic (Decoy τ)
  | [] => .ok d
  | e :: es => do (← d.step decrypt maxTransit userForwardPayloadLength e).runEvents es

/-- Whether a call avoids the two kinds left out: a send whose suffix is the id of an outstanding
context, and a reply that retires a context from a node holding another. -/
def admissibleEvent (d : Decoy τ) : Event τ → Bool
  | .send _ suffix => (d.surbStore suffix).isNone
  | .reply pkt _ => !decide (d.Accepts pkt) || d.admissible (.loadAndDelete (replyID pkt))
  | .sweep _ _ => true

/-- Whether every call of a run is admissible in the state it is made in. -/
def admissibleEvents (d : Decoy τ) : List (Event τ) → Bool
  | [] => true
  | e :: es => d.admissibleEvent e &&
    match d.step decrypt maxTransit userForwardPayloadLength e with
    | .ok d' => d'.admissibleEvents es
    | .error _ => true

lemma runEvents_append (d : Decoy τ) (l₁ l₂ : List (Event τ)) :
    d.runEvents decrypt maxTransit userForwardPayloadLength (l₁ ++ l₂) =
      d.runEvents decrypt maxTransit userForwardPayloadLength l₁ >>= fun d' =>
        d'.runEvents decrypt maxTransit userForwardPayloadLength l₂ := by
  induction l₁ generalizing d with
  | nil => rfl
  | cons e es ih =>
    simp only [List.cons_append, runEvents]
    cases d.step decrypt maxTransit userForwardPayloadLength e with
    | error => rfl
    | ok d' => exact ih d'

lemma admissibleEvents_cons {d : Decoy τ} {e : Event τ} {es : List (Event τ)}
    (h : d.admissibleEvents decrypt maxTransit userForwardPayloadLength (e :: es) = true) :
    d.admissibleEvent e = true ∧
      ∀ d', d.step decrypt maxTransit userForwardPayloadLength e = .ok d' →
      d'.admissibleEvents decrypt maxTransit userForwardPayloadLength es = true := by
  simp only [admissibleEvents, Bool.and_eq_true] at h
  exact ⟨h.1, fun d' hd' => by simpa [hd'] using h.2⟩

lemma admissibleEvents_append {d : Decoy τ} {l₁ l₂ : List (Event τ)}
    (h : d.admissibleEvents decrypt maxTransit userForwardPayloadLength (l₁ ++ l₂) = true) :
    d.admissibleEvents decrypt maxTransit userForwardPayloadLength l₁ = true ∧
      ∀ d', d.runEvents decrypt maxTransit userForwardPayloadLength l₁ = .ok d' →
        d'.admissibleEvents decrypt maxTransit userForwardPayloadLength l₂ = true := by
  induction l₁ generalizing d with
  | nil => exact ⟨rfl, fun d' hd' => by cases hd'; exact h⟩
  | cons e es ih =>
    obtain ⟨he, hrest⟩ := admissibleEvents_cons decrypt maxTransit userForwardPayloadLength h
    simp only [admissibleEvents, runEvents, he, Bool.true_and]
    cases hs : d.step decrypt maxTransit userForwardPayloadLength e with
    | error => exact ⟨rfl, fun _ h' => by simp at h'⟩
    | ok d₁ => exact ih (hrest d₁ hs)

/-! ### What every call keeps -/

lemma ne_none_of_update_none {f : UInt64 → Option Nat} {k x : UInt64}
    (h : Function.update f k none x ≠ none) : f x ≠ none := by
  by_cases hx : x = k
  · subst hx
    simp at h
  · simpa [Function.update_noteq hx] using h

/-- **Whatever the state, a call that returns keeps the decoy's recipient and token base, and
adds to `surbStore` no key but the one a send draws.** -/
theorem step_frame {d d' : Decoy τ} {e : Event τ}
    (h : d.step decrypt maxTransit userForwardPayloadLength e = .ok d') :
    d'.recipient = d.recipient ∧ d'.surbIDBase = d.surbIDBase ∧
      ∀ x, d'.surbStore x ≠ none → d.surbStore x ≠ none ∨ e.Draws x := by
  cases e with
  | send attempt suffix =>
    simp only [Decoy.step] at h
    rcases sendLoopPacket_cases maxTransit userForwardPayloadLength attempt d suffix with
      hs | ⟨c, hc, effs, hs⟩
    · rw [hs] at h
      cases h
      exact ⟨rfl, rfl, fun x hx => .inl hx⟩
    · rw [hs] at h
      obtain ⟨a, ha, rfl⟩ := map_eq_ok h
      obtain ⟨d'', hst, rfl⟩ := map_eq_ok ha
      obtain ⟨hstore, hr, hb⟩ := storeSURBCtx_frame hst
      refine ⟨hr, hb, fun x hx => ?_⟩
      by_cases hxs : x = suffix
      · exact .inr hxs.symm
      · have hkey : ((d.alloc c).2.ctx d.ctxCount).id = suffix := by simp [hc]
        rw [hstore, hkey, Function.update_noteq hxs] at hx
        exact .inl hx
  | reply pkt hs =>
    simp only [Decoy.step] at h
    by_cases hA : d.Accepts pkt
    · have key : ∀ d'' r, d.loadAndDeleteSURBCtx (replyID pkt) = .ok (r, d'') →
          d''.recipient = d.recipient ∧ d''.surbIDBase = d.surbIDBase ∧
            ∀ x, d''.surbStore x ≠ none → d.surbStore x ≠ none := fun d'' r hl => by
        obtain ⟨hk, hr, hb⟩ := loadAndDeleteSURBCtx_frame hl
        refine ⟨hr, hb, fun x hx => ?_⟩
        rcases hk with rfl | hk
        exacts [hx, ne_none_of_update_none (hk ▸ hx)]
      rcases onPacket_of_accept decrypt d hs hA with h' | h' <;> rw [h'] at h <;>
        obtain ⟨⟨r, d''⟩, hl, rfl⟩ := map_eq_ok h <;>
        obtain ⟨hr, hb, hk⟩ := key d'' r hl <;>
        exact ⟨hr, hb, fun x hx => .inl (hk x hx)⟩
    · rw [onPacket_of_drop decrypt d hs hA] at h
      cases h
      exact ⟨rfl, rfl, fun x hx => .inl hx⟩
  | sweep now slack =>
    obtain ⟨r, hr, rfl⟩ := map_eq_ok h
    obtain ⟨hk, hre, hb⟩ := sweepSURBCtxs_frame now slack hr
    exact ⟨hre, hb, fun x hx => .inl (hk x hx)⟩

/-- Whatever the state, a run that returns keeps the decoy's recipient and token base, and adds
to `surbStore` no key but those its sends draw. -/
lemma runEvents_frame {es : List (Event τ)} :
    ∀ {d d' : Decoy τ}, d.runEvents decrypt maxTransit userForwardPayloadLength es = .ok d' →
      d'.recipient = d.recipient ∧ d'.surbIDBase = d.surbIDBase ∧
        ∀ x, d'.surbStore x ≠ none → d.surbStore x ≠ none ∨ ∃ e ∈ es, e.Draws x := by
  induction es with
  | nil =>
    intro d d' h
    cases h
    exact ⟨rfl, rfl, fun x hx => .inl hx⟩
  | cons e es ih =>
    intro d d' h
    obtain ⟨d₁, h₁, h⟩ := bind_eq_ok h
    obtain ⟨hr₁, hb₁, hk₁⟩ := step_frame decrypt maxTransit userForwardPayloadLength h₁
    obtain ⟨hr, hb, hk⟩ := ih h
    refine ⟨hr.trans hr₁, hb.trans hb₁, fun x hx => ?_⟩
    rcases hk x hx with hx | ⟨e', he', hd⟩
    · exact (hk₁ x hx).imp_right fun hd => ⟨e, List.mem_cons_self _ _, hd⟩
    · exact .inr ⟨e', List.mem_cons_of_mem _ he', hd⟩

/-! ### One call on a state satisfying `Inv` -/

/-- **A send**, of a suffix that is not a key: nothing, or a context with that id stored at the
next pointer, which keeps `Inv`. -/
theorem Inv.sendLoopPacket_cases (hd : d.Inv) (attempt : Nat → Attempt τ) {suffix : UInt64}
    (hx : d.surbStore suffix = none) :
    d.sendLoopPacket maxTransit userForwardPayloadLength attempt suffix = .ok (d, []) ∨
    ∃ (c : SurbCtx τ) (d' : Decoy τ) (effs : List (Effect τ)), c.id = suffix ∧
      d.sendLoopPacket maxTransit userForwardPayloadLength attempt suffix =
        .ok (d', .store c :: effs) ∧
      d'.Inv ∧ d'.surbStore = Function.update d.surbStore suffix (some d.ctxCount) ∧
      d'.ctx = Function.update d.ctx d.ctxCount c ∧ d'.held.Perm (d.ctxCount :: d.held) ∧
      d'.recipient = d.recipient ∧ d'.surbIDBase = d.surbIDBase := by
  rcases Decoy.sendLoopPacket_cases maxTransit userForwardPayloadLength attempt d suffix with
    h | ⟨c, hc, effs, h⟩
  · exact Or.inl h
  · have hnot : d.ctxCount ∉ (d.alloc c).2.held := fun h => Nat.lt_irrefl _ (hd.held_lt _ h)
    obtain ⟨d', hs, hstore, hctx, -, hbase, hrec, hperm⟩ :=
      (hd.alloc c).toRepInv.storeSURBCtx_ok hnot
    have hinv : d'.Inv := by
      obtain ⟨d'', hs', hi⟩ := hd.alloc_storeSURBCtx c (hc ▸ hx)
      rw [alloc_fst, hs] at hs'
      cases hs'
      exact hi
    rw [hs] at h
    exact Or.inr ⟨c, d', effs, hc, h, hinv, by simp [hstore, hc], hctx, hperm, hrec, hbase⟩

/-- A send of a suffix that is not a key keeps `Inv` and the decoy's fixed fields. -/
lemma Inv.step_send (hd : d.Inv) (attempt : Nat → Attempt τ) {suffix : UInt64}
    (hx : d.surbStore suffix = none) {d' : Decoy τ}
    (h : d.step decrypt maxTransit userForwardPayloadLength (.send attempt suffix) = .ok d') :
    d'.Inv ∧ d'.recipient = d.recipient ∧ d'.surbIDBase = d.surbIDBase ∧
      (d' = d ∨ d'.surbStore = Function.update d.surbStore suffix (some d.ctxCount) ∧
        ∀ p ∈ d.held, p ∈ d'.held ∧ d'.ctx p = d.ctx p) := by
  rcases hd.sendLoopPacket_cases maxTransit userForwardPayloadLength attempt hx with
    h' | ⟨c, d₁, effs, -, h', hi, hstore, hctx, hperm, hr, hb⟩
  · obtain rfl : d' = d := by simpa [Decoy.step, h'] using h.symm
    exact ⟨hd, rfl, rfl, Or.inl rfl⟩
  · obtain rfl : d' = d₁ := by simpa [Decoy.step, h'] using h.symm
    exact ⟨hi, hr, hb, Or.inr ⟨hstore, fun p hp => ⟨hperm.symm.subset (List.mem_cons_of_mem _ hp),
      by rw [hctx, Function.update_noteq (hd.held_lt p hp).ne]⟩⟩⟩

/-- The state after retiring the context `c` of a node `n` holding only it under the key `x`. -/
def retireSingle (d : Decoy τ) (x : UInt64) (c n : Nat) : Decoy τ :=
  ((d.setStore x none).setTree (d.surbETAs.remove n)).setEtaNode c none

/-- **A reply**: dropped if not accepted; otherwise it retires the context of its token id, the
only one of its node, and is counted as dropped if `DecryptSURBPayload` rejects the payload
under the context's key. -/
theorem Inv.step_reply (hd : d.Inv) {pkt : Packet} (hs : pkt.isSURBReply = true)
    (ha : d.admissibleEvent (.reply pkt hs) = true) :
    (¬ d.Accepts pkt →
      d.step decrypt maxTransit userForwardPayloadLength (.reply pkt hs) = .ok d.dropPacket) ∧
    (d.Accepts pkt → ∃ c n, d.surbStore (replyID pkt) = some c ∧ d.etaNode c = some n ∧
      d.surbETAs.value n = .surbCtxs [c] ∧
      d.step decrypt maxTransit userForwardPayloadLength (.reply pkt hs) =
        .ok (if (decrypt pkt.payload (d.ctx c).sprpKey).isSome then d.retireSingle (replyID pkt) c n
          else (d.retireSingle (replyID pkt) c n).dropPacket)) := by
  refine ⟨fun h => onPacket_of_drop decrypt d hs h, fun h => ?_⟩
  obtain ⟨hr, hb, hx⟩ := h
  obtain ⟨c, hc⟩ := Option.ne_none_iff_exists'.1 hx
  obtain ⟨n, -, -, hn⟩ := hd.exists_node ((hd.held_iff c).2 ⟨_, hc⟩)
  have hv : d.surbETAs.value n = .surbCtxs [c] := by
    simpa [admissibleEvent, Accepts, hr, hb, hx, admissible, hc, hn] using ha
  refine ⟨c, n, hc, hn, hv, ?_⟩
  simp only [replyID] at hc
  cases hdec : decrypt pkt.payload (d.ctx c).sprpKey <;>
    simp [Decoy.step, onPacket, hs, hr, hb, Decoy.loadAndDeleteSURBCtx_of_single hc hn hv, hdec,
      retireSingle, replyID]

/-- A sweep keeps `Inv`, and a held context whose deadline is after `now` stays held. -/
lemma Inv.step_sweep (hd : d.Inv) (now slack : τ) :
    ∃ d', d.step decrypt maxTransit userForwardPayloadLength (.sweep now slack) = .ok d' ∧
      d'.Inv ∧ d'.ctx = d.ctx ∧ d'.recipient = d.recipient ∧ d'.surbIDBase = d.surbIDBase ∧
      (∀ x, d.surbStore x = none → d'.surbStore x = none) ∧
      ∀ p ∈ d.held, now < (d.ctx p).eta + slack → p ∈ d'.held := by
  obtain ⟨k, htake, -, h⟩ := sweepSURBCtxs_eq_dropFirst now slack fun n hn => hd.value_cons hn
  refine ⟨d.dropFirst k, by simp [Decoy.step, h], hd.dropFirst k, rfl, rfl, rfl,
    fun x hx => by simp [Decoy.dropFirst, deleteIds, hx],
    fun _ hp => hd.mem_held_dropFirst now slack htake hp⟩

/-- **Every admissible call keeps `Inv`** and the decoy's fixed fields, and does not panic. -/
theorem Inv.step (hd : d.Inv) {e : Event τ} (ha : d.admissibleEvent e = true) :
    ∃ d', d.step decrypt maxTransit userForwardPayloadLength e = .ok d' ∧ d'.Inv ∧
      d'.recipient = d.recipient ∧ d'.surbIDBase = d.surbIDBase := by
  cases e with
  | send attempt suffix =>
    have hx : d.surbStore suffix = none := by simpa [admissibleEvent] using ha
    rcases hd.sendLoopPacket_cases maxTransit userForwardPayloadLength attempt hx with
      h | ⟨c, d', effs, -, h, hi, -, -, -, hr, hb⟩
    exacts [⟨d, by simp [Decoy.step, h], hd, rfl, rfl⟩, ⟨d', by simp [Decoy.step, h], hi, hr, hb⟩]
  | reply pkt hs =>
    obtain ⟨hdrop, hacc⟩ := hd.step_reply decrypt maxTransit userForwardPayloadLength hs ha
    by_cases h : d.Accepts pkt
    · obtain ⟨c, n, hc, hn, hv, h⟩ := hacc h
      have hi := hd.loadAndDeleteSURBCtx_of_single hc hn hv
      exact ⟨_, h, by split_ifs; exacts [hi, hi.dropPacket], by split_ifs <;> rfl,
        by split_ifs <;> rfl⟩
    · exact ⟨_, hdrop h, hd.dropPacket, rfl, rfl⟩
  | sweep now slack =>
    obtain ⟨d', h, hi, -, hr, hb, -⟩ :=
      hd.step_sweep decrypt maxTransit userForwardPayloadLength now slack
    exact ⟨d', h, hi, hr, hb⟩

/-- **An admissible run keeps `Inv`** and the decoy's fixed fields, and none of its calls
panics. -/
theorem Inv.runEvents {d : Decoy τ} (hd : d.Inv) :
    ∀ es : List (Event τ),
      d.admissibleEvents decrypt maxTransit userForwardPayloadLength es = true →
      ∃ d', d.runEvents decrypt maxTransit userForwardPayloadLength es = .ok d' ∧ d'.Inv ∧
        d'.recipient = d.recipient ∧ d'.surbIDBase = d.surbIDBase
  | [], _ => ⟨d, rfl, hd, rfl, rfl⟩
  | e :: es, h => by
    obtain ⟨he, hrest⟩ := admissibleEvents_cons decrypt maxTransit userForwardPayloadLength h
    obtain ⟨d₁, h₁, hd₁, hr₁, hb₁⟩ := hd.step decrypt maxTransit userForwardPayloadLength he
    obtain ⟨d', h', hd', hr', hb'⟩ := hd₁.runEvents es (hrest d₁ h₁)
    exact ⟨d', by simp [Decoy.runEvents, h₁, h'], hd', hr'.trans hr₁, hb'.trans hb₁⟩

/-! ### A sent context until its reply -/

/-- **One call keeps a held context held**, unless it is a reply that retires its id or a sweep
past its deadline; the context's fields and the decoy's fixed fields do not change. -/
theorem Inv.step_keeps_held (hd : d.Inv) {e : Event τ} (ha : d.admissibleEvent e = true)
    {p : Nat} (hp : p ∈ d.held)
    (hrep : ∀ pkt hs, e = .reply pkt hs → d.Accepts pkt → replyID pkt ≠ (d.ctx p).id)
    (hexp : ¬ e.Expires (d.ctx p).eta) {d' : Decoy τ}
    (h : d.step decrypt maxTransit userForwardPayloadLength e = .ok d') :
    d'.Inv ∧ p ∈ d'.held ∧ d'.ctx p = d.ctx p ∧ d'.recipient = d.recipient ∧
      d'.surbIDBase = d.surbIDBase := by
  cases e with
  | send attempt suffix =>
    obtain ⟨hi, hr, hb, rfl | ⟨-, hkeep⟩⟩ := hd.step_send decrypt maxTransit
      userForwardPayloadLength attempt (by simpa [admissibleEvent] using ha) h
    exacts [⟨hi, hp, rfl, hr, hb⟩, ⟨hi, (hkeep p hp).1, (hkeep p hp).2, hr, hb⟩]
  | reply pkt hs =>
    obtain ⟨hdrop, hacc⟩ := hd.step_reply decrypt maxTransit userForwardPayloadLength hs ha
    by_cases hA : d.Accepts pkt
    · obtain ⟨c, n, hc, hn, hv, h'⟩ := hacc hA
      have hcp : c ≠ p := fun e => hrep pkt hs rfl hA (e ▸ (hd.key_id _ c hc).symm)
      have hpn : p ∉ (d.surbETAs.value n).members := by simpa [hv] using hcp.symm
      have hi := hd.loadAndDeleteSURBCtx_of_single hc hn hv
      have hheld := mem_held_remove hp hpn
      rw [h'] at h
      split_ifs at h <;> cases h
      exacts [⟨hi, hheld, rfl, rfl, rfl⟩, ⟨hi.dropPacket, hheld, rfl, rfl, rfl⟩]
    · rw [hdrop hA] at h
      cases h
      exact ⟨hd.dropPacket, hp, rfl, rfl, rfl⟩
  | sweep now slack =>
    obtain ⟨d₁, h', hi, hctx, hr, hb, -, hkeep⟩ :=
      hd.step_sweep decrypt maxTransit userForwardPayloadLength now slack
    obtain rfl : d' = d₁ := by simpa [h'] using h.symm
    exact ⟨hi, hkeep p hp (by simpa [Event.Expires] using hexp), by rw [hctx], hr, hb⟩

/-- **Until its reply, a sent context stays outstanding.** Through an admissible run with no reply
to the decoy carrying the context's SURB ID and no sweep past its deadline, a held context stays
held, with the same fields, and `Inv` holds. -/
theorem Inv.runEvents_window {d : Decoy τ} (hd : d.Inv) {p : Nat} (hp : p ∈ d.held) :
    ∀ mid : List (Event τ),
      d.admissibleEvents decrypt maxTransit userForwardPayloadLength mid = true →
      (∀ e ∈ mid, ¬ e.RepliesWith d.recipient (makeSURBID d.surbIDBase (d.ctx p).id) ∧
        ¬ e.Expires (d.ctx p).eta) →
      ∃ d', d.runEvents decrypt maxTransit userForwardPayloadLength mid = .ok d' ∧ d'.Inv ∧
        p ∈ d'.held ∧ d'.ctx p = d.ctx p ∧ d'.recipient = d.recipient ∧
        d'.surbIDBase = d.surbIDBase
  | [], _, _ => ⟨d, rfl, hd, hp, rfl, rfl, rfl⟩
  | e :: es, h, hmid => by
    obtain ⟨he, hrest⟩ := admissibleEvents_cons decrypt maxTransit userForwardPayloadLength h
    obtain ⟨hrw, hexp⟩ := hmid e (List.mem_cons_self _ _)
    have hrep : ∀ pkt hs, e = .reply pkt hs → d.Accepts pkt → replyID pkt ≠ (d.ctx p).id :=
      fun pkt hs he hA hx => hrw (he ▸ ⟨hA.1, hx ▸ hA.eq_makeSURBID⟩)
    obtain ⟨d₁, h₁, -⟩ := hd.step decrypt maxTransit userForwardPayloadLength he
    obtain ⟨hd₁, hp₁, hctx, hr, hb⟩ :=
      hd.step_keeps_held decrypt maxTransit userForwardPayloadLength he hp hrep hexp h₁
    obtain ⟨d', h', hd', hp', hctx', hr', hb'⟩ := hd₁.runEvents_window hp₁ es (hrest d₁ h₁)
      (fun e' he' => by rw [hctx, hr, hb]; exact hmid e' (List.mem_cons_of_mem _ he'))
    exact ⟨d', by simp [Decoy.runEvents, h₁, h'], hd', hp', hctx'.trans hctx, hr'.trans hr,
      hb'.trans hb⟩

/-! ### After the reply -/

/-- **One call keeps an id off `surbStore`**, unless it is a send that draws it. -/
theorem Inv.step_keeps_none (hd : d.Inv) {e : Event τ} (ha : d.admissibleEvent e = true)
    {x : UInt64} (hx : d.surbStore x = none) (hdraw : ¬ e.Draws x) {d' : Decoy τ}
    (h : d.step decrypt maxTransit userForwardPayloadLength e = .ok d') :
    d'.Inv ∧ d'.surbStore x = none ∧ d'.recipient = d.recipient ∧
      d'.surbIDBase = d.surbIDBase := by
  cases e with
  | send attempt suffix =>
    obtain ⟨hi, hr, hb, rfl | ⟨hstore, -⟩⟩ := hd.step_send decrypt maxTransit
      userForwardPayloadLength attempt (by simpa [admissibleEvent] using ha) h
    · exact ⟨hi, hx, hr, hb⟩
    · have hne : x ≠ suffix := fun e => hdraw e.symm
      exact ⟨hi, by rw [hstore, Function.update_noteq hne, hx], hr, hb⟩
  | reply pkt hs =>
    obtain ⟨hdrop, hacc⟩ := hd.step_reply decrypt maxTransit userForwardPayloadLength hs ha
    by_cases hA : d.Accepts pkt
    · obtain ⟨c, n, hc, hn, hv, h'⟩ := hacc hA
      have hi := hd.loadAndDeleteSURBCtx_of_single hc hn hv
      have hnone : (d.retireSingle (replyID pkt) c n).surbStore x = none := by
        by_cases e : x = replyID pkt
        · simp [retireSingle, e]
        · simp [retireSingle, Function.update_noteq e, hx]
      rw [h'] at h
      split_ifs at h <;> cases h
      exacts [⟨hi, hnone, rfl, rfl⟩, ⟨hi.dropPacket, hnone, rfl, rfl⟩]
    · rw [hdrop hA] at h
      cases h
      exact ⟨hd.dropPacket, hx, rfl, rfl⟩
  | sweep now slack =>
    obtain ⟨d₁, h', hi, -, hr, hb, hnone, -⟩ :=
      hd.step_sweep decrypt maxTransit userForwardPayloadLength now slack
    obtain rfl : d' = d₁ := by simpa [h'] using h.symm
    exact ⟨hi, hnone x hx, hr, hb⟩

/-- **After the reply, replies carrying the SURB ID are dropped.** Through an admissible run in
which no send draws `x` again, `x` stays off `surbStore`, and every reply whose SURB ID has `x`
as its token id is dropped, changing nothing but the drop counter. -/
theorem Inv.runEvents_after {d : Decoy τ} (hd : d.Inv) {x : UInt64} (hx : d.surbStore x = none) :
    ∀ post : List (Event τ),
      d.admissibleEvents decrypt maxTransit userForwardPayloadLength post = true →
      (∀ e ∈ post, ¬ e.Draws x) →
      ∀ pre' q hq post', post = pre' ++ .reply q hq :: post' → replyID q = x →
        ∃ d', d.runEvents decrypt maxTransit userForwardPayloadLength pre' = .ok d' ∧
          d'.step decrypt maxTransit userForwardPayloadLength (.reply q hq) = .ok d'.dropPacket
  | [], _, _, pre', _, _, _, h, _ => by simp at h
  | e :: es, h, hpost, [], q, hq, post', he, hqx => by
    obtain ⟨hadm, -⟩ := admissibleEvents_cons decrypt maxTransit userForwardPayloadLength h
    obtain ⟨hdrop, -⟩ := hd.step_reply decrypt maxTransit userForwardPayloadLength hq
      (by cases he; exact hadm)
    exact ⟨d, rfl, hdrop fun hA => hA.2.2 (hqx ▸ hx)⟩
  | e :: es, h, hpost, e' :: pre', q, hq, post', he, hqx => by
    obtain ⟨rfl, hes⟩ := List.cons_eq_cons.1 he
    obtain ⟨hadm, hrest⟩ := admissibleEvents_cons decrypt maxTransit userForwardPayloadLength h
    obtain ⟨d₁, h₁, -⟩ := hd.step decrypt maxTransit userForwardPayloadLength hadm
    obtain ⟨hd₁, hx₁, -⟩ := hd.step_keeps_none decrypt maxTransit userForwardPayloadLength hadm hx
      (hpost _ (List.mem_cons_self _ _)) h₁
    obtain ⟨d', h', hdrop⟩ := hd₁.runEvents_after hx₁ es (hrest d₁ h₁)
      (fun e he => hpost e (List.mem_cons_of_mem _ he)) pre' q hq post' hes hqx
    exact ⟨d', by simp [Decoy.runEvents, h₁, h'], hdrop⟩

/-! ### A loop packet's reply -/

/-- **The reply to a loop packet retires the context its send stored.** In an admissible run from
`New`, let `sendLoopPacket` store a context `c` for the SURB ID `makeSURBID b x`. The first reply
to the decoy carrying that SURB ID, made while no sweep has passed `c`'s deadline, passes the
recipient and token-base checks (the SURB ID reads as the token base and `c.id`), retires `c`
itself (its id leaves `surbStore` and `c` its node, and every other outstanding context is still
retrieved by its id) and decrypts with `c.sprpKey`. If no later send draws `x`, every later reply
carrying the SURB ID is dropped, changing nothing but the drop counter.

**Proof sketch.** `New` satisfies `Inv`, which every admissible call keeps. The send stores `c` at
the next pointer; `Inv.runEvents_window` keeps it held with its fields until the reply, which
`Inv.step_reply` shows retiring it, alone in its node by admissibility. After it, `x` is off
`surbStore` (`Inv.runEvents_after`). -/
theorem onPacket_retires_sent_context [Inhabited τ] (b : UInt64) (r : List UInt8)
    (pre mid post : List (Event τ)) (attempt : Nat → Attempt τ) (x : UInt64) (pkt : Packet)
    (hs : pkt.isSURBReply = true)
    (hadm : (new b r : Decoy τ).admissibleEvents decrypt maxTransit userForwardPayloadLength
      (pre ++ (.send attempt x :: (mid ++ .reply pkt hs :: post))) = true)
    {d₁ d₂ : Decoy τ} {c : SurbCtx τ} {effs : List (Effect τ)}
    (hpre : (new b r : Decoy τ).runEvents decrypt maxTransit userForwardPayloadLength pre = .ok d₁)
    (hsend : d₁.sendLoopPacket maxTransit userForwardPayloadLength attempt x =
      .ok (d₂, .store c :: effs))
    (hmid : ∀ e ∈ mid, ¬ e.RepliesWith r (makeSURBID b x) ∧ ¬ e.Expires c.eta)
    (hpkt : pkt.recipientID = r ∧ pkt.surbReplyID = makeSURBID b x)
    (hpost : ∀ e ∈ post, ¬ e.Draws x) :
    ∃ d₃ d₄, d₂.runEvents decrypt maxTransit userForwardPayloadLength mid = .ok d₃ ∧
      bigEndianUint64 pkt.surbReplyID = d₃.surbIDBase ∧ replyID pkt = c.id ∧ d₃.Accepts pkt ∧
      d₃.ctx d₁.ctxCount = c ∧
      d₃.loadAndDeleteSURBCtx c.id = .ok (some d₁.ctxCount, d₄) ∧
      d₄.surbStore c.id = none ∧ d₁.ctxCount ∉ d₄.held ∧
      (∀ c' ∈ d₃.held, c' ≠ d₁.ctxCount →
        ∃ d₅, d₄.loadAndDeleteSURBCtx (d₄.ctx c').id = .ok (some c', d₅)) ∧
      d₃.step decrypt maxTransit userForwardPayloadLength (.reply pkt hs) =
        .ok (if (decrypt pkt.payload c.sprpKey).isSome then d₄ else d₄.dropPacket) ∧
      ∀ pre' q hq post', post = pre' ++ .reply q hq :: post' → q.surbReplyID = makeSURBID b x →
        ∃ d₅, (if (decrypt pkt.payload c.sprpKey).isSome then d₄ else d₄.dropPacket).runEvents
            decrypt maxTransit userForwardPayloadLength pre' = .ok d₅ ∧
          d₅.step decrypt maxTransit userForwardPayloadLength (.reply q hq) =
            .ok d₅.dropPacket := by
  -- the run up to the send
  obtain ⟨hadm₀, hadm₁⟩ := admissibleEvents_append decrypt maxTransit userForwardPayloadLength hadm
  obtain ⟨d₁', h₁, hd₁, hr₁, hb₁⟩ := (inv_new b r).runEvents decrypt maxTransit
    userForwardPayloadLength pre hadm₀
  obtain rfl : d₁ = d₁' := by simpa [hpre] using h₁
  obtain ⟨hsx, hadm₂⟩ := admissibleEvents_cons decrypt maxTransit userForwardPayloadLength
    (hadm₁ d₁ hpre)
  -- the send stores `c` at `p`
  rcases hd₁.sendLoopPacket_cases maxTransit userForwardPayloadLength attempt
      (show d₁.surbStore x = none by simpa [admissibleEvent] using hsx) with
    h | ⟨c', d₂', effs', hcx, h, hd₂, -, hctx₂, hperm₂, hr₂, hb₂⟩
  · simp [hsend] at h
  obtain ⟨rfl, rfl, rfl⟩ : d₂ = d₂' ∧ c = c' ∧ effs = effs' := by simpa [hsend] using h
  set p := d₁.ctxCount
  have hp₂ : p ∈ d₂.held := hperm₂.symm.subset (List.mem_cons_self _ _)
  have hcp : d₂.ctx p = c := by simp [hctx₂, p]
  -- until the reply, `c` stays held at `p`
  obtain ⟨hadm₃, hadm₄⟩ := admissibleEvents_append decrypt maxTransit userForwardPayloadLength
    (hadm₂ d₂ (by simp [Decoy.step, hsend]))
  obtain ⟨d₃, h₃, hd₃, hp₃, hctx₃, hr₃, hb₃⟩ := hd₂.runEvents_window decrypt maxTransit
    userForwardPayloadLength hp₂ mid hadm₃ (by
      rw [hr₂, hb₂, hr₁, hb₁, hcp, hcx]
      exact hmid)
  have hc₃ : d₃.ctx p = c := hctx₃.trans hcp
  have hr : d₃.recipient = r := by rw [hr₃, hr₂, hr₁]; rfl
  have hb : d₃.surbIDBase = b := by rw [hb₃, hb₂, hb₁]; rfl
  have hid : replyID pkt = c.id := by simp [replyID, hpkt.2, hcx]
  have hstore : d₃.surbStore c.id = some p := hc₃ ▸ hd₃.store_id p hp₃
  have hacc : d₃.Accepts pkt := ⟨hpkt.1.trans hr.symm, by simp [hpkt.2, hb], by simp [hid, hstore]⟩
  -- the reply retires `c`
  obtain ⟨hreply, hadm₅⟩ := admissibleEvents_cons decrypt maxTransit userForwardPayloadLength
    (hadm₄ d₃ h₃)
  obtain ⟨c'', n, hc'', hn, hv, hstep⟩ :=
    (hd₃.step_reply decrypt maxTransit userForwardPayloadLength hs hreply).2 hacc
  obtain rfl : c'' = p := by simpa [hid, hstore] using hc''.symm
  rw [hid] at hstep hc''
  have hd₄ := hd₃.loadAndDeleteSURBCtx_of_single hc'' hn hv
  have hmem := hd₃.mem_held_retire hp₃ hn hv c.id
  refine ⟨d₃, d₃.retireSingle c.id p n, h₃, by rw [hpkt.2, hb]; simp, hid, hacc, hc₃,
    by rw [Decoy.loadAndDeleteSURBCtx_of_single hc'' hn hv]; rfl, by simp [retireSingle],
    fun h => ((hmem p).1 h).2 rfl,
    fun c' hc' hne => hd₄.toRepInv.loadAndDeleteSURBCtx_held ((hmem c').2 ⟨hc', hne⟩),
    by rw [hstep, hc₃], ?_⟩
  -- after the reply, `c.id` is off `surbStore`
  intro pre' q hq post' hpost' hq'
  have hd₄' : (if (decrypt pkt.payload c.sprpKey).isSome then d₃.retireSingle c.id p n
      else (d₃.retireSingle c.id p n).dropPacket).Inv := by
    split_ifs; exacts [hd₄, hd₄.dropPacket]
  have hx₄ : (if (decrypt pkt.payload c.sprpKey).isSome then d₃.retireSingle c.id p n
      else (d₃.retireSingle c.id p n).dropPacket).surbStore x = none := by
    split_ifs <;> simp [retireSingle, dropPacket, hcx]
  exact hd₄'.runEvents_after decrypt maxTransit userForwardPayloadLength hx₄ post
    (hadm₅ _ (by rw [hstep, hc₃])) hpost pre' q hq post' hpost' (by simp [replyID, hq'])

/-- An attempt in which both paths are built, with a transit of `transit`, and every call
succeeds; started at `0`, it stores a context with ETA `transit`. -/
def loopFits (transit : ℤ) : Attempt ℤ :=
  ⟨0, fun _ => some (⟨[[1]], List.cons_ne_nil _ _⟩, 0),
    fun _ _ => some (⟨[[2]], List.cons_ne_nil _ _⟩, transit), fun _ => ([7], [9]), 0,
    fun _ _ => some [1], fun _ => true⟩

/-- The SURB reply to the decoy with recipient `[]` that carries the token base `0` and the
token id `x`. -/
def replyTo (x : UInt64) : Packet := ⟨true, [], makeSURBID 0 x, length_makeSURBID 0 x, []⟩

/-- A loop packet's reply among other calls, from `New` with token base `0`. A context is sent
under the suffix `9` (ETA `3`), then the one under `5` (ETA `1`); before the reply to `5` come a
send under `7` (ETA `2`), the reply to `9` and a sweep at time `0`, which expires nothing. The
reply to `5` retires its context, the context sent under `7` is still retrieved by its id, and
the same reply replayed afterwards is dropped. -/
theorem onPacket_retires_sent_context_interleaved :
    (new 0 [] : Decoy ℤ).admissibleEvents (fun _ _ => some []) 10 0
      ([.send (fun _ => loopFits 3) 9] ++ (.send (fun _ => loopFits 1) 5 ::
        ([.send (fun _ => loopFits 2) 7, .reply (replyTo 9) rfl, .sweep 0 0] ++
          .reply (replyTo 5) rfl :: [.reply (replyTo 5) rfl]))) = true ∧
    ∃ d₁ d₂ c effs, (new 0 [] : Decoy ℤ).runEvents (fun _ _ => some []) 10 0
        [.send (fun _ => loopFits 3) 9] = .ok d₁ ∧
      d₁.sendLoopPacket 10 0 (fun _ => loopFits 1) 5 = .ok (d₂, .store c :: effs) ∧
      ∃ d₃ d₄, d₂.runEvents (fun _ _ => some []) 10 0
          [.send (fun _ => loopFits 2) 7, .reply (replyTo 9) rfl, .sweep 0 0] = .ok d₃ ∧
        d₃.Accepts (replyTo 5) ∧ d₃.loadAndDeleteSURBCtx c.id = .ok (some 1, d₄) ∧
        d₄.surbStore c.id = none ∧ (∃ d₅, d₄.loadAndDeleteSURBCtx 7 = .ok (some 2, d₅)) ∧
        ∃ d₅, d₄.runEvents (fun _ _ => some []) 10 0 [] = .ok d₅ ∧
          d₅.step (fun _ _ => some []) 10 0 (.reply (replyTo 5) rfl) = .ok d₅.dropPacket := by
  obtain ⟨d₁, d₂, c, effs, hpre, hsend, hc⟩ : ∃ d₁ d₂ c effs,
      (new 0 [] : Decoy ℤ).runEvents (fun _ _ => some []) 10 0
        [.send (fun _ => loopFits 3) 9] = .ok d₁ ∧
      d₁.sendLoopPacket 10 0 (fun _ => loopFits 1) 5 = .ok (d₂, .store c :: effs) ∧
      c.eta = 1 := ⟨_, _, _, _, rfl, rfl, rfl⟩
  have hadm : (new 0 [] : Decoy ℤ).admissibleEvents (fun _ _ => some []) 10 0
      ([.send (fun _ => loopFits 3) 9] ++ (.send (fun _ => loopFits 1) 5 ::
        ([.send (fun _ => loopFits 2) 7, .reply (replyTo 9) rfl, .sweep 0 0] ++
          .reply (replyTo 5) rfl :: [.reply (replyTo 5) rfl]))) = true := by
    decide
  obtain ⟨d₃, d₄, h₃, -, -, hacc, -, hl, hx, -, hother, -, hrep⟩ := onPacket_retires_sent_context
    (fun _ _ => some []) 10 0 0 [] [.send (fun _ => loopFits 3) 9]
    [.send (fun _ => loopFits 2) 7, .reply (replyTo 9) rfl, .sweep 0 0] [.reply (replyTo 5) rfl]
    (fun _ => loopFits 1) 5 (replyTo 5) rfl hadm hpre hsend
    (fun e he => by
      simp only [List.mem_cons, List.not_mem_nil, or_false] at he
      rcases he with rfl | rfl | rfl
      · exact ⟨id, id⟩
      · refine ⟨fun h => ?_, id⟩
        simp only [Event.RepliesWith, replyTo] at h
        exact absurd h.2 (by decide)
      · exact ⟨id, by simp [Event.Expires, hc]⟩)
    ⟨rfl, rfl⟩ (by simp [Event.Draws])
  have hrep' := hrep [] (replyTo 5) rfl [] rfl rfl
  -- the states the run reaches
  cases hpre.symm.trans (rfl : _ = Except.ok _)
  cases hsend.symm.trans (rfl : _ = Except.ok _)
  cases h₃.symm.trans (rfl : _ = Except.ok _)
  cases hl.symm.trans (rfl : _ = Except.ok _)
  exact ⟨hadm, _, _, _, _, hpre, hsend, _, _, h₃, hacc, hl, hx,
    hother 2 (by decide) (by decide), by simpa using hrep'⟩

/-- Two runs from `New` in which the first reply carrying a loop packet's SURB ID does not do
what the send arranged. When `rng.Uint64` returns the suffix `5` twice, the reply retires the
second context, and the first stays held with its id off `surbStore`. When the contexts of the
suffixes `5` and `6` have the same ETA, the reply for `5` leaves their node holding a nil
`*surbCtx`, and the context of `6` can no longer be retrieved. -/
theorem onPacket_misses_after_collision :
    (∃ d, (new 0 [] : Decoy ℤ).runEvents (fun _ _ => some []) 10 0
        [.send (fun _ => loopFits 1) 5, .send (fun _ => loopFits 2) 5,
          .reply ⟨true, [], makeSURBID 0 5, length_makeSURBID 0 5, []⟩ rfl] = .ok d ∧
      0 ∈ d.held ∧ d.surbStore 5 = none) ∧
    (∃ d, (new 0 [] : Decoy ℤ).runEvents (fun _ _ => some []) 10 0
        [.send (fun _ => loopFits 1) 5, .send (fun _ => loopFits 1) 6,
          .reply ⟨true, [], makeSURBID 0 5, length_makeSURBID 0 5, []⟩ rfl] = .ok d ∧
      d.loadAndDeleteSURBCtx 6 = .error .typeAssertion) :=
  ⟨⟨_, rfl, by decide, by decide⟩, ⟨_, rfl, rfl⟩⟩

end System

end Decoy

end MesonDecoy
