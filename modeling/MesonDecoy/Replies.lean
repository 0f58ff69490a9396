import MesonDecoy.System

set_option autoImplicit false

/-!
# Concurrent replies

The crypto workers call `OnPacket` concurrently. Each call reaches the token state once, in
`loadAndDeleteSURBCtx`, under the mutex, so the replies reach it one at a time in the order the
mutex admits them, which is the scheduler's. On a state satisfying `Inv`, that order does not
matter for replies with different token ids: two of them commute, and every order of a batch of
them ends in the same token state, `packetsDropped` included. Two replies with the same token id
do not commute: the first retires the context and the second is dropped, and which of the two
payloads is decrypted decides whether the first is counted as dropped too.

## Main results

* `MesonDecoy.Decoy.Inv.step_reply_comm` — two admissible replies with different token ids
  commute.
* `MesonDecoy.Decoy.Inv.runEvents_replies_perm` — every order of a batch of admissible replies
  with pairwise different token ids ends in the same state.
-/

namespace MesonDecoy

namespace Decoy

variable {τ : Type} {d : Decoy τ}

/-! ### Retirements commute -/

lemma dropPacket_retireSingle (x : UInt64) (c n : Nat) :
    d.dropPacket.retireSingle x c n = (d.retireSingle x c n).dropPacket := rfl

lemma retireSingle_comm {x y : UInt64} {c c' : Nat} (hxy : x ≠ y) (hc : c ≠ c') (n n' : Nat) :
    (d.retireSingle x c n).retireSingle y c' n' = (d.retireSingle y c' n').retireSingle x c n := by
  simp only [retireSingle, setStore, setTree, setEtaNode, Function.update_comm hxy,
    Function.update_comm hc]
  congr 1
  exact Tree.ext (List.erase_comm _ _ _) rfl rfl

/-! ### What a reply reads and writes -/

/-- Whether a reply is accepted and admissible depends only on the fixed fields, the entry of its
token id, the `etaNode` of that entry's context and the node values. -/
lemma admissibleEvent_reply_congr {d' : Decoy τ} {pkt : Packet} (hs : pkt.isSURBReply = true)
    (hr : d'.recipient = d.recipient) (hb : d'.surbIDBase = d.surbIDBase)
    (hk : d'.surbStore (replyID pkt) = d.surbStore (replyID pkt))
    (he : ∀ c, d.surbStore (replyID pkt) = some c → d'.etaNode c = d.etaNode c)
    (hv : d'.surbETAs.value = d.surbETAs.value) :
    (d'.Accepts pkt ↔ d.Accepts pkt) ∧
      d'.admissibleEvent (.reply pkt hs) = d.admissibleEvent (.reply pkt hs) := by
  have hacc : d'.Accepts pkt ↔ d.Accepts pkt := by simp only [Accepts, hr, hb, hk]
  have hadm : d'.admissible (.loadAndDelete (replyID pkt)) =
      d.admissible (.loadAndDelete (replyID pkt)) := by
    simp only [admissible, hk]
    cases hx : d.surbStore (replyID pkt) with
    | none => rfl
    | some c => simp only [he c hx, hv]
  exact ⟨hacc, by simp only [admissibleEvent, hadm, hacc]⟩

variable [LinearOrder τ]

/-- An accepted reply finds a context under its token id, and the context's node. -/
lemma Inv.exists_of_accepts (hd : d.Inv) {pkt : Packet} (hA : d.Accepts pkt) :
    ∃ c n, d.surbStore (replyID pkt) = some c ∧ d.etaNode c = some n := by
  obtain ⟨c, hc⟩ := Option.ne_none_iff_exists'.1 hA.2.2
  obtain ⟨n, -, -, hn⟩ := hd.exists_node ((hd.held_iff c).2 ⟨_, hc⟩)
  exact ⟨c, n, hc, hn⟩

variable [Add τ] [Sub τ]

section Replies

variable (decrypt : List UInt8 → List UInt8 → Option (List UInt8)) (maxTransit : τ)
  (userForwardPayloadLength : Nat)

/-- An admissible reply keeps `Inv`, and leaves as they were the contexts, the fixed fields, the
node values, the entry of any other key and the `etaNode` of that entry's context. -/
lemma Inv.step_reply_frame (hd : d.Inv) {q : Packet} (hq : q.isSURBReply = true)
    (ha : d.admissibleEvent (.reply q hq) = true) {d₁ : Decoy τ}
    (h : d.step decrypt maxTransit userForwardPayloadLength (.reply q hq) = .ok d₁)
    {x : UInt64} (hx : x ≠ replyID q) :
    d₁.Inv ∧ d₁.recipient = d.recipient ∧ d₁.surbIDBase = d.surbIDBase ∧ d₁.ctx = d.ctx ∧
      d₁.surbStore x = d.surbStore x ∧
      (∀ c, d.surbStore x = some c → d₁.etaNode c = d.etaNode c) ∧
      d₁.surbETAs.value = d.surbETAs.value := by
  obtain ⟨d₂, h₂, hi, hr, hb⟩ := hd.step decrypt maxTransit userForwardPayloadLength ha
  obtain rfl : d₂ = d₁ := Except.ok.inj (h₂.symm.trans h)
  refine ⟨hi, hr, hb, ?_⟩
  obtain ⟨hdrop, hacc⟩ := hd.step_reply decrypt maxTransit userForwardPayloadLength hq ha
  by_cases hA : d.Accepts q
  · obtain ⟨c', n', hc', -, -, h'⟩ := hacc hA
    obtain rfl := Except.ok.inj (h'.symm.trans h₂)
    -- the context of `x` is not the one retired: their ids differ
    have hne : ∀ c, d.surbStore x = some c → c ≠ c' := fun c hc e =>
      hx (by rw [← hd.key_id x c hc, e, hd.key_id _ c' hc'])
    split_ifs <;>
      exact ⟨rfl, by simp [retireSingle, Function.update_noteq hx],
        fun c hc => by simp [retireSingle, Function.update_noteq (hne c hc)], rfl⟩
  · obtain rfl := Except.ok.inj ((hdrop hA).symm.trans h₂)
    exact ⟨rfl, rfl, fun _ _ => rfl, rfl⟩

/-- A reply on a state `d'` satisfying `Inv` that agrees with `d` on what the reply reads (the
fixed fields, the entry of its token id, the `etaNode` of that entry's context, the node values
and the contexts) does on `d'` what it does on `d`. -/
lemma step_reply_of_agree {d' : Decoy τ} (hd' : d'.Inv) {pkt : Packet}
    (hs : pkt.isSURBReply = true) (ha : d.admissibleEvent (.reply pkt hs) = true)
    (hr : d'.recipient = d.recipient) (hb : d'.surbIDBase = d.surbIDBase) (hctx : d'.ctx = d.ctx)
    (hk : d'.surbStore (replyID pkt) = d.surbStore (replyID pkt))
    (he : ∀ c, d.surbStore (replyID pkt) = some c → d'.etaNode c = d.etaNode c)
    (hv : d'.surbETAs.value = d.surbETAs.value) :
    (¬ d.Accepts pkt →
      d'.step decrypt maxTransit userForwardPayloadLength (.reply pkt hs) = .ok d'.dropPacket) ∧
    ∀ c n, d.Accepts pkt → d.surbStore (replyID pkt) = some c → d.etaNode c = some n →
      d'.step decrypt maxTransit userForwardPayloadLength (.reply pkt hs) =
        .ok (if (decrypt pkt.payload (d.ctx c).sprpKey).isSome
          then d'.retireSingle (replyID pkt) c n
          else (d'.retireSingle (replyID pkt) c n).dropPacket) := by
  obtain ⟨hacc, hadm⟩ := admissibleEvent_reply_congr hs hr hb hk he hv
  obtain ⟨hdrop, haccept⟩ :=
    hd'.step_reply decrypt maxTransit userForwardPayloadLength hs (hadm.trans ha)
  refine ⟨fun hA => hdrop (mt hacc.1 hA), fun c n hA hc hn => ?_⟩
  obtain ⟨c₁, n₁, hc₁, hn₁, -, h⟩ := haccept (hacc.2 hA)
  obtain rfl : c₁ = c := Option.some.inj ((hk.symm.trans hc₁).symm.trans hc)
  obtain rfl : n₁ = n := Option.some.inj (hn₁.symm.trans ((he c₁ hc).trans hn))
  rw [h, hctx]

/-! ### Replies in any order -/

/-- **Two replies with different token ids commute.** On a state satisfying `Inv`, take two
admissible SURB replies whose token ids differ. Whichever of the two `OnPacket` calls the mutex
admits first, they end in the same token state, `packetsDropped` included.

**Proof sketch.** Each reply touches only its own entry of `surbStore`, its own context's
`etaNode` and its own node (`Inv.step_reply_frame`), so the second does what it would have done
first (`step_reply_of_agree`); two retirements, and a retirement and a drop, commute
(`retireSingle_comm`, `dropPacket_retireSingle`). -/
theorem Inv.step_reply_comm (hd : d.Inv) {p q : Packet} (hp : p.isSURBReply = true)
    (hq : q.isSURBReply = true) (hpq : replyID p ≠ replyID q)
    (hap : d.admissibleEvent (.reply p hp) = true) (haq : d.admissibleEvent (.reply q hq) = true) :
    d.runEvents decrypt maxTransit userForwardPayloadLength [.reply p hp, .reply q hq] =
      d.runEvents decrypt maxTransit userForwardPayloadLength [.reply q hq, .reply p hp] := by
  obtain ⟨dp, hdp, -⟩ := hd.step decrypt maxTransit userForwardPayloadLength hap
  obtain ⟨dq, hdq, -⟩ := hd.step decrypt maxTransit userForwardPayloadLength haq
  obtain ⟨hip, hrp, hbp, hcp, hkp, hep, hvp⟩ :=
    hd.step_reply_frame decrypt maxTransit userForwardPayloadLength hp hap hdp hpq.symm
  obtain ⟨hiq, hrq, hbq, hcq, hkq, heq, hvq⟩ :=
    hd.step_reply_frame decrypt maxTransit userForwardPayloadLength hq haq hdq hpq
  -- each reply does on `d`, and after the other, what `d` dictates
  obtain ⟨hp₁, hp₂⟩ := step_reply_of_agree decrypt maxTransit userForwardPayloadLength hd hp hap
    rfl rfl rfl rfl (fun _ _ => rfl) rfl
  obtain ⟨hq₁, hq₂⟩ := step_reply_of_agree decrypt maxTransit userForwardPayloadLength hd hq haq
    rfl rfl rfl rfl (fun _ _ => rfl) rfl
  obtain ⟨hpq₁, hpq₂⟩ := step_reply_of_agree decrypt maxTransit userForwardPayloadLength hiq hp
    hap hrq hbq hcq hkq heq hvq
  obtain ⟨hqp₁, hqp₂⟩ := step_reply_of_agree decrypt maxTransit userForwardPayloadLength hip hq
    haq hrp hbp hcp hkp hep hvp
  simp only [Decoy.runEvents, hdp, hdq, ok_bind]
  by_cases hAp : d.Accepts p <;> by_cases hAq : d.Accepts q
  · obtain ⟨c, n, hc, hn⟩ := hd.exists_of_accepts hAp
    obtain ⟨c', n', hc', hn'⟩ := hd.exists_of_accepts hAq
    have hcc : c ≠ c' := fun e => hpq (by rw [← hd.key_id _ c hc, e, hd.key_id _ c' hc'])
    obtain rfl := Except.ok.inj ((hp₂ c n hAp hc hn).symm.trans hdp)
    obtain rfl := Except.ok.inj ((hq₂ c' n' hAq hc' hn').symm.trans hdq)
    rw [hqp₂ c' n' hAq hc' hn', hpq₂ c n hAp hc hn, ok_bind, ok_bind]
    split_ifs <;> simp only [dropPacket_retireSingle, retireSingle_comm hpq hcc]
  · obtain ⟨c, n, hc, hn⟩ := hd.exists_of_accepts hAp
    obtain rfl := Except.ok.inj ((hp₂ c n hAp hc hn).symm.trans hdp)
    obtain rfl := Except.ok.inj ((hq₁ hAq).symm.trans hdq)
    rw [hqp₁ hAq, hpq₂ c n hAp hc hn, ok_bind, ok_bind]
    split_ifs <;> simp only [dropPacket_retireSingle]
  · obtain ⟨c', n', hc', hn'⟩ := hd.exists_of_accepts hAq
    obtain rfl := Except.ok.inj ((hp₁ hAp).symm.trans hdp)
    obtain rfl := Except.ok.inj ((hq₂ c' n' hAq hc' hn').symm.trans hdq)
    rw [hqp₂ c' n' hAq hc' hn', hpq₁ hAp, ok_bind, ok_bind]
    split_ifs <;> simp only [dropPacket_retireSingle]
  · obtain rfl := Except.ok.inj ((hp₁ hAp).symm.trans hdp)
    obtain rfl := Except.ok.inj ((hq₁ hAq).symm.trans hdq)
    rw [hqp₁ hAq, hpq₁ hAp]

/-- **Every order of a batch of replies reaches the same state.** On a state satisfying `Inv`,
take SURB replies with pairwise different token ids, each admissible there. Every order in which
the mutex admits their `OnPacket` calls ends in the same token state, `packetsDropped` included.

**Proof sketch.** Induction on the permutation. A swap of neighbours is `Inv.step_reply_comm`.
After a reply the state satisfies `Inv`, and the replies after it are still admissible, since
the reply touched only its own key, context and node (`Inv.step_reply_frame`). -/
theorem Inv.runEvents_replies_perm {ps ps' : List {pkt : Packet // pkt.isSURBReply = true}}
    (hperm : ps.Perm ps') :
    ∀ {d : Decoy τ}, d.Inv → (ps.map fun p => replyID p.1).Nodup →
      (∀ p ∈ ps, d.admissibleEvent (.reply p.1 p.2) = true) →
      d.runEvents decrypt maxTransit userForwardPayloadLength (ps.map fun p => .reply p.1 p.2) =
        d.runEvents decrypt maxTransit userForwardPayloadLength
          (ps'.map fun p => .reply p.1 p.2) := by
  induction hperm with
  | nil => intros; rfl
  | @cons q l₁ l₂ _ ih =>
    intro d hd hnd hadm
    rw [List.map_cons, List.nodup_cons, List.mem_map] at hnd
    have haq := hadm q (List.mem_cons_self _ _)
    obtain ⟨d₁, h₁, hd₁, -⟩ := hd.step decrypt maxTransit userForwardPayloadLength haq
    -- after `q`, the other replies are still admissible
    have hrest : ∀ p ∈ l₁, d₁.admissibleEvent (.reply p.1 p.2) = true := fun p hp => by
      have hpq : replyID p.1 ≠ replyID q.1 := fun e => hnd.1 ⟨p, hp, e⟩
      obtain ⟨-, hr, hb, -, hk, he, hv⟩ :=
        hd.step_reply_frame decrypt maxTransit userForwardPayloadLength q.2 haq h₁ hpq
      rw [(admissibleEvent_reply_congr p.2 hr hb hk he hv).2]
      exact hadm p (List.mem_cons_of_mem _ hp)
    simp only [List.map_cons, Decoy.runEvents, h₁, ok_bind]
    exact ih hd₁ hnd.2 hrest
  | swap q q' l =>
    intro d hd hnd hadm
    have hne : replyID q'.1 ≠ replyID q.1 := by
      simp only [List.map_cons, List.nodup_cons, List.mem_cons] at hnd
      exact fun e => hnd.1 (.inl e)
    -- the two replies first, then the rest
    have hsplit : ∀ a b : {pkt : Packet // pkt.isSURBReply = true},
        (a :: b :: l).map (fun p => (Event.reply p.1 p.2 : Event τ)) =
          [.reply a.1 a.2, .reply b.1 b.2] ++ l.map (fun p => .reply p.1 p.2) := fun _ _ => rfl
    rw [hsplit, hsplit, runEvents_append, runEvents_append, hd.step_reply_comm decrypt maxTransit
      userForwardPayloadLength q'.2 q.2 hne (hadm _ (by simp)) (hadm _ (by simp))]
  | trans h₁₂ _ ih₁₂ ih₂₃ =>
    intro d hd hnd hadm
    exact (ih₁₂ hd hnd hadm).trans (ih₂₃ hd ((h₁₂.map _).nodup_iff.1 hnd)
      fun p hp => hadm p (h₁₂.mem_iff.2 hp))

end Replies

/-- The SURB replies `replyTo x` to the token ids `xs`, in that order. -/
def replies (xs : List UInt64) : List {pkt : Packet // pkt.isSURBReply = true} :=
  xs.map fun x => ⟨replyTo x, rfl⟩

/-- Two loop packets from `New`, under the suffixes `5` and `7` with ETAs `1` and `2`: their
replies, in either order, end in the same state. -/
theorem runEvents_replies_perm_two_loops :
    ∃ d : Decoy ℤ, (new 0 [] : Decoy ℤ).runEvents (fun _ _ => some []) 10 0
        [.send (fun _ => loopFits 1) 5, .send (fun _ => loopFits 2) 7] = .ok d ∧ d.Inv ∧
      ((replies [5, 7]).map fun p => replyID p.1).Nodup ∧
      (∀ p ∈ replies [5, 7], d.admissibleEvent (.reply p.1 p.2) = true) ∧
      d.runEvents (fun _ _ => some []) 10 0 ((replies [5, 7]).map fun p => .reply p.1 p.2) =
        d.runEvents (fun _ _ => some []) 10 0 ((replies [7, 5]).map fun p => .reply p.1 p.2) := by
  obtain ⟨d, h, hnd, hadm⟩ : ∃ d : Decoy ℤ, (new 0 [] : Decoy ℤ).runEvents (fun _ _ => some []) 10 0
        [.send (fun _ => loopFits 1) 5, .send (fun _ => loopFits 2) 7] = .ok d ∧
      ((replies [5, 7]).map fun p => replyID p.1).Nodup ∧
      ∀ p ∈ replies [5, 7], d.admissibleEvent (.reply p.1 p.2) = true :=
    ⟨_, rfl, by decide, by decide⟩
  obtain ⟨d', h', hd, -⟩ := (inv_new 0 [] : (new 0 [] : Decoy ℤ).Inv).runEvents
    (fun _ _ => some []) 10 0 [.send (fun _ => loopFits 1) 5, .send (fun _ => loopFits 2) 7]
    (by decide)
  obtain rfl : d' = d := Except.ok.inj (h'.symm.trans h)
  exact ⟨d', h, hd, hnd, hadm, hd.runEvents_replies_perm (fun _ _ => some []) 10 0
    (List.Perm.swap _ _ []) hnd hadm⟩

end Decoy

end MesonDecoy
