import MesonDecoy.Lifecycle
import Mathlib.Data.List.Pairwise

set_option autoImplicit false

/-!
# The representation invariant of the token state

`surbETAs` and `surbStore` are two views of the outstanding contexts: the first ordered by ETA
and grouping contexts with the same ETA in one node, the second keyed by id. `RepInv` says that
the views agree and the tree is well formed. `KeyInv` adds that each key of `surbStore` is the id
of the context it maps to, and `Inv` that held contexts are allocated: every reachable state has
both.

## Main definitions

* `MesonDecoy.Decoy.nodeEta` — the ETA the comparator reads from a node.
* `MesonDecoy.Decoy.RepInv` — the representation invariant.
* `MesonDecoy.Decoy.KeyInv`, `MesonDecoy.Decoy.Inv` — `RepInv` with the facts above.

## Main results

* `MesonDecoy.Decoy.inv_new`, `MesonDecoy.Decoy.Inv.alloc` — `New` builds a state satisfying
  `Inv`, and allocating a context keeps it.
* `MesonDecoy.Decoy.KeyInv.of_remove` — removing nodes and their entries keeps `KeyInv`.
* `MesonDecoy.Decoy.RepInv.eta_eq`, `RepInv.node_unique`, `RepInv.nodes_nodup` — the lemmas
  the operations' proofs use instead of unfolding `RepInv`.
-/

namespace MesonDecoy

namespace Decoy

variable {τ : Type} {d : Decoy τ}

/-- The ETA the comparator reads from node `n`, that of the first context it holds (junk
`(d.ctx 0).eta` for a value holding none). -/
def nodeEta (d : Decoy τ) (n : Nat) : τ := (d.ctx ((d.surbETAs.value n).members.headD 0)).eta

@[simp] lemma setStore_nodeEta (k : UInt64) (w : Option Nat) :
    (d.setStore k w).nodeEta = d.nodeEta := rfl

@[simp] lemma setEtaNode_nodeEta (c : Nat) (w : Option Nat) :
    (d.setEtaNode c w).nodeEta = d.nodeEta := rfl

/-- A tree that keeps some of the nodes, with their values, holds some of the contexts. -/
lemma held_subset {d' : Decoy τ} (hnodes : d'.surbETAs.nodes.Sublist d.surbETAs.nodes)
    (hval : ∀ n ∈ d'.surbETAs.nodes, d'.surbETAs.value n = d.surbETAs.value n) :
    ∀ c ∈ d'.held, c ∈ d.held := fun c hc => by
  obtain ⟨n, hn, hcn⟩ := mem_held.1 hc
  exact mem_held.2 ⟨n, hnodes.subset hn, hval n hn ▸ hcn⟩

variable [LinearOrder τ]

/-- The representation invariant: every node holds a non-empty `[]*surbCtx` whose contexts
share one ETA, the nodes are strictly ascending by it, every held context is held exactly once,
the held contexts are the values of `surbStore`, each under its own id, and `etaNode` points
from each held context to its node. -/
structure RepInv (d : Decoy τ) : Prop where
  group : ∀ n ∈ d.surbETAs.nodes, ∃ cs, d.surbETAs.value n = .surbCtxs cs ∧ cs ≠ [] ∧
    ∀ c ∈ cs, (d.ctx c).eta = d.nodeEta n
  sorted : d.surbETAs.nodes.Pairwise fun m n => d.nodeEta m < d.nodeEta n
  nodup : d.held.Nodup
  held_iff : ∀ c, c ∈ d.held ↔ ∃ k, d.surbStore k = some c
  store_id : ∀ c ∈ d.held, d.surbStore (d.ctx c).id = some c
  etaNode : ∀ n ∈ d.surbETAs.nodes, ∀ c ∈ (d.surbETAs.value n).members, d.etaNode c = some n

/-- `RepInv`, and every key of `surbStore` the id of the context it maps to. -/
structure KeyInv (d : Decoy τ) extends d.RepInv : Prop where
  key_id : ∀ k c, d.surbStore k = some c → (d.ctx c).id = k

/-- `KeyInv`, and held contexts allocated. -/
structure Inv (d : Decoy τ) extends d.KeyInv : Prop where
  held_lt : ∀ c ∈ d.held, c < d.ctxCount

/-- `New` builds a state with no node and no stored context. -/
lemma inv_new [Inhabited τ] (b : UInt64) (r : List UInt8) : (new b r : Decoy τ).Inv where
  group _ h := absurd h (List.not_mem_nil _)
  sorted := List.Pairwise.nil
  nodup := List.nodup_nil
  held_iff _ := by simp [new, held]
  store_id _ h := by simp [new, held] at h
  etaNode _ h := absurd h (List.not_mem_nil _)
  key_id _ _ h := by simp [new] at h
  held_lt _ h := by simp [new, held] at h

/-- **Removing keeps `KeyInv`.** A state whose tree keeps some of the nodes, in order and with
their values, in which held contexts keep `etaNode`, and whose `surbStore` gains no entry, loses
only entries of contexts no longer held and keeps the id of every context still held, satisfies
`KeyInv`. -/
theorem KeyInv.of_remove {d' : Decoy τ} (hd : d.KeyInv) (hctx : d'.ctx = d.ctx)
    (hnodes : d'.surbETAs.nodes.Sublist d.surbETAs.nodes)
    (hval : ∀ n ∈ d'.surbETAs.nodes, d'.surbETAs.value n = d.surbETAs.value n)
    (hetaNode : ∀ c ∈ d'.held, d'.etaNode c = d.etaNode c)
    (hstore : ∀ k c, d'.surbStore k = some c → d.surbStore k = some c ∧ c ∈ d'.held)
    (hkeep : ∀ c ∈ d'.held, d'.surbStore (d.ctx c).id = d.surbStore (d.ctx c).id) :
    d'.KeyInv := by
  have hheld : d'.held = d'.surbETAs.nodes.flatMap fun n => (d.surbETAs.value n).members :=
    List.flatMap_congr fun n hn => by rw [hval n hn]
  have hsub := held_subset hnodes hval
  have heta : ∀ n ∈ d'.surbETAs.nodes, d'.nodeEta n = d.nodeEta n := fun n hn => by
    simp only [nodeEta, hval n hn, hctx]
  have hsid : ∀ c ∈ d'.held, d'.surbStore (d.ctx c).id = some c := fun c hc =>
    (hkeep c hc).trans (hd.store_id c (hsub c hc))
  have hnd := List.nodup_flatMap.1 hd.nodup
  refine ⟨⟨fun n hn => ?_, (hd.sorted.sublist hnodes).imp_of_mem fun ha hb h => ?_, ?_,
    fun c => ⟨fun hc => ⟨_, hsid c hc⟩, fun ⟨k, hk⟩ => (hstore k c hk).2⟩,
    fun c hc => hctx ▸ hsid c hc, fun n hn c hc => ?_⟩, fun k c hk => ?_⟩
  · obtain ⟨cs, hcs, hne, hall⟩ := hd.group n (hnodes.subset hn)
    exact ⟨cs, (hval n hn).trans hcs, hne, fun c hc => by rw [hctx, heta n hn]; exact hall c hc⟩
  · rwa [heta _ ha, heta _ hb]
  · rw [hheld]
    exact List.nodup_flatMap.2 ⟨fun n hn => hnd.1 n (hnodes.subset hn), hnd.2.sublist hnodes⟩
  · rw [hetaNode c (mem_held.2 ⟨n, hn, hc⟩)]
    exact hd.etaNode n (hnodes.subset hn) c (hval n hn ▸ hc)
  · rw [hctx]
    exact hd.key_id k c (hstore k c hk).1

/-- A state satisfying `KeyInv` that allocates the same contexts and holds some of those held
before satisfies `Inv`. -/
lemma Inv.of_keyInv {d' : Decoy τ} (hd : d.Inv) (h' : d'.KeyInv)
    (hcount : d'.ctxCount = d.ctxCount) (hsub : ∀ c ∈ d'.held, c ∈ d.held) : d'.Inv :=
  ⟨h', fun c hc => hcount ▸ hd.held_lt c (hsub c hc)⟩

namespace RepInv

variable (hd : d.RepInv)
include hd

/-- A context held by a node has that node's ETA. -/
lemma eta_eq {n c : Nat} (hn : n ∈ d.surbETAs.nodes) (hc : c ∈ (d.surbETAs.value n).members) :
    (d.ctx c).eta = d.nodeEta n := by
  obtain ⟨cs, hv, -, he⟩ := hd.group n hn
  rw [hv] at hc
  exact he c hc

/-- A node of the tree holds a non-empty slice. -/
lemma value_cons {n : Nat} (hn : n ∈ d.surbETAs.nodes) :
    ∃ h t, d.surbETAs.value n = .surbCtxs (h :: t) := by
  obtain ⟨cs, hv, hne, -⟩ := hd.group n hn
  obtain ⟨h, t, rfl⟩ := List.exists_cons_of_ne_nil hne
  exact ⟨h, t, hv⟩

/-- A context is held by at most one node. -/
lemma node_unique {m n c : Nat} (hm : m ∈ d.surbETAs.nodes) (hn : n ∈ d.surbETAs.nodes)
    (hcm : c ∈ (d.surbETAs.value m).members) (hcn : c ∈ (d.surbETAs.value n).members) : m = n :=
  Option.some.inj ((hd.etaNode m hm c hcm).symm.trans (hd.etaNode n hn c hcn))

lemma nodes_nodup : d.surbETAs.nodes.Nodup :=
  hd.sorted.imp fun h => ne_of_apply_ne d.nodeEta (ne_of_lt h)

/-- Two nodes of the tree with the same ETA are the same node. -/
lemma eq_of_nodeEta_eq {m n : Nat} (hm : m ∈ d.surbETAs.nodes) (hn : n ∈ d.surbETAs.nodes)
    (h : d.nodeEta m = d.nodeEta n) : m = n := by
  by_contra hne
  exact (hd.sorted.imp ne_of_lt).forall (fun _ _ h => Ne.symm h) hm hn hne h

/-- The node holding a held context. -/
lemma exists_node {c : Nat} (hc : c ∈ d.held) :
    ∃ n ∈ d.surbETAs.nodes, c ∈ (d.surbETAs.value n).members ∧ d.etaNode c = some n := by
  obtain ⟨n, hn, hcn⟩ := mem_held.1 hc
  exact ⟨n, hn, hcn, hd.etaNode n hn c hcn⟩

end RepInv

/-- Allocating a context changes no held context. -/
lemma Inv.ctx_alloc (hd : d.Inv) (x : SurbCtx τ) {c : Nat} (hc : c ∈ d.held) :
    (d.alloc x).2.ctx c = d.ctx c := by
  simp [Function.update_noteq (hd.held_lt c hc).ne]

/-- Allocating a context changes the ETA of no node. -/
lemma Inv.nodeEta_alloc (hd : d.Inv) (x : SurbCtx τ) {n : Nat} (hn : n ∈ d.surbETAs.nodes) :
    (d.alloc x).2.nodeEta n = d.nodeEta n := by
  obtain ⟨h, t, hv⟩ := hd.value_cons hn
  have hh : h ∈ d.held := mem_held.2 ⟨n, hn, by simp [hv]⟩
  simp only [nodeEta, alloc_surbETAs, hv, Value.members_surbCtxs, List.headD_cons,
    hd.ctx_alloc x hh]

/-- Allocating a context keeps `Inv`: no held context is at the new pointer. -/
lemma Inv.alloc (hd : d.Inv) (x : SurbCtx τ) : (d.alloc x).2.Inv := by
  have hne : ∀ c ∈ d.held, c ≠ d.ctxCount := fun c hc => (hd.held_lt c hc).ne
  have hctx : ∀ c ∈ d.held, (d.alloc x).2.ctx c = d.ctx c := fun c hc => hd.ctx_alloc x hc
  have heta : ∀ n ∈ d.surbETAs.nodes, (d.alloc x).2.nodeEta n = d.nodeEta n :=
    fun n hn => hd.nodeEta_alloc x hn
  refine ⟨⟨⟨fun n hn => ?_, hd.sorted.imp_of_mem fun ha hb h => ?_, hd.nodup, hd.held_iff,
    fun c hc => ?_, fun n hn c hc => ?_⟩, fun k c hk => ?_⟩, fun c hc => ?_⟩
  · obtain ⟨cs, hcs, hcs0, hall⟩ := hd.group n hn
    refine ⟨cs, hcs, hcs0, fun c hc => ?_⟩
    have hch : c ∈ d.held := mem_held.2 ⟨n, hn, by simp [hcs, hc]⟩
    rw [hctx c hch, heta n hn]
    exact hall c hc
  · rwa [heta _ ha, heta _ hb]
  · rw [hctx c hc]
    exact hd.store_id c hc
  · have hch : c ∈ d.held := mem_held.2 ⟨n, hn, hc⟩
    simp [Function.update_noteq (hne c hch), hd.etaNode n hn c hc]
  · have hch : c ∈ d.held := (hd.held_iff c).2 ⟨k, hk⟩
    rw [hctx c hch]
    exact hd.key_id k c hk
  · exact Nat.lt_succ_of_lt (hd.held_lt c hc)

end Decoy

end MesonDecoy
