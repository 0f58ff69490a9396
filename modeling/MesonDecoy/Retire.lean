import MesonDecoy.Store

set_option autoImplicit false

/-!
# `loadAndDeleteSURBCtx`

`loadAndDeleteSURBCtx id` has three outcomes. An id that is not a key of `surbStore` changes
nothing. The context of a node holding only it is removed from `surbStore`, its node from the
tree, and its `etaNode` cleared. The context of a node holding several loses its `surbStore`
entry and its `etaNode`, but the node keeps neither the other contexts nor a `[]*surbCtx`: its
value becomes a nil `*surbCtx` (`decoy.go:439` stores `nCtxList[l-1]`, which line 438 has just
set to nil, where the comment above it says the context is removed from the list).

## Main results

* `MesonDecoy.Decoy.loadAndDeleteSURBCtx_of_none`, `loadAndDeleteSURBCtx_of_single`,
  `loadAndDeleteSURBCtx_of_multi` — the state after each outcome.
* `MesonDecoy.Decoy.Inv.loadAndDeleteSURBCtx_of_single` — the second outcome keeps `Inv`.
* `MesonDecoy.Decoy.loadAndDeleteSURBCtx_spec` — what a call changes on a state satisfying
  `KeyInv`.
* `MesonDecoy.Decoy.loadAndDeleteSURBCtx_nils_shared_node` — from `New`, retiring one of two
  contexts with the same ETA leaves their node holding a nil `*surbCtx`, and `RepInv` fails.
* `MesonDecoy.Decoy.Inv.loadAndDeleteSURBCtx_storeSURBCtx` — retiring a context just stored
  under a fresh id and ETA undoes the store.
-/

namespace MesonDecoy

namespace Decoy

variable {τ : Type} {d : Decoy τ} {c n : Nat} {id : UInt64}

/-- An id that is not a key: `nil`, and nothing changes. -/
lemma loadAndDeleteSURBCtx_of_none (h : d.surbStore id = none) :
    d.loadAndDeleteSURBCtx id = .ok (none, d) := by
  simp [loadAndDeleteSURBCtx, h]

/-- The context of a node holding only it: the entry, the node and `etaNode` go. -/
lemma loadAndDeleteSURBCtx_of_single (h : d.surbStore id = some c)
    (hn : d.etaNode c = some n) (hv : d.surbETAs.value n = .surbCtxs [c]) :
    d.loadAndDeleteSURBCtx id =
      .ok (some c, ((d.setStore id none).setTree (d.surbETAs.remove n)).setEtaNode c none) := by
  simp [loadAndDeleteSURBCtx, h, hn, hv]

/-- Whatever the state, a `loadAndDeleteSURBCtx` that returns changes nothing, or deletes the
key `id` and changes no other key; it keeps the decoy's fixed fields. -/
lemma loadAndDeleteSURBCtx_frame {r : Option Nat} {d' : Decoy τ}
    (h : d.loadAndDeleteSURBCtx id = .ok (r, d')) :
    (d' = d ∨ d'.surbStore = Function.update d.surbStore id none) ∧
      d'.recipient = d.recipient ∧ d'.surbIDBase = d.surbIDBase := by
  unfold loadAndDeleteSURBCtx at h
  split at h
  · cases h
    exact ⟨.inl rfl, rfl, rfl⟩
  · obtain ⟨node, -, h⟩ := bind_eq_ok h
    obtain ⟨nl, -, h⟩ := bind_eq_ok h
    dsimp only at h
    split at h
    · split at h
      · cases h
        simp
      · cases h
    · obtain ⟨first, -, h⟩ := bind_eq_ok h
      split at h
      · cases h
      · cases h
        simp

lemma exists_indexOf?_of_mem {l : List Nat} (hc : c ∈ l) :
    ∃ i, l.indexOf? c = some i ∧ i < l.length := by
  cases hi : l.indexOf? c with
  | none => exact absurd (beq_self_eq_true c) (List.indexOf?_eq_none_iff.1 hi c hc)
  | some i => exact ⟨i, rfl, (List.findIdx?_eq_some_iff_getElem.1 hi).1⟩

/-- The context of a node holding several: the entry and `etaNode` go, and the node's value
becomes a nil `*surbCtx`. -/
lemma loadAndDeleteSURBCtx_of_multi {l : List Nat} (h : d.surbStore id = some c)
    (hn : d.etaNode c = some n) (hv : d.surbETAs.value n = .surbCtxs l) (hl : 1 < l.length)
    (hc : c ∈ l) :
    d.loadAndDeleteSURBCtx id = .ok (some c, ((d.setStore id none).setTree
      (d.surbETAs.setValue n (.surbCtx none))).setEtaNode c none) := by
  obtain ⟨i, hi, hil⟩ := exists_indexOf?_of_mem hc
  have hlast :
      (((l.eraseIdx i).map some ++ [none])[l.length - 1]?.getD none : Option Nat) = none := by
    rw [List.getElem?_append_right (by simp [List.length_eraseIdx, hil])]
    simp [List.length_eraseIdx, hil]
  simp [loadAndDeleteSURBCtx, h, hn, hv, hl, hi, hlast]

variable [LinearOrder τ]

/-- Retiring the context `c` of a node holding only it leaves exactly the other contexts held.

**Proof sketch.** With the nodes split around `n` as `l1 ++ n :: l2`, the held contexts are a
permutation of `c :: (l1 ++ l2).flatMap members`, and the nodes after removing `n` are
`l1 ++ l2`. -/
lemma RepInv.mem_held_retire (hd : d.RepInv) (hc : c ∈ d.held) (hn : d.etaNode c = some n)
    (hv : d.surbETAs.value n = .surbCtxs [c]) (id : UInt64) (c' : Nat) :
    c' ∈ (((d.setStore id none).setTree (d.surbETAs.remove n)).setEtaNode c none).held ↔
      c' ∈ d.held ∧ c' ≠ c := by
  obtain ⟨n', hn', -, he⟩ := hd.exists_node hc
  obtain rfl : n' = n := Option.some.inj (he.symm.trans hn)
  obtain ⟨l1, l2, hsplit⟩ := List.append_of_mem hn'
  have hnd := hd.nodes_nodup
  rw [hsplit, List.nodup_append, List.nodup_cons] at hnd
  have h1 : n' ∉ l1 := fun hm => hnd.2.2 hm (List.mem_cons_self _ _)
  have herase : d.surbETAs.nodes.erase n' = l1 ++ l2 := by
    rw [hsplit, List.erase_append_right _ h1, List.erase_cons_head]
  have hperm : d.held.Perm (c :: (l1 ++ l2).flatMap fun m => (d.surbETAs.value m).members) := by
    have hupd : Function.update (fun m => (d.surbETAs.value m).members) n' [c] =
        fun m => (d.surbETAs.value m).members := by
      funext m
      by_cases hm : m = n'
      · subst hm; simp [hv]
      · simp [Function.update_noteq hm]
    have := perm_flatMap_update (fun m => (d.surbETAs.value m).members) [c] h1 hnd.2.1.1
    rwa [hupd, ← hsplit] at this
  have hnd' := List.nodup_cons.1 (hperm.nodup_iff.1 hd.nodup)
  have hX : (((d.setStore id none).setTree (d.surbETAs.remove n')).setEtaNode c none).held =
      (l1 ++ l2).flatMap fun m => (d.surbETAs.value m).members := by
    simp [held, herase]
  rw [hX, hperm.mem_iff, List.mem_cons]
  exact ⟨fun hc' => ⟨Or.inr hc', fun e => hnd'.1 (e ▸ hc')⟩, fun ⟨h', hne⟩ => h'.resolve_left hne⟩

/-- Retiring the context of a node holding only it keeps `KeyInv`. -/
lemma KeyInv.loadAndDeleteSURBCtx_of_single (hd : d.KeyInv) (h : d.surbStore id = some c)
    (hn : d.etaNode c = some n) (hv : d.surbETAs.value n = .surbCtxs [c]) :
    (((d.setStore id none).setTree (d.surbETAs.remove n)).setEtaNode c none).KeyInv := by
  have hmem := hd.mem_held_retire ((hd.held_iff c).2 ⟨id, h⟩) hn hv id
  have hid : (d.ctx c).id = id := hd.key_id id c h
  have hidne : ∀ c' ∈ d.held, c' ≠ c → (d.ctx c').id ≠ id := fun c' hc' hne e =>
    hne (Option.some.inj ((hd.store_id c' hc').symm.trans (e ▸ h)))
  refine hd.of_remove rfl (by simpa using List.erase_sublist n _) (fun _ _ => rfl)
    (fun c' hc' => ?_) (fun k c' hk => ?_) (fun c' hc' => ?_)
  · simp [Function.update_noteq ((hmem c').1 hc').2]
  · by_cases hk' : k = id
    · simp [hk'] at hk
    · simp only [setEtaNode_surbStore, setTree_surbStore, setStore_surbStore,
        Function.update_noteq hk'] at hk
      refine ⟨hk, (hmem c').2 ⟨(hd.held_iff c').2 ⟨k, hk⟩, fun e => hk' ?_⟩⟩
      rw [← hid, ← hd.key_id k c' hk, e]
  · obtain ⟨hc', hne⟩ := (hmem c').1 hc'
    simp [Function.update_noteq (hidne c' hc' hne)]

/-- Retiring the context of a node holding only it keeps `Inv`. -/
lemma Inv.loadAndDeleteSURBCtx_of_single (hd : d.Inv) (h : d.surbStore id = some c)
    (hn : d.etaNode c = some n) (hv : d.surbETAs.value n = .surbCtxs [c]) :
    (((d.setStore id none).setTree (d.surbETAs.remove n)).setEtaNode c none).Inv :=
  hd.of_keyInv (hd.toKeyInv.loadAndDeleteSURBCtx_of_single h hn hv) rfl
    (held_subset (by simpa using List.erase_sublist n _) fun _ _ => rfl)

/-! ### What a call does on a consistent state -/

/-- On a state satisfying `RepInv`, a held context is retrieved by its id. -/
lemma RepInv.loadAndDeleteSURBCtx_held (hd : d.RepInv) (hc : c ∈ d.held) :
    ∃ d', d.loadAndDeleteSURBCtx (d.ctx c).id = .ok (some c, d') := by
  obtain ⟨n, hn, hcn, he⟩ := hd.exists_node hc
  obtain ⟨cs, hv, hne, -⟩ := hd.group n hn
  have hs := hd.store_id c hc
  have hcs : c ∈ cs := by rwa [hv] at hcn
  by_cases hl : cs.length = 1
  · obtain ⟨a, rfl⟩ := List.length_eq_one.1 hl
    obtain rfl := List.mem_singleton.1 hcs
    exact ⟨_, loadAndDeleteSURBCtx_of_single hs he hv⟩
  · have hpos : 0 < cs.length := List.length_pos.2 hne
    exact ⟨_, loadAndDeleteSURBCtx_of_multi hs he hv (by omega) hcs⟩

/-- **`loadAndDeleteSURBCtx` on a state satisfying `KeyInv`.** An id that is not a key gives
`nil` and changes nothing. Otherwise the call returns `c = surbStore[id]`; afterwards `id` is not
a key, every other entry is unchanged, no node holds `c`, `c.etaNode` is nil and every other
`etaNode` unchanged, every other node keeps its place and its value, and a second call with the
same id gives `nil`. If `c` was the only member of its node, the node is gone and `KeyInv` holds
again; otherwise the node stays, holding a nil `*surbCtx`.

**Proof sketch.** The node of `c` is `c.etaNode`; its slice has one member or more, and
`loadAndDeleteSURBCtx_of_single` and `loadAndDeleteSURBCtx_of_multi` give the state after. -/
theorem loadAndDeleteSURBCtx_spec (hd : d.KeyInv) (id : UInt64) :
    (d.surbStore id = none → d.loadAndDeleteSURBCtx id = .ok (none, d)) ∧
    ∀ c, d.surbStore id = some c → ∃ n d', d.loadAndDeleteSURBCtx id = .ok (some c, d') ∧
      d.etaNode c = some n ∧ c ∈ (d.surbETAs.value n).members ∧
      d'.surbStore id = none ∧ (∀ k, k ≠ id → d'.surbStore k = d.surbStore k) ∧
      c ∉ d'.held ∧ d'.etaNode c = none ∧ (∀ c', c' ≠ c → d'.etaNode c' = d.etaNode c') ∧
      d'.ctx = d.ctx ∧ d'.surbETAs.nodes.erase n = d.surbETAs.nodes.erase n ∧
      (∀ m, m ≠ n → d'.surbETAs.value m = d.surbETAs.value m) ∧
      d'.loadAndDeleteSURBCtx id = .ok (none, d') ∧
      ((d.surbETAs.value n).members = [c] → n ∉ d'.surbETAs.nodes ∧ d'.KeyInv) ∧
      ([c] ≠ (d.surbETAs.value n).members →
        n ∈ d'.surbETAs.nodes ∧ d'.surbETAs.value n = .surbCtx none) := by
  refine ⟨loadAndDeleteSURBCtx_of_none, fun c h => ?_⟩
  have hc : c ∈ d.held := (hd.held_iff c).2 ⟨id, h⟩
  obtain ⟨n, hn, hcn, he⟩ := hd.exists_node hc
  obtain ⟨cs, hv, -, -⟩ := hd.group n hn
  have hcs : c ∈ cs := by rwa [hv] at hcn
  have hnd := hd.nodes_nodup
  -- a node holding `c` is `n`
  have huniq : ∀ m ∈ d.surbETAs.nodes, c ∈ (d.surbETAs.value m).members → m = n :=
    fun m hm hcm => hd.node_unique hm hn hcm hcn
  by_cases hl : cs.length ≤ 1
  · obtain rfl : cs = [c] := by
      match cs, hl, hcs with
      | [_], _, hcs => rw [List.mem_singleton.1 hcs]
    have hn' : n ∉ d.surbETAs.nodes.erase n := hnd.not_mem_erase
    exact ⟨n, _, loadAndDeleteSURBCtx_of_single h he hv, he, hcn, by simp, fun k hk => by
      simp [Function.update_noteq hk], fun hc' => ((hd.mem_held_retire hc he hv id c).1 hc').2 rfl,
      by simp, fun c' hc' => by simp [Function.update_noteq hc'], rfl,
      by simp [List.erase_of_not_mem hn'], fun _ _ => rfl, loadAndDeleteSURBCtx_of_none (by simp),
      fun _ => ⟨by simpa using hn', hd.loadAndDeleteSURBCtx_of_single h he hv⟩,
      fun h => absurd (by rw [hv]; rfl) h⟩
  · push_neg at hl
    refine ⟨n, _, loadAndDeleteSURBCtx_of_multi h he hv hl hcs, he, hcn, by simp, fun k hk => by
      simp [Function.update_noteq hk], fun hc => ?_, by simp, fun c' hc' => by
      simp [Function.update_noteq hc'], rfl, rfl, fun m hm => by
      simp [Function.update_noteq hm], loadAndDeleteSURBCtx_of_none (by simp),
      fun h' => absurd hl (by rw [hv, Value.members_surbCtxs] at h'; simp [h']),
      fun _ => ⟨hn, by simp⟩⟩
    obtain ⟨m, hm, hcm⟩ := mem_held.1 hc
    by_cases hmn : m = n
    · subst hmn
      simp at hcm
    · simp only [setEtaNode_surbETAs, setTree_surbETAs, Tree.setValue_nodes, Tree.setValue_value,
        Function.update_noteq hmn] at hm hcm
      exact hmn (huniq m hm hcm)

/-- **Retiring one of two contexts that share a node loses the other.** From `New`, store the
contexts with ids `1` and `2`, both with ETA `5`: `Insert` finds the node of the first for the
second, so the node holds both as a `[]*surbCtx`, and the state satisfies `Inv`. Retiring `1`
returns the first context and takes `1` off `surbStore`, but the node, still in `surbETAs`, then
holds a nil `*surbCtx` (`decoy.go:438-439`) where the comment above the loop says it keeps the
other contexts, and `RepInv` fails. -/
theorem loadAndDeleteSURBCtx_nils_shared_node :
    ∃ d₁ d₂ d₃, ((new 0 [] : Decoy ℤ).alloc ⟨1, 5, []⟩).2.storeSURBCtx 0 = .ok d₁ ∧
      (d₁.alloc ⟨2, 5, []⟩).2.storeSURBCtx 1 = .ok d₂ ∧ d₂.Inv ∧
      d₂.surbETAs.nodes = [0] ∧ d₂.surbETAs.value 0 = .surbCtxs [0, 1] ∧
      d₂.loadAndDeleteSURBCtx 1 = .ok (some 0, d₃) ∧ d₃.surbStore 1 = none ∧
      d₃.surbETAs.nodes = [0] ∧ d₃.surbETAs.value 0 = .surbCtx none ∧ ¬ d₃.RepInv := by
  obtain ⟨d₁, h₁, hd₁⟩ :=
    (inv_new 0 [] : (new 0 [] : Decoy ℤ).Inv).alloc_storeSURBCtx ⟨1, 5, []⟩ rfl
  cases h₁.symm.trans (rfl : _ = Except.ok _)
  obtain ⟨d₂, h₂, hd₂⟩ := hd₁.alloc_storeSURBCtx ⟨2, 5, []⟩ rfl
  cases h₂.symm.trans (rfl : _ = Except.ok _)
  refine ⟨_, _, _, rfl, rfl, hd₂, rfl, rfl, rfl, rfl, rfl, rfl, fun h => ?_⟩
  -- the node's value is no `[]*surbCtx`
  obtain ⟨cs, hcs, -⟩ := h.group 0 (by decide)
  cases hcs

/-! ### Storing, then retiring -/

/-- **Retiring a stored context undoes the store.** On a state satisfying `Inv`, store a newly
allocated context `x` whose id is not a key and whose ETA no node has, then call
`loadAndDeleteSURBCtx x.id`: the call returns the new context, the state keeps `Inv`, and
`surbStore`, the nodes of the tree, their slices and the `etaNode` of every other context are as
before the store. Where a node has `x`'s ETA, the store appends `x` to that node's slice, and
retiring it takes the branch of `loadAndDeleteSURBCtx_of_multi` instead.

**Proof sketch.** No node has the ETA, so the store adds the node `[x]` at a new handle
(`storeSURBCtx_of_not_mem`), and the retirement removes that node again
(`loadAndDeleteSURBCtx_of_single`). -/
theorem Inv.loadAndDeleteSURBCtx_storeSURBCtx (hd : d.Inv) (x : SurbCtx τ)
    (hid : d.surbStore x.id = none) (heta : ∀ n ∈ d.surbETAs.nodes, d.nodeEta n ≠ x.eta) :
    ∃ d₁ d₂, (d.alloc x).2.storeSURBCtx d.ctxCount = .ok d₁ ∧
      d₁.loadAndDeleteSURBCtx x.id = .ok (some d.ctxCount, d₂) ∧ d₂.Inv ∧
      d₂.surbStore = d.surbStore ∧ d₂.surbETAs.nodes = d.surbETAs.nodes ∧
      (∀ n ∈ d.surbETAs.nodes, d₂.surbETAs.value n = d.surbETAs.value n) ∧
      ∀ c ≠ d.ctxCount, d₂.etaNode c = d.etaNode c := by
  have hne : ∀ n ∈ (d.alloc x).2.surbETAs.nodes,
      (d.alloc x).2.nodeEta n ≠ ((d.alloc x).2.ctx d.ctxCount).eta := fun n hn => by
    rw [hd.nodeEta_alloc x hn]
    simpa using heta n hn
  obtain ⟨k, -, -, hs⟩ := storeSURBCtx_of_not_mem (hd.alloc x).toRepInv hne
  obtain ⟨d₁, hs', hd₁⟩ := hd.alloc_storeSURBCtx x hid
  rw [alloc_fst, hs] at hs'
  cases hs'
  have hf := d.surbETAs.count_not_mem
  have h : ∀ (v : Value), ∀ n ∈ d.surbETAs.nodes,
      Function.update d.surbETAs.value d.surbETAs.count v n = d.surbETAs.value n :=
    fun _ n hn => Function.update_noteq (ne_of_mem_of_not_mem hn hf) _ _
  refine ⟨_, _, hs, Decoy.loadAndDeleteSURBCtx_of_single (n := d.surbETAs.count) (by simp) (by simp)
    (by simp), hd₁.loadAndDeleteSURBCtx_of_single (by simp) (by simp) (by simp), ?_, ?_,
    fun n hn => by simpa using h _ n hn, fun c hc => by simp [Function.update_noteq hc]⟩
  · simp [Function.update_eq_self_iff, hid]
  · simp only [setEtaNode_surbETAs, setTree_surbETAs, Tree.remove_nodes, setStore_surbETAs,
      Tree.addNode_nodes, alloc_surbETAs]
    rw [List.erase_append_right _ fun hm => hf (List.mem_of_mem_take hm), List.erase_cons_head,
      List.take_append_drop]

/-- The context with id `7` and ETA `5`, stored in the state of `New` and retired. -/
theorem loadAndDeleteSURBCtx_storeSURBCtx_new :
    ∃ d₁ d₂, ((new 0 [] : Decoy ℤ).alloc ⟨7, 5, []⟩).2.storeSURBCtx 0 = .ok d₁ ∧
      d₁.loadAndDeleteSURBCtx 7 = .ok (some 0, d₂) ∧ d₂.Inv ∧
      d₂.surbStore = (new 0 [] : Decoy ℤ).surbStore ∧ d₂.surbETAs.nodes = [] ∧
      (∀ n ∈ (new 0 [] : Decoy ℤ).surbETAs.nodes,
        d₂.surbETAs.value n = (new 0 [] : Decoy ℤ).surbETAs.value n) ∧
      ∀ c ≠ 0, d₂.etaNode c = (new 0 [] : Decoy ℤ).etaNode c :=
  (inv_new 0 []).loadAndDeleteSURBCtx_storeSURBCtx ⟨7, 5, []⟩ rfl
    fun _ h => absurd h (List.not_mem_nil _)

end Decoy

end MesonDecoy
