import MesonDecoy.Invariant

set_option autoImplicit false

/-!
# `storeSURBCtx`

On a state satisfying the representation invariant, `storeSURBCtx` of a fresh context `c`
either appends `c` to the node that already has its ETA, or inserts one new node `[c]` at the
position of its ETA; in both cases it maps `c.id` to `c` and points `c.etaNode` at the node.

## Main results

* `MesonDecoy.Decoy.storeSURBCtx_of_mem`, `MesonDecoy.Decoy.storeSURBCtx_of_not_mem` — the state
  after `storeSURBCtx` in each case.
* `MesonDecoy.Decoy.storeSURBCtx_spec` — what changes and what does not.
* `MesonDecoy.Decoy.Inv.alloc_storeSURBCtx` — storing a newly allocated context under an id
  that is not a key keeps `Inv`.
-/

namespace MesonDecoy

namespace Decoy

variable {τ : Type} [LinearOrder τ] {d : Decoy τ} {c : Nat}

/-! ### The search of `Insert` -/

/-- On a node holding a non-empty slice, the comparator compares `c.eta` with the node's ETA. -/
lemma compareETAs_node {n h : Nat} {t : List Nat}
    (hv : d.surbETAs.value n = .surbCtxs (h :: t)) :
    compareETAs d.ctx (.surbCtxs [c]) (d.surbETAs.value n) =
      .ok (if (d.ctx c).eta < d.nodeEta n then -1 else if d.nodeEta n < (d.ctx c).eta then 1
        else 0) := by
  simp [compareETAs, nodeEta, hv]

section Search

variable (d c)

/-- The nodes of `ns` hold non-empty slices and ascend strictly by ETA. -/
def SortedGroups (ns : List Nat) : Prop :=
  (∀ n ∈ ns, ∃ h t, d.surbETAs.value n = .surbCtxs (h :: t)) ∧
    ns.Pairwise fun m n => d.nodeEta m < d.nodeEta n

variable {d c}

lemma SortedGroups.tail {n : Nat} {ns : List Nat} (h : SortedGroups d (n :: ns)) :
    SortedGroups d ns :=
  ⟨fun m hm => h.1 m (List.mem_cons_of_mem n hm), (List.pairwise_cons.1 h.2).2⟩

lemma RepInv.sortedGroups (hd : d.RepInv) : SortedGroups d d.surbETAs.nodes :=
  ⟨fun _ hn => hd.value_cons hn, hd.sorted⟩

/-- The search finds the node that has `c`'s ETA. -/
lemma insertAt_of_nodeEta_eq {n0 : Nat} :
    ∀ {ns : List Nat}, SortedGroups d ns → n0 ∈ ns → d.nodeEta n0 = (d.ctx c).eta →
      Tree.insertAt (compareETAs d.ctx) d.surbETAs.value (.surbCtxs [c]) ns = .ok (.inl n0)
  | [], _, hn0, _ => absurd hn0 (List.not_mem_nil _)
  | n :: ns, hs, hn0, he => by
    obtain ⟨h, t, hv⟩ := hs.1 n (List.mem_cons_self n ns)
    rw [Tree.insertAt, compareETAs_node hv]
    rcases List.mem_cons.1 hn0 with rfl | hn0
    · simp [he]
    · have hlt : d.nodeEta n < (d.ctx c).eta := he ▸ List.rel_of_pairwise_cons hs.2 hn0
      simp [not_lt.2 hlt.le, hlt, insertAt_of_nodeEta_eq hs.tail hn0 he]

/-- Where no node has `c`'s ETA, the search stops after the nodes with a smaller ETA, and these
are the nodes before the first one with a larger ETA. -/
lemma insertAt_of_forall_ne :
    ∀ {ns : List Nat}, SortedGroups d ns → (∀ n ∈ ns, d.nodeEta n ≠ (d.ctx c).eta) →
      ∃ k, Tree.insertAt (compareETAs d.ctx) d.surbETAs.value (.surbCtxs [c]) ns =
          .ok (.inr k) ∧
        ns.take k = ns.filter (fun n => d.nodeEta n < (d.ctx c).eta) ∧
        ns.drop k = ns.filter (fun n => (d.ctx c).eta < d.nodeEta n)
  | [], _, _ => ⟨0, rfl, rfl, rfl⟩
  | n :: ns, hs, hne => by
    obtain ⟨h, t, hv⟩ := hs.1 n (List.mem_cons_self n ns)
    rw [Tree.insertAt, compareETAs_node hv]
    rcases lt_or_gt_of_ne (hne n (List.mem_cons_self n ns)) with hlt | hgt
    · obtain ⟨k, hk, htake, hdrop⟩ :=
        insertAt_of_forall_ne hs.tail fun m hm => hne m (List.mem_cons_of_mem n hm)
      refine ⟨k + 1, by simp [not_lt.2 hlt.le, hlt, hk], ?_, ?_⟩
      · simp [htake, hlt]
      · simp [hdrop, not_lt.2 hlt.le]
    · have hall : ∀ m ∈ ns, (d.ctx c).eta < d.nodeEta m :=
        fun m hm => hgt.trans (List.rel_of_pairwise_cons hs.2 hm)
      refine ⟨0, by simp [hgt], ?_, ?_⟩
      · simpa [not_lt.2 hgt.le] using fun m hm => (hall m hm).le
      · simpa [hgt] using (List.filter_eq_self.2 fun m hm => by simpa using hall m hm).symm

end Search

/-! ### The two outcomes -/

/-- Storing `c` when node `n0` has its ETA appends `c` to the slice of `n0`. -/
lemma storeSURBCtx_of_mem (hd : d.RepInv) (hc : c ∉ d.held) {n0 : Nat}
    (hn0 : n0 ∈ d.surbETAs.nodes) (he : d.nodeEta n0 = (d.ctx c).eta) :
    d.storeSURBCtx c = .ok (((d.setEtaNode c (some n0)).setTree
      (d.surbETAs.setValue n0 (.surbCtxs ((d.surbETAs.value n0).members ++ [c])))).setStore
        (d.ctx c).id (some c)) := by
  obtain ⟨h, t, hv⟩ := hd.value_cons hn0
  have hh : h ≠ c := fun e => hc (mem_held.2 ⟨n0, hn0, by simp [hv, e]⟩)
  simp [storeSURBCtx, Tree.insert, insertAt_of_nodeEta_eq hd.sortedGroups hn0 he, hv, hh,
    setTree_self]

/-- Storing `c` when no node has its ETA adds the node `[c]` after the nodes with a smaller
ETA. -/
lemma storeSURBCtx_of_not_mem (hd : d.RepInv)
    (hne : ∀ n ∈ d.surbETAs.nodes, d.nodeEta n ≠ (d.ctx c).eta) :
    ∃ k, d.surbETAs.nodes.take k = d.surbETAs.nodes.filter (fun n => d.nodeEta n < (d.ctx c).eta) ∧
      d.surbETAs.nodes.drop k = d.surbETAs.nodes.filter (fun n => (d.ctx c).eta < d.nodeEta n) ∧
      d.storeSURBCtx c = .ok (((d.setTree (d.surbETAs.addNode k (.surbCtxs [c]))).setEtaNode c
        (some d.surbETAs.count)).setStore (d.ctx c).id (some c)) := by
  obtain ⟨k, hk, htake, hdrop⟩ := insertAt_of_forall_ne hd.sortedGroups hne
  exact ⟨k, htake, hdrop, by simp [storeSURBCtx, Tree.insert, hk]⟩

/-- Whatever the state, a `storeSURBCtx` that returns maps the context's id to it, leaves every
other key as it was, and keeps the decoy's fixed fields. -/
lemma storeSURBCtx_frame {d' : Decoy τ} (h : d.storeSURBCtx c = .ok d') :
    d'.surbStore = Function.update d.surbStore (d.ctx c).id (some c) ∧
      d'.recipient = d.recipient ∧ d'.surbIDBase = d.surbIDBase := by
  simp only [storeSURBCtx] at h
  obtain ⟨⟨n, t⟩, -, h⟩ := bind_eq_ok h
  obtain ⟨nl, -, h⟩ := bind_eq_ok h
  obtain ⟨first, -, h⟩ := bind_eq_ok h
  cases h
  split_ifs <;> simp

/-- **`storeSURBCtx` on a well-formed state.** For a context `c` held by no node,
`storeSURBCtx c` succeeds; afterwards `surbStore` maps `c.id` to `c` and is otherwise unchanged;
if a node had `c`'s ETA, `c` is appended to its slice and no node is added, otherwise exactly one
new node, holding `[c]`, stands between the nodes of smaller and those of larger ETA; every other
node and slice is unchanged, and `c.etaNode` is the node that holds `c`.

**Proof sketch.** Since the nodes ascend strictly, at most one has `c`'s ETA and the search of
`Insert` finds it (`storeSURBCtx_of_mem`); otherwise it stops at the position of the ETA
(`storeSURBCtx_of_not_mem`). The first context of a found node is held, so differs from `c`. -/
theorem storeSURBCtx_spec (hd : d.RepInv) (hc : c ∉ d.held) :
    ∃ d', d.storeSURBCtx c = .ok d' ∧
      d'.surbStore = Function.update d.surbStore (d.ctx c).id (some c) ∧
      d'.ctx = d.ctx ∧ (∀ c', c' ≠ c → d'.etaNode c' = d.etaNode c') ∧
      (∀ n0 ∈ d.surbETAs.nodes, d.nodeEta n0 = (d.ctx c).eta →
        d'.surbETAs.nodes = d.surbETAs.nodes ∧
        d'.surbETAs.value n0 = .surbCtxs ((d.surbETAs.value n0).members ++ [c]) ∧
        (∀ n ∈ d.surbETAs.nodes, n ≠ n0 → d'.surbETAs.value n = d.surbETAs.value n) ∧
        d'.etaNode c = some n0) ∧
      ((∀ n ∈ d.surbETAs.nodes, d.nodeEta n ≠ (d.ctx c).eta) → ∃ n', n' ∉ d.surbETAs.nodes ∧
        d'.surbETAs.nodes = d.surbETAs.nodes.filter (fun n => d.nodeEta n < (d.ctx c).eta) ++
          n' :: d.surbETAs.nodes.filter (fun n => (d.ctx c).eta < d.nodeEta n) ∧
        d'.surbETAs.value n' = .surbCtxs [c] ∧
        (∀ n ∈ d.surbETAs.nodes, d'.surbETAs.value n = d.surbETAs.value n) ∧
        d'.etaNode c = some n') := by
  by_cases hex : ∃ n0 ∈ d.surbETAs.nodes, d.nodeEta n0 = (d.ctx c).eta
  · obtain ⟨n0, hn0, he⟩ := hex
    refine ⟨_, storeSURBCtx_of_mem hd hc hn0 he, by simp, rfl,
      fun c' hc' => by simp [Function.update_noteq hc'], ?_, ?_⟩
    · intro n1 hn1 he1
      obtain rfl : n1 = n0 := hd.eq_of_nodeEta_eq hn1 hn0 (he1.trans he.symm)
      exact ⟨rfl, by simp, fun n _ hn => by simp [Function.update_noteq hn], by simp⟩
    · exact fun hne => absurd he (hne n0 hn0)
  · push_neg at hex
    obtain ⟨k, htake, hdrop, hstore⟩ := storeSURBCtx_of_not_mem hd hex
    refine ⟨_, hstore, by simp, rfl, fun c' hc' => by simp [Function.update_noteq hc'],
      fun n0 hn0 he => absurd he (hex n0 hn0),
      fun _ => ⟨_, d.surbETAs.count_not_mem, ?_, ?_, ?_, ?_⟩⟩
    · simp [← htake, ← hdrop]
    · simp
    · exact fun n hn => by
        simp [Function.update_noteq (ne_of_mem_of_not_mem hn d.surbETAs.count_not_mem)]
    · simp

/-- Storing the first context allocated after `New`: it gets a node of its own. -/
theorem storeSURBCtx_spec_first :
    ((new 0 [] : Decoy ℤ).alloc ⟨7, 5, []⟩).2.RepInv ∧
    0 ∉ ((new 0 [] : Decoy ℤ).alloc ⟨7, 5, []⟩).2.held ∧
    ∃ d', ((new 0 [] : Decoy ℤ).alloc ⟨7, 5, []⟩).2.storeSURBCtx 0 = .ok d' ∧
      d'.surbStore 7 = some 0 ∧ d'.etaNode 0 = some 0 := by
  have hd := ((inv_new 0 [] : (new 0 [] : Decoy ℤ).Inv).alloc ⟨7, 5, []⟩).toRepInv
  obtain ⟨d', h, -⟩ := storeSURBCtx_spec hd (c := 0) (by decide)
  cases h.symm.trans (rfl : _ = Except.ok _)
  exact ⟨hd, by decide, _, rfl, by decide, by decide⟩

end Decoy

end MesonDecoy

namespace MesonDecoy

namespace Decoy

variable {τ : Type} {d : Decoy τ} {c : Nat}

/-! ### `Inv` after storing -/

/-- The contexts held after node `a`'s slice becomes `ys`: `ys` and those of the other nodes. -/
lemma perm_flatMap_update (f : Nat → List Nat) {a : Nat} (ys : List Nat) {l1 l2 : List Nat}
    (h1 : a ∉ l1) (h2 : a ∉ l2) :
    ((l1 ++ a :: l2).flatMap (Function.update f a ys)).Perm (ys ++ (l1 ++ l2).flatMap f) := by
  have e1 : l1.flatMap (Function.update f a ys) = l1.flatMap f :=
    List.flatMap_congr fun n hn => Function.update_noteq (ne_of_mem_of_not_mem hn h1) _ _
  have e2 : l2.flatMap (Function.update f a ys) = l2.flatMap f :=
    List.flatMap_congr fun n hn => Function.update_noteq (ne_of_mem_of_not_mem hn h2) _ _
  simp only [List.flatMap_append, List.flatMap_cons, Function.update_same, e1, e2]
  simpa [List.append_assoc] using
    (@List.perm_append_comm _ (l1.flatMap f) ys).append_right _

lemma members_comp_update (value : Nat → Value) (n : Nat) (v : Value) :
    (fun m => (Function.update value n v m).members) =
      Function.update (fun m => (value m).members) n v.members :=
  Function.comp_update value n v (f := Value.members)

/-- Inserting the node `[c]` between the nodes of smaller and of larger ETA: the tree holds `c`
and the contexts held before. -/
lemma held_addNode_perm {k : Nat}
    (htake : ∀ n ∈ d.surbETAs.nodes.take k, n ∈ d.surbETAs.nodes)
    (hdrop : ∀ n ∈ d.surbETAs.nodes.drop k, n ∈ d.surbETAs.nodes) :
    (d.setTree (d.surbETAs.addNode k (.surbCtxs [c]))).held.Perm (c :: d.held) := by
  have hf := d.surbETAs.count_not_mem
  have hperm := perm_flatMap_update (fun m => (d.surbETAs.value m).members) [c]
    (fun h => hf (htake _ h)) (fun h => hf (hdrop _ h))
  rw [List.take_append_drop] at hperm
  simpa [held, members_comp_update] using hperm

variable [LinearOrder τ]


/-- Adding a context `c`, held by no node, under an id that is not yet a key keeps `Inv`, given
that the tree after is well formed and holds exactly `c` and the contexts held before. -/
lemma Inv.of_add {d' : Decoy τ} (hd : d.Inv) (hc : c ∉ d.held)
    (hid : d.surbStore (d.ctx c).id = none) (hctx : d'.ctx = d.ctx)
    (hperm : d'.held.Perm (c :: d.held))
    (hstore : d'.surbStore = Function.update d.surbStore (d.ctx c).id (some c))
    (hcount : d.ctxCount ≤ d'.ctxCount) (hclt : c < d'.ctxCount)
    (group : ∀ n ∈ d'.surbETAs.nodes, ∃ cs, d'.surbETAs.value n = .surbCtxs cs ∧ cs ≠ [] ∧
      ∀ c ∈ cs, (d'.ctx c).eta = d'.nodeEta n)
    (sorted : d'.surbETAs.nodes.Pairwise fun m n => d'.nodeEta m < d'.nodeEta n)
    (etaNode : ∀ n ∈ d'.surbETAs.nodes, ∀ c ∈ (d'.surbETAs.value n).members,
      d'.etaNode c = some n) : d'.Inv := by
  have hmem : ∀ c', c' ∈ d'.held ↔ c' = c ∨ c' ∈ d.held := fun c' => by simp [hperm.mem_iff]
  have hne : ∀ c' ∈ d.held, (d.ctx c').id ≠ (d.ctx c).id := fun c' hc' he => by
    simp [← he, hd.store_id c' hc'] at hid
  have hsid : ∀ c', c' ∈ d'.held → d'.surbStore (d.ctx c').id = some c' := fun c' hc' => by
    rcases (hmem c').1 hc' with rfl | h
    · simp [hstore]
    · rw [hstore, Function.update_noteq (hne c' h), hd.store_id c' h]
  refine ⟨⟨⟨group, sorted, hperm.nodup_iff.2 (List.nodup_cons.2 ⟨hc, hd.nodup⟩), fun c' => ?_,
    fun c' hc' => hctx ▸ hsid c' hc', etaNode⟩, fun k c' hk => ?_⟩, fun c' hc' => ?_⟩
  · refine ⟨fun h => ⟨_, hsid c' h⟩, fun ⟨k, hk⟩ => (hmem c').2 ?_⟩
    rw [hstore] at hk
    by_cases hkc : k = (d.ctx c).id
    · subst hkc
      exact Or.inl (by simpa using hk.symm)
    · rw [Function.update_noteq hkc] at hk
      exact Or.inr ((hd.held_iff c').2 ⟨k, hk⟩)
  · rw [hstore] at hk
    rw [hctx]
    by_cases hkc : k = (d.ctx c).id
    · subst hkc
      obtain rfl : c = c' := by simpa using hk
      rfl
    · rw [Function.update_noteq hkc] at hk
      exact hd.key_id k c' hk
  · rcases (hmem c').1 hc' with rfl | h
    · exact hclt
    · exact lt_of_lt_of_le (hd.held_lt c' h) hcount

/-- Appending `c` to the slice of a node: the tree holds `c` and the contexts held before. -/
lemma RepInv.held_append_perm (hd : d.RepInv) {n0 : Nat} (hn0 : n0 ∈ d.surbETAs.nodes) :
    (d.setTree (d.surbETAs.setValue n0
      (.surbCtxs ((d.surbETAs.value n0).members ++ [c])))).held.Perm (c :: d.held) := by
  obtain ⟨l1, l2, hsplit⟩ := List.append_of_mem hn0
  have hnd := hd.nodes_nodup
  rw [hsplit, List.nodup_append, List.nodup_cons] at hnd
  have h1 : n0 ∉ l1 := fun hm => hnd.2.2 hm (List.mem_cons_self _ _)
  have hperm := perm_flatMap_update (fun m => (d.surbETAs.value m).members)
    ((d.surbETAs.value n0).members ++ [c]) h1 hnd.2.1.1
  have hold := perm_flatMap_update (fun m => (d.surbETAs.value m).members)
    (d.surbETAs.value n0).members h1 hnd.2.1.1
  rw [Function.update_eq_self] at hold
  simp only [held, setTree_surbETAs, Tree.setValue_nodes, Tree.setValue_value, members_comp_update,
    Value.members_surbCtxs]
  rw [hsplit]
  refine hperm.trans ?_
  simpa using (List.perm_middle.trans (List.Perm.cons c hold.symm))

/-- Appending `c` to the node of its ETA keeps `Inv`. -/
lemma Inv.append_of_mem (hd : d.Inv) (hc : c ∉ d.held) (hid : d.surbStore (d.ctx c).id = none)
    (hclt : c < d.ctxCount) {n0 : Nat} (hn0 : n0 ∈ d.surbETAs.nodes)
    (he : d.nodeEta n0 = (d.ctx c).eta) :
    (((d.setEtaNode c (some n0)).setTree (d.surbETAs.setValue n0
      (.surbCtxs ((d.surbETAs.value n0).members ++ [c])))).setStore (d.ctx c).id (some c)).Inv := by
  set d' := ((d.setEtaNode c (some n0)).setTree (d.surbETAs.setValue n0
    (.surbCtxs ((d.surbETAs.value n0).members ++ [c])))).setStore (d.ctx c).id (some c) with hd'
  obtain ⟨h, t, hv⟩ := hd.value_cons hn0
  have hne : ∀ n ∈ d.surbETAs.nodes, ∀ c' ∈ (d.surbETAs.value n).members, c' ≠ c :=
    fun n hn c' hc' e => hc (e ▸ mem_held.2 ⟨n, hn, hc'⟩)
  have heta : ∀ n, d'.nodeEta n = d.nodeEta n := by
    intro n
    by_cases hn : n = n0
    · subst hn; simp [hd', nodeEta, hv]
    · simp [hd', nodeEta, Function.update_noteq hn]
  refine Inv.of_add hd hc hid rfl (hd.held_append_perm hn0) (by simp [hd']) le_rfl hclt ?_ ?_ ?_
  · intro n hn
    by_cases hnn : n = n0
    · subst hnn
      refine ⟨(d.surbETAs.value n).members ++ [c], by simp [hd'], by simp, fun c' hc' => ?_⟩
      rw [heta]
      rcases List.mem_append.1 hc' with hc' | hc'
      · exact hd.eta_eq hn hc'
      · rw [List.mem_singleton.1 hc', he]; rfl
    · obtain ⟨cs, hcs, hcs0, hall⟩ := hd.group n hn
      exact ⟨cs, by simp [hd', Function.update_noteq hnn, hcs], hcs0, fun c' hc' => by
        simpa [heta] using hall c' hc'⟩
  · simpa [heta] using hd.sorted
  · intro n hn c' hc'
    by_cases hnn : n = n0
    · subst hnn
      simp only [hd', setStore_surbETAs, setTree_surbETAs, Tree.setValue_value,
        Function.update_same, Value.members_surbCtxs, List.mem_append, List.mem_singleton] at hc'
      rcases hc' with hc' | rfl
      · simp [hd', Function.update_noteq (hne n hn c' hc'), hd.etaNode n hn c' hc']
      · simp [hd']
    · simp only [hd', setStore_surbETAs, setTree_surbETAs, Tree.setValue_value,
        Function.update_noteq hnn] at hc'
      simp [hd', Function.update_noteq (hne n hn c' hc'), hd.etaNode n hn c' hc']

/-- Adding the node `[c]` at the position of `c`'s ETA keeps `Inv`. -/
lemma Inv.addNode_of_forall_ne (hd : d.Inv) (hc : c ∉ d.held)
    (hid : d.surbStore (d.ctx c).id = none) (hclt : c < d.ctxCount) {k : Nat}
    (htake : d.surbETAs.nodes.take k =
      d.surbETAs.nodes.filter (fun n => d.nodeEta n < (d.ctx c).eta))
    (hdrop : d.surbETAs.nodes.drop k =
      d.surbETAs.nodes.filter (fun n => (d.ctx c).eta < d.nodeEta n)) :
    (((d.setTree (d.surbETAs.addNode k (.surbCtxs [c]))).setEtaNode c
      (some d.surbETAs.count)).setStore (d.ctx c).id (some c)).Inv := by
  set d' := ((d.setTree (d.surbETAs.addNode k (.surbCtxs [c]))).setEtaNode c
    (some d.surbETAs.count)).setStore (d.ctx c).id (some c) with hd'
  have hf := d.surbETAs.count_not_mem
  have hfn : ∀ n ∈ d.surbETAs.nodes, n ≠ d.surbETAs.count := fun n hn => ne_of_mem_of_not_mem hn hf
  have hval : ∀ n ∈ d.surbETAs.nodes, d'.surbETAs.value n = d.surbETAs.value n :=
    fun n hn => by simp [hd', Function.update_noteq (hfn n hn)]
  have heta : ∀ n ∈ d.surbETAs.nodes, d'.nodeEta n = d.nodeEta n :=
    fun n hn => by simp only [nodeEta, hval n hn]; rfl
  have hetaf : d'.nodeEta d.surbETAs.count = (d.ctx c).eta := by simp [hd', nodeEta]
  have htk : ∀ n ∈ d.surbETAs.nodes.take k, n ∈ d.surbETAs.nodes ∧ d.nodeEta n < (d.ctx c).eta :=
    fun n hn => by rw [htake] at hn; simpa using hn
  have hdk : ∀ n ∈ d.surbETAs.nodes.drop k, n ∈ d.surbETAs.nodes ∧ (d.ctx c).eta < d.nodeEta n :=
    fun n hn => by rw [hdrop] at hn; simpa using hn
  have hnodes : ∀ n ∈ d'.surbETAs.nodes, n = d.surbETAs.count ∨ n ∈ d.surbETAs.nodes := by
    intro n hn
    simp only [hd', setStore_surbETAs, setEtaNode_surbETAs, setTree_surbETAs, Tree.addNode_nodes,
      List.mem_append, List.mem_cons] at hn
    rcases hn with hn | hn | hn
    exacts [Or.inr (htk n hn).1, Or.inl hn, Or.inr (hdk n hn).1]
  refine Inv.of_add hd hc hid rfl (held_addNode_perm (fun n hn => (htk n hn).1)
    (fun n hn => (hdk n hn).1)) (by simp [hd']) le_rfl hclt ?_ ?_ ?_
  · intro n hn
    rcases hnodes n hn with rfl | hn
    · exact ⟨[c], by simp [hd'], by simp, fun c' hc' => by
        rw [List.mem_singleton.1 hc', hetaf]; rfl⟩
    · obtain ⟨cs, hcs, hcs0, hall⟩ := hd.group n hn
      exact ⟨cs, (hval n hn).trans hcs, hcs0, fun c' hc' => (hall c' hc').trans (heta n hn).symm⟩
  · have hR : ∀ l : List Nat, l.Sublist d.surbETAs.nodes →
        l.Pairwise (fun m n => d'.nodeEta m < d'.nodeEta n) :=
      fun l hl => (hd.sorted.sublist hl).imp_of_mem fun ha hb h => by
        rwa [heta _ (hl.subset ha), heta _ (hl.subset hb)]
    simp only [hd', setStore_surbETAs, setEtaNode_surbETAs, setTree_surbETAs, Tree.addNode_nodes]
    refine List.pairwise_append.2 ⟨hR _ (List.take_sublist _ _),
      List.pairwise_cons.2 ⟨fun b hb => ?_, hR _ (List.drop_sublist _ _)⟩, fun a ha b hb => ?_⟩
    · rw [hetaf, heta b (hdk b hb).1]
      exact (hdk b hb).2
    · rw [heta a (htk a ha).1]
      rcases List.mem_cons.1 hb with rfl | hb
      · rw [hetaf]; exact (htk a ha).2
      · rw [heta b (hdk b hb).1]; exact (htk a ha).2.trans (hdk b hb).2
  · intro n hn c' hc'
    rcases hnodes n hn with rfl | hn
    · simp [hd'] at hc'
      simp [hd', hc']
    · rw [hval n hn] at hc'
      have hne : c' ≠ c := fun e => hc (e ▸ mem_held.2 ⟨n, hn, hc'⟩)
      simp [hd', Function.update_noteq hne, hd.etaNode n hn c' hc']

/-- Storing a context held by no node, allocated, under an id that is not a key succeeds and
keeps `Inv`. -/
lemma Inv.storeSURBCtx (hd : d.Inv) (hc : c ∉ d.held) (hid : d.surbStore (d.ctx c).id = none)
    (hclt : c < d.ctxCount) : ∃ d', d.storeSURBCtx c = .ok d' ∧ d'.Inv := by
  by_cases hex : ∃ n0 ∈ d.surbETAs.nodes, d.nodeEta n0 = (d.ctx c).eta
  · obtain ⟨n0, hn0, he⟩ := hex
    exact ⟨_, storeSURBCtx_of_mem hd.toRepInv hc hn0 he, hd.append_of_mem hc hid hclt hn0 he⟩
  · push_neg at hex
    obtain ⟨k, htake, hdrop, h⟩ := storeSURBCtx_of_not_mem hd.toRepInv hex
    exact ⟨_, h, hd.addNode_of_forall_ne hc hid hclt htake hdrop⟩

/-- Storing a context held by no node succeeds; afterwards `surbStore` maps its id to it, the
contexts and the decoy's fixed fields are as before, and the tree holds it and every context held
before. -/
lemma RepInv.storeSURBCtx_ok (hd : d.RepInv) (hc : c ∉ d.held) :
    ∃ d', d.storeSURBCtx c = .ok d' ∧
      d'.surbStore = Function.update d.surbStore (d.ctx c).id (some c) ∧ d'.ctx = d.ctx ∧
      d'.ctxCount = d.ctxCount ∧ d'.surbIDBase = d.surbIDBase ∧ d'.recipient = d.recipient ∧
      d'.held.Perm (c :: d.held) := by
  by_cases hex : ∃ n0 ∈ d.surbETAs.nodes, d.nodeEta n0 = (d.ctx c).eta
  · obtain ⟨n0, hn0, he⟩ := hex
    exact ⟨_, storeSURBCtx_of_mem hd hc hn0 he, by simp, rfl, rfl, rfl, rfl,
      hd.held_append_perm hn0⟩
  · push_neg at hex
    obtain ⟨k, -, -, hs⟩ := storeSURBCtx_of_not_mem hd hex
    exact ⟨_, hs, by simp, rfl, rfl, rfl, rfl,
      held_addNode_perm (fun _ => List.mem_of_mem_take) (fun _ => List.mem_of_mem_drop)⟩

/-- Allocating a context and storing it under an id that is not a key succeeds and keeps
`Inv`. -/
lemma Inv.alloc_storeSURBCtx (hd : d.Inv) (x : SurbCtx τ) (hid : d.surbStore x.id = none) :
    ∃ d', (d.alloc x).2.storeSURBCtx (d.alloc x).1 = .ok d' ∧ d'.Inv :=
  (hd.alloc x).storeSURBCtx (fun h => Nat.lt_irrefl _ (hd.held_lt _ h)) (by simpa using hid)
    (Nat.lt_succ_self _)

end Decoy

end MesonDecoy
