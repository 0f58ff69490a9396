import MesonDecoy.Retire

set_option autoImplicit false

/-!
# `sweepSURBCtxs`

The sweep walks the nodes of `surbETAs` forward, removing each node whose first context has
`eta + slack ≤ now` together with the ids of its contexts, and stops at the first node whose
deadline is later. Whatever the arithmetic of `time.Duration`, it removes a prefix of the nodes
(`sweepSURBCtxs_eq_dropFirst`), which keeps `Inv`. When `· + slack` is monotone, as it is on
exact integers, the prefix is exactly the set of nodes whose deadline has passed, because the
nodes ascend by ETA: the early exit gives the same state as filtering every node
(`sweepSURBCtxs_eq_sweepSpec`).

## Main definitions

* `MesonDecoy.Decoy.dropFirst` — the state without its first `k` nodes and their ids.
* `MesonDecoy.Decoy.sweepSpec` — the sweep as filtering every node.

## Main results

* `MesonDecoy.Decoy.sweepSURBCtxs_eq_dropFirst` — what the loop does.
* `MesonDecoy.Decoy.Inv.sweepSURBCtxs` — the sweep succeeds and keeps `Inv`.
* `MesonDecoy.Decoy.Inv.sweepSURBCtxs_held` — whatever the arithmetic, it keeps every held
  context whose deadline is after `now`.
* `MesonDecoy.Decoy.sweepSURBCtxs_eq_sweepSpec` — on exact integers the sweep is `sweepSpec`,
  and a second sweep no later removes nothing.
* `MesonDecoy.Decoy.Inv.sweepSURBCtxs_live` — where `a ↦ a + slack` is monotone, the sweep
  leaves no context past its deadline.
-/

namespace MesonDecoy

namespace Tree

/-- The tree without its first `k` nodes. -/
def drop (t : Tree) (k : Nat) : Tree :=
  ⟨t.nodes.drop k, t.value, t.count, fun n hn => t.nodes_lt n (List.mem_of_mem_drop hn)⟩

/-- The tree with only the nodes satisfying `p`. -/
def filter (t : Tree) (p : Nat → Bool) : Tree :=
  ⟨t.nodes.filter p, t.value, t.count, fun n hn => t.nodes_lt n (List.mem_of_mem_filter hn)⟩

end Tree

namespace Decoy

variable {τ : Type}

/-- `surbStore` without the ids of the contexts `cs`. -/
def deleteIds (d : Decoy τ) (cs : List Nat) : UInt64 → Option Nat :=
  fun k => if ∃ c ∈ cs, (d.ctx c).id = k then none else d.surbStore k

/-- The state without its first `k` nodes and without the ids of the contexts they hold. -/
def dropFirst (d : Decoy τ) (k : Nat) : Decoy τ :=
  { d with surbETAs := d.surbETAs.drop k,
           surbStore := d.deleteIds ((d.surbETAs.nodes.take k).flatMap
             fun n => (d.surbETAs.value n).members) }

@[simp] lemma setTree_deleteIds (d : Decoy τ) (t : Tree) :
    (d.setTree t).deleteIds = d.deleteIds :=
  rfl

lemma deleteIds_nil (d : Decoy τ) : d.deleteIds [] = d.surbStore := by
  funext k
  simp [deleteIds]

lemma deleteIds_cons (d : Decoy τ) (c : Nat) (cs : List Nat) :
    d.deleteIds (c :: cs) = (d.setStore (d.ctx c).id none).deleteIds cs := by
  funext k
  by_cases hk : (d.ctx c).id = k
  · simp [deleteIds, hk]
  · simp [deleteIds, hk, Function.update_noteq (Ne.symm hk)]

lemma deleteIds_append (d : Decoy τ) (cs cs' : List Nat) :
    d.deleteIds (cs ++ cs') = ({ d with surbStore := d.deleteIds cs } : Decoy τ).deleteIds cs' := by
  funext k
  simp only [deleteIds, List.mem_append, or_and_right, exists_or]
  split_ifs <;> simp_all

/-- `for _, ctx := range surbCtxs { delete(d.surbStore, ctx.id) }`. -/
lemma foldl_delete (cs : List Nat) (d : Decoy τ) :
    cs.foldl (fun d c => d.setStore (d.ctx c).id none) d =
      { d with surbStore := d.deleteIds cs } := by
  induction cs generalizing d with
  | nil => rw [deleteIds_nil]; rfl
  | cons c cs ih => rw [List.foldl_cons, ih, deleteIds_cons]; rfl

lemma dropFirst_zero (d : Decoy τ) : d.dropFirst 0 = d := by
  simp only [dropFirst, List.take_zero, List.flatMap_nil, deleteIds_nil]
  rfl

/-- Removing the first `k` nodes with the ids of their contexts keeps `Inv`. -/
lemma Inv.dropFirst [LinearOrder τ] {d : Decoy τ} (hd : d.Inv) (k : Nat) :
    (d.dropFirst k).Inv := by
  have hsplit : d.held =
      (d.surbETAs.nodes.take k).flatMap (fun n => (d.surbETAs.value n).members) ++
      (d.surbETAs.nodes.drop k).flatMap fun n => (d.surbETAs.value n).members := by
    rw [held, ← List.flatMap_append, List.take_append_drop]
  have hdisj := (List.nodup_append.1 (hsplit ▸ hd.nodup)).2.2
  refine Inv.of_keyInv hd (KeyInv.of_remove hd.toKeyInv rfl (List.drop_sublist _ _)
    (fun _ _ => rfl) (fun _ _ => rfl) (fun key c hkey => ?_) (fun c hc => ?_)) rfl
    (held_subset (List.drop_sublist _ _) fun _ _ => rfl)
  · change d.deleteIds _ key = some c at hkey
    simp only [deleteIds] at hkey
    split_ifs at hkey with hgone
    refine ⟨hkey, ?_⟩
    have hc : c ∈ d.held := (hd.held_iff c).2 ⟨key, hkey⟩
    rw [hsplit, List.mem_append] at hc
    exact hc.resolve_left fun hc => hgone ⟨c, hc, hd.key_id key c hkey⟩
  · change d.deleteIds _ (d.ctx c).id = _
    simp only [deleteIds]
    rw [if_neg]
    rintro ⟨c', hc', he⟩
    have hc'held : c' ∈ d.held := hsplit ▸ List.mem_append_left _ hc'
    have hcheld : c ∈ d.held := hsplit ▸ List.mem_append_right _ hc
    have : c' = c :=
      Option.some.inj ((hd.store_id c' hc'held).symm.trans (he ▸ hd.store_id c hcheld))
    exact hdisj hc' (this ▸ hc)

section Loop

variable [LinearOrder τ] [Add τ] (now slack : τ)

/-- **The sweep loop** removes the first `k` nodes, where `k` is the position of the first node
whose deadline is after `now`, provided every node holds a non-empty slice.

**Proof sketch.** Induction on the nodes left. The first node stops the loop, giving `k = 0`, or
is removed with the ids of its contexts, and the rest of the loop runs on the tree that is left,
with the same values and contexts. -/
theorem sweepNodes_eq : ∀ (ns : List Nat) (d : Decoy τ) (swept : Nat), d.surbETAs.nodes = ns →
    (∀ n ∈ ns, ∃ h t, d.surbETAs.value n = .surbCtxs (h :: t)) →
    ∃ k, (∀ n ∈ ns.take k, ¬ now < d.nodeEta n + slack) ∧
      (∀ n ∈ (ns.drop k).head?, now < d.nodeEta n + slack) ∧
      sweepNodes now slack ns d swept = .ok (d.dropFirst k,
        swept + ((ns.take k).flatMap fun n => (d.surbETAs.value n).members).length)
  | [], d, swept, _, _ => ⟨0, by simp, by simp, by simp [sweepNodes, dropFirst_zero]⟩
  | n :: rest, d, swept, hns, hv => by
    obtain ⟨h, t, hvn⟩ := hv n (List.mem_cons_self n rest)
    have heta : (d.ctx h).eta = d.nodeEta n := by simp [nodeEta, hvn]
    by_cases hlive : now < d.nodeEta n + slack
    · exact ⟨0, by simp, by simpa using hlive, by
        simp [sweepNodes, hvn, heta, hlive, dropFirst_zero]⟩
    · set d1 := ({ d with surbStore := d.deleteIds (h :: t) } : Decoy τ).setTree
        (d.surbETAs.remove n) with hd1
      have h1 : d1.surbETAs.nodes = rest := by simp [hd1, hns]
      have hval : d1.surbETAs.value = d.surbETAs.value := rfl
      have hnodeEta : d1.nodeEta = d.nodeEta := rfl
      obtain ⟨k, htake, hdrop, hloop⟩ := sweepNodes_eq rest d1 (swept + (h :: t).length) h1
        (fun m hm => hval ▸ hv m (List.mem_cons_of_mem n hm))
      refine ⟨k + 1, ?_, by simpa [hnodeEta] using hdrop, ?_⟩
      · intro m hm
        rcases List.mem_cons.1 (by simpa using hm) with rfl | hm
        · exact hlive
        · exact hnodeEta ▸ htake m hm
      · simp only [sweepNodes, hvn, Value.assertSurbCtxs_surbCtxs, ok_bind, index_cons_zero,
          heta, hlive, if_false, foldl_delete]
        rw [← hd1, hloop]
        congr 2
        · simp only [dropFirst, hd1, setTree_surbETAs, setTree_ctx, hns, List.take_succ_cons,
            List.flatMap_cons, hval]
          rw [hvn, Value.members_surbCtxs, deleteIds_append]
          congr 1
          · exact Tree.ext (by simp [Tree.drop, hns]) rfl rfl
          · simp [hns]
        · simp [hvn, hval]
          omega

/-- Whatever the state, the loop of the sweep adds no key to `surbStore` and keeps the decoy's
fixed fields. -/
lemma sweepNodes_frame :
    ∀ (ns : List Nat) (d : Decoy τ) (swept : Nat) {r : Decoy τ × Nat},
      sweepNodes now slack ns d swept = .ok r →
      (∀ x, r.1.surbStore x ≠ none → d.surbStore x ≠ none) ∧ r.1.recipient = d.recipient ∧
        r.1.surbIDBase = d.surbIDBase
  | [], _, _, _, h => by
    cases h
    exact ⟨fun _ h => h, rfl, rfl⟩
  | node :: rest, d, swept, _, h => by
    simp only [sweepNodes] at h
    obtain ⟨cs, -, h⟩ := bind_eq_ok h
    obtain ⟨first, -, h⟩ := bind_eq_ok h
    split at h
    · cases h
      exact ⟨fun _ h => h, rfl, rfl⟩
    · rw [foldl_delete] at h
      obtain ⟨hkeys, hr, hb⟩ := sweepNodes_frame rest _ _ h
      refine ⟨fun x hx => ?_, hr, hb⟩
      have := hkeys x hx
      simp only [setTree_surbStore, deleteIds] at this
      split_ifs at this
      · exact absurd rfl this
      · exact this

/-- Whatever the state, a sweep that returns adds no key to `surbStore` and keeps the decoy's
fixed fields. -/
lemma sweepSURBCtxs_frame {d : Decoy τ} {r : Decoy τ × Nat}
    (h : d.sweepSURBCtxs now slack = .ok r) :
    (∀ x, r.1.surbStore x ≠ none → d.surbStore x ≠ none) ∧ r.1.recipient = d.recipient ∧
      r.1.surbIDBase = d.surbIDBase := by
  unfold sweepSURBCtxs at h
  split at h
  · cases h
    exact ⟨fun _ h => h, rfl, rfl⟩
  · exact sweepNodes_frame now slack _ d 0 h

/-- What `sweepSURBCtxs` does on a state whose nodes hold non-empty slices. -/
lemma sweepSURBCtxs_eq_dropFirst {d : Decoy τ}
    (hv : ∀ n ∈ d.surbETAs.nodes, ∃ h t, d.surbETAs.value n = .surbCtxs (h :: t)) :
    ∃ k, (∀ n ∈ d.surbETAs.nodes.take k, ¬ now < d.nodeEta n + slack) ∧
      (∀ n ∈ (d.surbETAs.nodes.drop k).head?, now < d.nodeEta n + slack) ∧
      d.sweepSURBCtxs now slack = .ok (d.dropFirst k,
        ((d.surbETAs.nodes.take k).flatMap fun n => (d.surbETAs.value n).members).length) := by
  obtain ⟨k, htake, hdrop, hloop⟩ := sweepNodes_eq now slack d.surbETAs.nodes d 0 rfl hv
  refine ⟨k, htake, hdrop, ?_⟩
  by_cases h0 : d.surbETAs.nodes.length = 0
  · have hnil := List.length_eq_zero.1 h0
    have hk : d.dropFirst k = d := calc
      d.dropFirst k = d.dropFirst 0 := by
        unfold dropFirst
        congr 1
        · exact Tree.ext (by simp [Tree.drop, hnil]) rfl rfl
        · simp [hnil]
      _ = d := dropFirst_zero d
    simp [sweepSURBCtxs, h0, hk, hnil]
  · simpa [sweepSURBCtxs, h0] using hloop

/-- The sweep succeeds and keeps `Inv`, whatever the arithmetic of `time.Duration`. -/
lemma Inv.sweepSURBCtxs {d : Decoy τ} (hd : d.Inv) :
    ∃ r, d.sweepSURBCtxs now slack = .ok r ∧ r.1.Inv := by
  obtain ⟨k, -, -, h⟩ := sweepSURBCtxs_eq_dropFirst now slack fun n hn => hd.value_cons hn
  exact ⟨_, h, hd.dropFirst k⟩

/-- Dropping a prefix of nodes whose first contexts have a deadline not after `now` keeps every
held context whose deadline is after `now`: the context's node holds it with the node's own
ETA, so that node is not in the prefix. -/
lemma Inv.mem_held_dropFirst {d : Decoy τ} (hd : d.Inv) {k : Nat}
    (htake : ∀ n ∈ d.surbETAs.nodes.take k, ¬ now < d.nodeEta n + slack) {p : Nat}
    (hp : p ∈ d.held) (hlive : now < (d.ctx p).eta + slack) : p ∈ (d.dropFirst k).held := by
  obtain ⟨m, hm, hpm⟩ := mem_held.1 hp
  rw [← List.take_append_drop k d.surbETAs.nodes, List.mem_append] at hm
  rcases hm with hm | hm
  · exact absurd (hd.eta_eq (List.mem_of_mem_take hm) hpm ▸ hlive) (htake m hm)
  · exact mem_held.2 ⟨m, hm, hpm⟩

/-- The sweep keeps every held context whose deadline `eta + slack` is after `now`. -/
lemma Inv.sweepSURBCtxs_held {d : Decoy τ} (hd : d.Inv) :
    ∃ r, d.sweepSURBCtxs now slack = .ok r ∧ r.1.Inv ∧
      ∀ p ∈ d.held, now < (d.ctx p).eta + slack → p ∈ r.1.held := by
  obtain ⟨k, htake, -, h⟩ := sweepSURBCtxs_eq_dropFirst now slack fun n hn => hd.value_cons hn
  exact ⟨_, h, hd.dropFirst k, fun _ hp => hd.mem_held_dropFirst now slack htake hp⟩

/-! ### The sweep as a filter -/

/-- **The sweep as specified**: every node whose deadline `eta + slack` is not after `now` is
dropped, with the ids of its contexts from `surbStore`, and the count is the number of those
contexts; every other node, slice and entry stays. -/
def sweepSpec (d : Decoy τ) : Decoy τ × Nat :=
  let gone := (d.surbETAs.nodes.filter fun n => ¬ now < d.nodeEta n + slack).flatMap
    fun n => (d.surbETAs.value n).members
  ({ d with surbETAs := d.surbETAs.filter fun n => now < d.nodeEta n + slack,
            surbStore := d.deleteIds gone }, gone.length)

/-- Where every deadline is after `now`, the specified sweep changes nothing. -/
lemma sweepSpec_of_forall_lt {d : Decoy τ}
    (h : ∀ n ∈ d.surbETAs.nodes, now < d.nodeEta n + slack) : d.sweepSpec now slack = (d, 0) := by
  have hf : (d.surbETAs.nodes.filter fun n => ¬ now < d.nodeEta n + slack) = [] :=
    List.filter_eq_nil_iff.2 fun n hn => by simpa using h n hn
  simp only [sweepSpec, hf, List.flatMap_nil, deleteIds_nil, List.length_nil]
  congr
  exact Tree.ext (List.filter_eq_self.2 fun n hn => by simpa using h n hn) rfl rfl

/-- With `· + slack` monotone, the prefix the loop removes is the set of nodes whose deadline
has passed: the sweep is `sweepSpec`.

**Proof sketch.** The nodes after the stopping node have a larger ETA, hence a later deadline,
so the nodes before it are exactly those whose deadline has passed. -/
lemma sweepSURBCtxs_eq_sweepSpec_of_monotone (hmono : Monotone fun a : τ => a + slack)
    {d : Decoy τ} (hs : SortedGroups d d.surbETAs.nodes) :
    d.sweepSURBCtxs now slack = .ok (d.sweepSpec now slack) := by
  obtain ⟨k, htake, hdrop, h⟩ := sweepSURBCtxs_eq_dropFirst now slack hs.1
  have hlive : ∀ n ∈ d.surbETAs.nodes.drop k, now < d.nodeEta n + slack := by
    have hsd := hs.2.sublist (List.drop_sublist k d.surbETAs.nodes)
    cases hd : d.surbETAs.nodes.drop k with
    | nil => simp
    | cons a rest =>
      rw [hd] at hsd hdrop
      have ha : now < d.nodeEta a + slack := hdrop a rfl
      intro n hn
      rcases List.mem_cons.1 hn with rfl | hn
      · exact ha
      · exact ha.trans_le (hmono (List.rel_of_pairwise_cons hsd hn).le)
  have hsplit := List.take_append_drop k d.surbETAs.nodes
  have hexp : (d.surbETAs.nodes.filter fun n => ¬ now < d.nodeEta n + slack) =
      d.surbETAs.nodes.take k := by
    conv_lhs => rw [← hsplit]
    rw [List.filter_append, List.filter_eq_self.2 fun n hn => by simpa using htake n hn,
      List.filter_eq_nil_iff.2 fun n hn => by simpa using hlive n hn, List.append_nil]
  have hkeep : (d.surbETAs.nodes.filter fun n => now < d.nodeEta n + slack) =
      d.surbETAs.nodes.drop k := by
    conv_lhs => rw [← hsplit]
    rw [List.filter_append, List.filter_eq_nil_iff.2 fun n hn => by simpa using htake n hn,
      List.filter_eq_self.2 fun n hn => by simpa using hlive n hn, List.nil_append]
  rw [h]
  simp only [sweepSpec, hexp, dropFirst]
  congr
  refine Tree.ext ?_ rfl rfl
  simpa [Tree.drop, Tree.filter] using hkeep.symm

/-- Where `a ↦ a + slack` is monotone, the sweep leaves only contexts whose deadline
`eta + slack` is after `now`. -/
lemma Inv.sweepSURBCtxs_live (hmono : Monotone fun a : τ => a + slack) {d : Decoy τ}
    (hd : d.Inv) :
    ∃ r, d.sweepSURBCtxs now slack = .ok r ∧ ∀ p ∈ r.1.held, now < (r.1.ctx p).eta + slack := by
  refine ⟨_, sweepSURBCtxs_eq_sweepSpec_of_monotone now slack hmono hd.sortedGroups,
    fun p hp => ?_⟩
  obtain ⟨n, hn, hpn⟩ := mem_held.1 hp
  obtain ⟨hn, hlt⟩ := List.mem_filter.1 hn
  rw [show (d.sweepSpec now slack).1.ctx = d.ctx from rfl, hd.eta_eq hn hpn]
  simpa using hlt

end Loop

/-- **The sweep is the filter**, on exact integers: on a state satisfying the representation
invariant, `sweepSURBCtxs now slack` removes exactly the nodes whose deadline `eta + slack` is
not after `now`, and from `surbStore` exactly the ids of their contexts, leaves every other node,
slice and entry as it was, and counts exactly the contexts it removed; a second sweep with the
same slack and a `now` no later removes nothing. -/
theorem sweepSURBCtxs_eq_sweepSpec (d : Decoy ℤ) (hd : d.RepInv) (now slack : ℤ) :
    d.sweepSURBCtxs now slack = .ok (d.sweepSpec now slack) ∧
      ∀ now' ≤ now, (d.sweepSpec now slack).1.sweepSURBCtxs now' slack =
        .ok ((d.sweepSpec now slack).1, 0) := by
  have hmono : Monotone fun a : ℤ => a + slack := fun _ _ h => Int.add_le_add_right h slack
  refine ⟨sweepSURBCtxs_eq_sweepSpec_of_monotone now slack hmono hd.sortedGroups,
    fun now' hnow => ?_⟩
  have hsub : (d.sweepSpec now slack).1.surbETAs.nodes.Sublist d.surbETAs.nodes :=
    List.filter_sublist _
  have hs : SortedGroups (d.sweepSpec now slack).1 (d.sweepSpec now slack).1.surbETAs.nodes :=
    ⟨fun n hn => hd.value_cons (hsub.subset hn), hd.sorted.sublist hsub⟩
  rw [sweepSURBCtxs_eq_sweepSpec_of_monotone now' slack hmono hs]
  refine congrArg Except.ok (sweepSpec_of_forall_lt now' slack fun n hn => ?_)
  have hn' := List.mem_filter.1 hn
  exact lt_of_le_of_lt hnow (by simpa using hn'.2)

/-- The sweep at `6`, with slack `0`, of a state holding two contexts with ETAs `5` and `9`: it
removes the first. -/
theorem sweepSURBCtxs_eq_sweepSpec_two_nodes :
    ∃ d : Decoy ℤ, d.RepInv ∧ d.surbETAs.nodes = [0, 1] ∧
      d.sweepSURBCtxs 6 0 = .ok (d.sweepSpec 6 0) ∧ (d.sweepSpec 6 0).1.surbETAs.nodes = [1] ∧
      (d.sweepSpec 6 0).2 = 1 := by
  obtain ⟨d1, h1, hd1⟩ :=
    (inv_new 0 [] : (new 0 [] : Decoy ℤ).Inv).alloc_storeSURBCtx ⟨7, 5, []⟩ rfl
  cases h1.symm.trans (rfl : _ = Except.ok _)
  obtain ⟨d2, h2, hd2⟩ := hd1.alloc_storeSURBCtx ⟨8, 9, []⟩ rfl
  cases h2.symm.trans (rfl : _ = Except.ok _)
  exact ⟨_, hd2.toRepInv, rfl, (sweepSURBCtxs_eq_sweepSpec _ hd2.toRepInv 6 0).1, by decide,
    by decide⟩

end Decoy

end MesonDecoy
