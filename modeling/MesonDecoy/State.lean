import MesonDecoy.Go

set_option autoImplicit false

/-!
# The token state of the decoy

The part of `decoy` that `storeSURBCtx`, `loadAndDeleteSURBCtx` and `sweepSURBCtxs` share under
the mutex: the `surbCtx` objects, the `avl.Tree` `surbETAs` ordered by ETA, and the map
`surbStore` from SURB ID suffix to context.

## Main definitions

* `MesonDecoy.SurbCtx` — the fields of a `surbCtx` fixed when it is built.
* `MesonDecoy.Value` — the dynamic value of an `avl.Node`'s `Value interface{}`.
* `MesonDecoy.Tree` — an `avl.Tree`: its nodes in order, with stable handles.
* `MesonDecoy.Decoy` — the state, and `MesonDecoy.Decoy.new`, the one `New` builds.

## Design

The Go heap is modelled field by field: pointers are natural numbers, and each mutable field is
a map from pointers (`Decoy.etaNode` for `surbCtx.etaNode`, `Tree.value` for `avl.Node.Value`),
while `Decoy.ctx` holds the fields that never change after construction. New objects get the
next unused pointer, so a new object is never equal to one already reachable.

The `avl` package is not part of the repository. A tree is modelled by what the decoy uses of it:
the in-order sequence of its nodes, `Insert` (which returns the node comparing equal to the
value, or a new node at its ordered position), `Remove` of a node, `Len`, and forward iteration.
Only the search of `Insert` calls the comparator; it is modelled as a scan of the in-order
sequence, which compares against other nodes than the balanced search path does. Where every
node holds a non-empty `[]*surbCtx` the comparator cannot panic on any node, so the two agree.

`time.Duration` is a type parameter `τ`: `ℤ` gives exact arithmetic, and an `int64` type with
wrap-around gives Go's.
-/

namespace MesonDecoy

/-- The fields of a `surbCtx` that are fixed when `sendLoopPacket` builds it. -/
structure SurbCtx (τ : Type) where
  /-- `binary.BigEndian.Uint64(surbID[8:])`, the random suffix of the SURB ID. -/
  id : UInt64
  /-- `monotime.Now() + deltaT`, when the reply is expected. -/
  eta : τ
  /-- The key `sphinx.NewSURB` returned, for `DecryptSURBPayload`. -/
  sprpKey : List UInt8

/-- The dynamic value of an `avl.Node`'s `Value interface{}` in this package. -/
inductive Value
  /-- A `[]*surbCtx` (the code stores no nil element in one). -/
  | surbCtxs (l : List Nat)
  /-- A `*surbCtx`, possibly nil. -/
  | surbCtx (p : Option Nat)
deriving DecidableEq, Repr

namespace Value

/-- The contexts a value holds as a `[]*surbCtx`. -/
def members : Value → List Nat
  | surbCtxs l => l
  | surbCtx _ => []

@[simp] lemma members_surbCtxs (l : List Nat) : (surbCtxs l).members = l := rfl

@[simp] lemma members_surbCtx (p : Option Nat) : (surbCtx p).members = [] := rfl

/-- The type assertion `v.([]*surbCtx)`. -/
def assertSurbCtxs : Value → Except Panic (List Nat)
  | surbCtxs l => .ok l
  | surbCtx _ => .error .typeAssertion

@[simp] lemma assertSurbCtxs_surbCtxs (l : List Nat) : (surbCtxs l).assertSurbCtxs = .ok l := rfl

@[simp] lemma assertSurbCtxs_surbCtx (p : Option Nat) :
    (surbCtx p).assertSurbCtxs = .error .typeAssertion := rfl

end Value

/-- An `avl.Tree`: the handles of its nodes in order, and the `Value` of every node allocated so
far (a node removed from the tree keeps its value while a pointer to it remains). -/
structure Tree where
  /-- The nodes in the order the tree's forward iterator visits them. -/
  nodes : List Nat
  /-- `node.Value`, by handle. -/
  value : Nat → Value
  /-- Handles below `count` have been allocated. -/
  count : Nat
  nodes_lt : ∀ n ∈ nodes, n < count

namespace Tree

/-- The search `Insert(v)` makes: `inl n` for the first node `n` comparing equal to `v`, or
`inr k` for the position of the new node, before the first node comparing greater. -/
def insertAt (cmp : Value → Value → Except Panic Int) (value : Nat → Value) (v : Value) :
    List Nat → Except Panic (Nat ⊕ Nat)
  | [] => .ok (.inr 0)
  | n :: ns => do
    let c ← cmp v (value n)
    if c < 0 then pure (.inr 0)
    else if c = 0 then pure (.inl n)
    else return Sum.map id (· + 1) (← insertAt cmp value v ns)

/-- The tree with a new node holding `v` at position `k`. -/
def addNode (t : Tree) (k : Nat) (v : Value) : Tree where
  nodes := t.nodes.take k ++ t.count :: t.nodes.drop k
  value := Function.update t.value t.count v
  count := t.count + 1
  nodes_lt m hm := by
    simp only [List.mem_append, List.mem_cons] at hm
    rcases hm with hm | rfl | hm
    · exact Nat.lt_succ_of_lt (t.nodes_lt m (List.mem_of_mem_take hm))
    · exact Nat.lt_succ_self _
    · exact Nat.lt_succ_of_lt (t.nodes_lt m (List.mem_of_mem_drop hm))

/-- `t.Insert(v)` with comparator `cmp`: the node holding `v`'s key, and the tree after. -/
def insert (t : Tree) (cmp : Value → Value → Except Panic Int) (v : Value) :
    Except Panic (Nat × Tree) := do
  match ← insertAt cmp t.value v t.nodes with
  | .inl n => pure (n, t)
  | .inr k => pure (t.count, t.addNode k v)

/-- `t.Remove(n)`. -/
def remove (t : Tree) (n : Nat) : Tree where
  nodes := t.nodes.erase n
  value := t.value
  count := t.count
  nodes_lt m hm := t.nodes_lt m (List.mem_of_mem_erase hm)

/-- `n.Value = v`. -/
def setValue (t : Tree) (n : Nat) (v : Value) : Tree :=
  { t with value := Function.update t.value n v }

@[simp] lemma remove_nodes (t : Tree) (n : Nat) : (t.remove n).nodes = t.nodes.erase n := rfl

@[simp] lemma remove_value (t : Tree) (n : Nat) : (t.remove n).value = t.value := rfl

@[simp] lemma setValue_nodes (t : Tree) (n : Nat) (v : Value) :
    (t.setValue n v).nodes = t.nodes := rfl

@[simp] lemma setValue_value (t : Tree) (n : Nat) (v : Value) :
    (t.setValue n v).value = Function.update t.value n v := rfl

@[simp] lemma addNode_nodes (t : Tree) (k : Nat) (v : Value) :
    (t.addNode k v).nodes = t.nodes.take k ++ t.count :: t.nodes.drop k := rfl

@[simp] lemma addNode_value (t : Tree) (k : Nat) (v : Value) :
    (t.addNode k v).value = Function.update t.value t.count v := rfl

lemma count_not_mem (t : Tree) : t.count ∉ t.nodes := fun h => Nat.lt_irrefl _ (t.nodes_lt _ h)

/-- Two trees with the same nodes and values are equal. -/
lemma ext {t t' : Tree} (hn : t.nodes = t'.nodes) (hv : t.value = t'.value)
    (hc : t.count = t'.count) : t = t' := by
  cases t; cases t'; cases hn; cases hv; cases hc; rfl

end Tree

/-- The state of a `decoy` that its token operations and `OnPacket` read and write. -/
structure Decoy (τ : Type) where
  /-- The fixed fields of each `surbCtx` allocated so far, by pointer. -/
  ctx : Nat → SurbCtx τ
  /-- `surbCtx.etaNode`, by pointer. -/
  etaNode : Nat → Option Nat
  /-- Pointers below `ctxCount` have been allocated. -/
  ctxCount : Nat
  /-- `d.surbETAs`. -/
  surbETAs : Tree
  /-- `d.surbStore`, a `map[uint64]*surbCtx`. -/
  surbStore : UInt64 → Option Nat
  /-- `d.surbIDBase`. -/
  surbIDBase : UInt64
  /-- `d.recipient`. -/
  recipient : List UInt8
  /-- The Prometheus counter `packetsDropped`. -/
  packetsDropped : Nat

namespace Decoy

variable {τ : Type}

/-- The state `New` builds: no context, an empty tree and an empty store, with the token base
`uint64(time.Now().Unix())` and the recipient read from `rand.Reader`. -/
def new [Inhabited τ] (surbIDBase : UInt64) (recipient : List UInt8) : Decoy τ where
  ctx _ := ⟨0, default, []⟩
  etaNode _ := none
  ctxCount := 0
  surbETAs := ⟨[], fun _ => .surbCtxs [], 0, fun _ h => absurd h (List.not_mem_nil _)⟩
  surbStore _ := none
  surbIDBase := surbIDBase
  recipient := recipient
  packetsDropped := 0

/-- `&surbCtx{...}`: a new context with `etaNode` nil, and its pointer. -/
def alloc (d : Decoy τ) (x : SurbCtx τ) : Nat × Decoy τ :=
  (d.ctxCount, { d with ctx := Function.update d.ctx d.ctxCount x,
                        etaNode := Function.update d.etaNode d.ctxCount none,
                        ctxCount := d.ctxCount + 1 })

/-- `ctx.etaNode = v`. -/
def setEtaNode (d : Decoy τ) (c : Nat) (v : Option Nat) : Decoy τ :=
  { d with etaNode := Function.update d.etaNode c v }

/-- `d.surbStore[k] = v`, and `delete(d.surbStore, k)` for `v = none`. -/
def setStore (d : Decoy τ) (k : UInt64) (v : Option Nat) : Decoy τ :=
  { d with surbStore := Function.update d.surbStore k v }

/-- The same state with tree `t`. -/
def setTree (d : Decoy τ) (t : Tree) : Decoy τ := { d with surbETAs := t }

section Simp

variable (d : Decoy τ) (c : Nat) (v : Option Nat) (k : UInt64) (w : Option Nat) (t : Tree)

@[simp] lemma setEtaNode_ctx : (d.setEtaNode c v).ctx = d.ctx := rfl
@[simp] lemma setEtaNode_etaNode :
    (d.setEtaNode c v).etaNode = Function.update d.etaNode c v := rfl
@[simp] lemma setEtaNode_surbETAs : (d.setEtaNode c v).surbETAs = d.surbETAs := rfl
@[simp] lemma setEtaNode_surbStore : (d.setEtaNode c v).surbStore = d.surbStore := rfl
@[simp] lemma setEtaNode_ctxCount : (d.setEtaNode c v).ctxCount = d.ctxCount := rfl
@[simp] lemma setEtaNode_surbIDBase : (d.setEtaNode c v).surbIDBase = d.surbIDBase := rfl
@[simp] lemma setEtaNode_recipient : (d.setEtaNode c v).recipient = d.recipient := rfl
@[simp] lemma setEtaNode_packetsDropped :
    (d.setEtaNode c v).packetsDropped = d.packetsDropped := rfl

@[simp] lemma setStore_ctx : (d.setStore k w).ctx = d.ctx := rfl
@[simp] lemma setStore_etaNode : (d.setStore k w).etaNode = d.etaNode := rfl
@[simp] lemma setStore_surbETAs : (d.setStore k w).surbETAs = d.surbETAs := rfl
@[simp] lemma setStore_surbStore :
    (d.setStore k w).surbStore = Function.update d.surbStore k w := rfl
@[simp] lemma setStore_ctxCount : (d.setStore k w).ctxCount = d.ctxCount := rfl
@[simp] lemma setStore_surbIDBase : (d.setStore k w).surbIDBase = d.surbIDBase := rfl
@[simp] lemma setStore_recipient : (d.setStore k w).recipient = d.recipient := rfl
@[simp] lemma setStore_packetsDropped : (d.setStore k w).packetsDropped = d.packetsDropped := rfl

@[simp] lemma setTree_ctx : (d.setTree t).ctx = d.ctx := rfl
@[simp] lemma setTree_etaNode : (d.setTree t).etaNode = d.etaNode := rfl
@[simp] lemma setTree_surbETAs : (d.setTree t).surbETAs = t := rfl
@[simp] lemma setTree_surbStore : (d.setTree t).surbStore = d.surbStore := rfl
@[simp] lemma setTree_ctxCount : (d.setTree t).ctxCount = d.ctxCount := rfl
@[simp] lemma setTree_surbIDBase : (d.setTree t).surbIDBase = d.surbIDBase := rfl
@[simp] lemma setTree_recipient : (d.setTree t).recipient = d.recipient := rfl
@[simp] lemma setTree_packetsDropped : (d.setTree t).packetsDropped = d.packetsDropped := rfl

@[simp] lemma setTree_self : d.setTree d.surbETAs = d := rfl

variable (x : SurbCtx τ)

@[simp] lemma alloc_fst : (d.alloc x).1 = d.ctxCount := rfl
@[simp] lemma alloc_ctx : (d.alloc x).2.ctx = Function.update d.ctx d.ctxCount x := rfl
@[simp] lemma alloc_etaNode :
    (d.alloc x).2.etaNode = Function.update d.etaNode d.ctxCount none := rfl
@[simp] lemma alloc_surbETAs : (d.alloc x).2.surbETAs = d.surbETAs := rfl
@[simp] lemma alloc_surbStore : (d.alloc x).2.surbStore = d.surbStore := rfl
@[simp] lemma alloc_ctxCount : (d.alloc x).2.ctxCount = d.ctxCount + 1 := rfl

end Simp

/-- The contexts held by the nodes of `surbETAs`, in the order of the nodes. -/
def held (d : Decoy τ) : List Nat := d.surbETAs.nodes.flatMap fun n => (d.surbETAs.value n).members

lemma mem_held {d : Decoy τ} {c : Nat} :
    c ∈ d.held ↔ ∃ n ∈ d.surbETAs.nodes, c ∈ (d.surbETAs.value n).members := List.mem_flatMap

@[simp] lemma setStore_held (d : Decoy τ) (k : UInt64) (w : Option Nat) :
    (d.setStore k w).held = d.held := rfl

@[simp] lemma setEtaNode_held (d : Decoy τ) (c : Nat) (w : Option Nat) :
    (d.setEtaNode c w).held = d.held := rfl

@[simp] lemma alloc_held (d : Decoy τ) (x : SurbCtx τ) : (d.alloc x).2.held = d.held := rfl

end Decoy

end MesonDecoy
