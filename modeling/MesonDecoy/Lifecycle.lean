import MesonDecoy.State

set_option autoImplicit false

/-!
# `storeSURBCtx`, `loadAndDeleteSURBCtx` and `sweepSURBCtxs`

The three operations on the token state, each run under `d.Lock()` and so atomic with respect
to one another, and the comparator `New` gives the tree `surbETAs`.

## Main definitions

* `MesonDecoy.compareETAs` — the comparator of `surbETAs` (`decoy.go:495`).
* `MesonDecoy.Decoy.storeSURBCtx` — `decoy.go:406`.
* `MesonDecoy.Decoy.loadAndDeleteSURBCtx` — `decoy.go:421`.
* `MesonDecoy.Decoy.sweepSURBCtxs` — `decoy.go:455`, with its loop `sweepNodes`.

## Implementation notes

`loadAndDeleteSURBCtx` is translated as written. When the node holds more than one context it
shifts the slice left over `ctx`, sets the last slot to nil and then stores that slot,
`nCtxList[l-1]`, as the node's value: a nil `*surbCtx`, not the shortened slice.
-/

namespace MesonDecoy

variable {τ : Type}

/-- The comparator `New` gives `avl.New`: the ETAs of the first contexts of two `[]*surbCtx`
values, as `-1`, `1` or `0`. -/
def compareETAs [LinearOrder τ] (ctx : Nat → SurbCtx τ) (a b : Value) : Except Panic Int := do
  let surbCtxsA ← a.assertSurbCtxs
  let surbCtxsB ← b.assertSurbCtxs
  let etaA := (ctx (← index surbCtxsA 0)).eta
  let etaB := (ctx (← index surbCtxsB 0)).eta
  pure (if etaA < etaB then -1 else if etaA > etaB then 1 else 0)

namespace Decoy

section Ops

variable [LinearOrder τ]

/-- `d.storeSURBCtx(ctx)`: insert `[ctx]` into `surbETAs`, append `ctx` to the node found if it
was already there, and map `ctx.id` to `ctx`. -/
def storeSURBCtx (d : Decoy τ) (c : Nat) : Except Panic (Decoy τ) := do
  -- ctxList := []*surbCtx{ctx}; ctx.etaNode = d.surbETAs.Insert(ctxList)
  let (n, t) ← d.surbETAs.insert (compareETAs d.ctx) (.surbCtxs [c])
  let d := (d.setTree t).setEtaNode c (some n)
  -- if nCtxList := ctx.etaNode.Value.([]*surbCtx); nCtxList[0] != ctx { ... }
  let nCtxList ← (d.surbETAs.value n).assertSurbCtxs
  let first ← index nCtxList 0
  let d := if first ≠ c then d.setTree (d.surbETAs.setValue n (.surbCtxs (nCtxList ++ [c])))
    else d
  pure (d.setStore (d.ctx c).id (some c))

/-- `d.loadAndDeleteSURBCtx(id)`: the context stored under `id`, removed from `surbStore` and
from its node, or `none`. -/
def loadAndDeleteSURBCtx (d : Decoy τ) (id : UInt64) : Except Panic (Option Nat × Decoy τ) :=
  match d.surbStore id with
  | none => pure (none, d)
  | some c => do
    let d := d.setStore id none
    let node ← deref (d.etaNode c)
    let nCtxList ← (d.surbETAs.value node).assertSurbCtxs
    let l := nCtxList.length
    if 1 < l then
      match nCtxList.indexOf? c with
      | some i =>
        -- copy(nCtxList[i:], nCtxList[i+1:]); nCtxList[l-1] = nil
        let shifted : List (Option Nat) := (nCtxList.eraseIdx i).map some ++ [none]
        -- ctx.etaNode.Value = nCtxList[l-1]; ctx.etaNode = nil
        let d := d.setTree (d.surbETAs.setValue node (.surbCtx (shifted.getD (l - 1) none)))
        pure (some c, d.setEtaNode c none)
      | none => throw (.bug "BUG: SURB missing from node ETA list")
    else do
      let first ← index nCtxList 0
      if first ≠ c then throw (.bug "BUG: SURB mismatch in node ETA list")
      else pure (some c, (d.setTree (d.surbETAs.remove node)).setEtaNode c none)

variable [Add τ]

/-- The loop of `sweepSURBCtxs` from `node` on, with the count swept so far: stop at the first
node whose first context has `eta + slack > now`, otherwise delete the ids of its contexts from
`surbStore` and remove the node. -/
def sweepNodes (now slack : τ) : List Nat → Decoy τ → Nat → Except Panic (Decoy τ × Nat)
  | [], d, swept => pure (d, swept)
  | node :: rest, d, swept => do
    let surbCtxs ← (d.surbETAs.value node).assertSurbCtxs
    let first ← index surbCtxs 0
    if now < (d.ctx first).eta + slack then pure (d, swept)
    else
      let d := surbCtxs.foldl (fun d c => d.setStore (d.ctx c).id none) d
      sweepNodes now slack rest (d.setTree (d.surbETAs.remove node)) (swept + surbCtxs.length)

/-- `d.sweepSURBCtxs()` at monotonic time `now` with `slack` the configured `DecoySlack`: the
state after, and the count `swept` it logs. -/
def sweepSURBCtxs (d : Decoy τ) (now slack : τ) : Except Panic (Decoy τ × Nat) :=
  if d.surbETAs.nodes.length = 0 then pure (d, 0)
  else sweepNodes now slack d.surbETAs.nodes d 0

end Ops

end Decoy

end MesonDecoy
