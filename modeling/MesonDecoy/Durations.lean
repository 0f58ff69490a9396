import MesonDecoy.Worker
import MesonDecoy.Sweep

set_option autoImplicit false

/-!
# The decoy's `time.Duration` arithmetic

Two places compute in `int64` nanoseconds. The worker arms its timer with
`time.Duration(wakeMsec) * time.Millisecond`, where `wakeMsec` is the exponential draw clamped to
the document's `LambdaMMaxDelay`; the sweep tests `surbCtxs[0].eta + slack > now` with
`slack = time.Duration(DecoySlack) * time.Millisecond`. Go's conversions and `*` and `+` on
`int64` wrap, so each result is the exact one only while the exact one is an `int64`: for a
`wakeMsec` or a `DecoySlack` of at most `⌊MaxInt64 / 10⁶⌋ = 9223372036854` ms, and for a deadline
`eta + slack` in range.

## Main results

* `MesonDecoy.durationMillis_eq_iff`, `MesonDecoy.intMillis_eq_iff` — when the millisecond
  products are exact.
* `MesonDecoy.Decoy.durations_exact` — the wake interval, the slack and the deadline are exact
  within those bounds, and then the sweep keeps every context whose exact deadline is after
  `now`.
* `MesonDecoy.Decoy.durations_wrap` — beyond them the timer is armed with a negative interval,
  and the sweep retires a context whose exact deadline is after `now`.

## Implementation notes

The sweep is the one of `MesonDecoy.Decoy.sweepSURBCtxs`, run with `τ = Duration`, whose `+`
wraps. `DecoySlack` is a Go `int`, 64 bits wide on the platforms the server runs on.
-/

namespace MesonDecoy

/-- `time.Duration(n) * time.Millisecond` for a `uint64` `n` is `n · 10⁶` exactly when
`n ≤ ⌊MaxInt64 / 10⁶⌋`. -/
lemma durationMillis_eq_iff (n : UInt64) :
    durationMillis n = n.toNat * 1000000 ↔ (n.toNat : Int) ≤ maxInt64 / 1000000 := by
  have hn : n.toNat < 18446744073709551616 := n.toNat_lt_size
  unfold durationMillis toInt64 maxInt64
  omega

/-- `time.Duration(n) * time.Millisecond` for an `int` `n` is `n · 10⁶` exactly when
`|n| ≤ ⌊MaxInt64 / 10⁶⌋`. -/
lemma intMillis_eq_iff {n : Int} (hn : IsInt64 n) :
    intMillis n = n * 1000000 ↔ -(maxInt64 / 1000000) ≤ n ∧ n ≤ maxInt64 / 1000000 := by
  unfold IsInt64 at hn
  unfold intMillis toInt64
  unfold maxInt64 at *
  omega

namespace Worker

/-- The `wakeMsec` of the source, `min(draw, LambdaMMaxDelay)`, as a number. -/
lemma toNat_wakeMsec (doc : Entry) (draw : UInt64) :
    (if draw > doc.lambdaMMaxDelay then doc.lambdaMMaxDelay else draw).toNat =
      min draw.toNat doc.lambdaMMaxDelay.toNat := by
  have hlt : doc.lambdaMMaxDelay < draw ↔ doc.lambdaMMaxDelay.toNat < draw.toNat :=
    UInt64.lt_def.trans BitVec.lt_def
  split
  · next h => have := hlt.1 h; omega
  · next h => have := mt hlt.2 h; omega

/-- The wake interval is `min(draw, LambdaMMaxDelay) · 10⁶` ns exactly when that minimum is at
most `⌊MaxInt64 / 10⁶⌋`, and then it lies in `[0, LambdaMMaxDelay · 10⁶]`. -/
lemma wakeInterval_eq_iff (doc : Entry) (draw : UInt64) :
    (wakeInterval doc draw = min draw.toNat doc.lambdaMMaxDelay.toNat * 1000000 ↔
      ((min draw.toNat doc.lambdaMMaxDelay.toNat : Nat) : Int) ≤ maxInt64 / 1000000) ∧
    (((min draw.toNat doc.lambdaMMaxDelay.toNat : Nat) : Int) ≤ maxInt64 / 1000000 →
      0 ≤ wakeInterval doc draw ∧
        wakeInterval doc draw ≤ doc.lambdaMMaxDelay.toNat * 1000000) := by
  have h := durationMillis_eq_iff (if draw > doc.lambdaMMaxDelay then doc.lambdaMMaxDelay else draw)
  rw [toNat_wakeMsec] at h
  refine ⟨h, fun hle => ?_⟩
  rw [wakeInterval, h.2 hle]
  omega

end Worker

/-- A deadline `eta + slack` is the exact sum exactly when that sum is an `int64`. -/
lemma Duration.add_ns_eq_iff (eta slack : Duration) :
    (eta + slack).ns = eta.ns + slack.ns ↔ IsInt64 (eta.ns + slack.ns) :=
  toInt64_eq_self_iff

namespace Decoy

/-- The sweep over `int64` durations, with `slack` from a `DecoySlack` of at most
`⌊MaxInt64 / 10⁶⌋` ms, keeps every held context whose exact deadline `eta + DecoySlack · 10⁶` is
an `int64` after `now`. -/
lemma Inv.sweepSURBCtxs_exact {d : Decoy Duration} (hd : d.Inv) (now : Duration)
    {decoySlack : Int} (hs : IsInt64 decoySlack)
    (hb : -(maxInt64 / 1000000) ≤ decoySlack ∧ decoySlack ≤ maxInt64 / 1000000) :
    ∃ r, d.sweepSURBCtxs now (.ofInt (intMillis decoySlack)) = .ok r ∧
      ∀ p ∈ d.held, IsInt64 ((d.ctx p).eta.ns + decoySlack * 1000000) →
        now.ns < (d.ctx p).eta.ns + decoySlack * 1000000 → p ∈ r.1.held := by
  obtain ⟨r, h, -, hkeep⟩ := hd.sweepSURBCtxs_held now (.ofInt (intMillis decoySlack))
  have hslack : (Duration.ofInt (intMillis decoySlack)).ns = decoySlack * 1000000 := by
    rw [Duration.ofInt_ns, (intMillis_eq_iff hs).2 hb, toInt64_eq_self_iff]
    unfold IsInt64 maxInt64 at *
    omega
  refine ⟨r, h, fun p hp hfit hlive => hkeep p hp ?_⟩
  rw [Duration.lt_iff, Duration.add_ns, hslack, toInt64_eq_self_iff.2 hfit]
  exact hlive

/-- **Where the duration arithmetic is exact.** The wake interval is
`min(draw, LambdaMMaxDelay) · 10⁶` ns exactly when that minimum is at most
`⌊MaxInt64 / 10⁶⌋` ms, and then it lies in `[0, LambdaMMaxDelay · 10⁶]`, so the timer is not
armed with a negative interval. The slack is `DecoySlack · 10⁶` exactly when
`|DecoySlack| ≤ ⌊MaxInt64 / 10⁶⌋`, and a deadline `eta + slack` is the exact sum exactly when
that is an `int64`. Within these bounds, the sweep retires no context whose exact deadline
is after `now`. -/
theorem durations_exact :
    (∀ (doc : Entry) (draw : UInt64),
      (Worker.wakeInterval doc draw = min draw.toNat doc.lambdaMMaxDelay.toNat * 1000000 ↔
        ((min draw.toNat doc.lambdaMMaxDelay.toNat : Nat) : Int) ≤ maxInt64 / 1000000) ∧
      (((min draw.toNat doc.lambdaMMaxDelay.toNat : Nat) : Int) ≤ maxInt64 / 1000000 →
        0 ≤ Worker.wakeInterval doc draw ∧
          Worker.wakeInterval doc draw ≤ doc.lambdaMMaxDelay.toNat * 1000000)) ∧
    (∀ decoySlack : Int, IsInt64 decoySlack →
      (intMillis decoySlack = decoySlack * 1000000 ↔
        -(maxInt64 / 1000000) ≤ decoySlack ∧ decoySlack ≤ maxInt64 / 1000000)) ∧
    (∀ eta slack : Duration, (eta + slack).ns = eta.ns + slack.ns ↔ IsInt64 (eta.ns + slack.ns)) ∧
    ∀ d : Decoy Duration, d.Inv → ∀ (now : Duration) (decoySlack : Int), IsInt64 decoySlack →
      -(maxInt64 / 1000000) ≤ decoySlack ∧ decoySlack ≤ maxInt64 / 1000000 →
      ∃ r, d.sweepSURBCtxs now (.ofInt (intMillis decoySlack)) = .ok r ∧
        ∀ p ∈ d.held, IsInt64 ((d.ctx p).eta.ns + decoySlack * 1000000) →
          now.ns < (d.ctx p).eta.ns + decoySlack * 1000000 → p ∈ r.1.held :=
  ⟨Worker.wakeInterval_eq_iff, fun _ hs => intMillis_eq_iff hs, Duration.add_ns_eq_iff,
    fun _ hd now _ hs hb => hd.sweepSURBCtxs_exact now hs hb⟩

/-- A document with `LambdaMMaxDelay = 1000` and a draw of `5000` ms: the timer is armed for
`10⁹` ns. -/
theorem durations_exact_clamped :
    Worker.wakeInterval ⟨0, 1000⟩ 5000 = 1000000000 ∧ 0 ≤ Worker.wakeInterval ⟨0, 1000⟩ 5000 :=
  ⟨(durations_exact.1 ⟨0, 1000⟩ 5000).1.2 (by decide),
    ((durations_exact.1 ⟨0, 1000⟩ 5000).2 (by decide)).1⟩

/-- **Beyond the bounds the arithmetic wraps.** With `LambdaMMaxDelay` and the draw at `10¹³` ms
the timer is armed with a negative interval. A context with `eta = MaxInt64 - 10` and a
`DecoySlack` of `1` ms, whose exact deadline is after `now = 0`, is retired by the sweep at
`now = 0`: its deadline wraps below `now`. -/
theorem durations_wrap :
    Worker.wakeInterval ⟨0, 10000000000000⟩ 10000000000000 < 0 ∧
    ∃ d : Decoy Duration, d.Inv ∧ 0 ∈ d.held ∧ (0 : Int) < (d.ctx 0).eta.ns + 1 * 1000000 ∧
      ∃ r, d.sweepSURBCtxs (.ofInt 0) (.ofInt (intMillis 1)) = .ok r ∧ 0 ∉ r.1.held := by
  obtain ⟨d, h, hd⟩ := (inv_new 0 [] : (new 0 [] : Decoy Duration).Inv).alloc_storeSURBCtx
    ⟨7, .ofInt (maxInt64 - 10), []⟩ rfl
  cases h.symm.trans (rfl : _ = Except.ok _)
  exact ⟨by decide, _, hd, by decide, by decide, _, rfl, by decide⟩

end Decoy

end MesonDecoy
