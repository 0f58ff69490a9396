import MesonDecoy.Worker

set_option autoImplicit false

/-!
# The worker's timer

`worker()` arms one `time.Timer` with `math.MaxInt64` and re-arms it at the end of every
iteration that does not `continue`:

    if !timerFired && !timer.Stop() {
        <-timer.C
    }
    timer.Reset(wakeInterval)

`go.mod` says `go 1.13`, so the timers are those of Go before 1.23: `C` has a buffer of one, an
expiry sends its tick on `C` without blocking, `Stop` reports whether it stopped an active timer
and leaves `C` as it is, and `Reset` is only safe on a stopped or expired timer whose channel
has been drained; otherwise a tick of an earlier arming can be received after it.

This file models the worker as a program with one program point per timer operation, and the
runtime's expiry as a step that can come between any two steps of the worker. The `select` step
runs one iteration of `MesonDecoy.Worker.iterate`, so documents rejected by one of the four
`continue`s, documents accepted and halts all come with any timing against the expiry; the
cached document after a run is the one the iteration-level loop has after the run's `select`
inputs (`MesonDecoy.Worker.run_init_docCache`).

## Main definitions

* `MesonDecoy.Timer` — a `time.Timer` and its channel, with `new`, `expire`, `stop`, `reset`
  and `receive`.
* `MesonDecoy.Worker.Loop` — the worker at a program point; `MesonDecoy.Worker.step` — one step
  of the worker or of the runtime; `MesonDecoy.Worker.Reachable` — the states a run reaches.

## Main results

* `MesonDecoy.Worker.TimerInv.step` — every step keeps the timer invariant.
* `MesonDecoy.Worker.timer_ops_safe` — in every reachable state the drain finds a tick, `Reset`
  finds the timer stopped or expired with `C` empty, and a tick in `C` at the `select` is one of
  the latest arming.

## Implementation notes

A tick is labelled with the arming that sent it: `NewTimer` is arming `0`, each `Reset` the
next. Durations are recorded but do not constrain when the timer expires: the expiry may come at
any moment, which covers every timing. The `defer timer.Stop()` after a halt is left out.
-/

namespace MesonDecoy

/-- A `time.Timer` under the runtime of Go before 1.23. -/
structure Timer where
  /-- Armed, and neither expired nor stopped since. -/
  active : Bool
  /-- How many times it has been re-armed: `NewTimer` is arming `0`, each `Reset` the next. -/
  arming : Nat
  /-- The duration of the latest arming. -/
  duration : Int
  /-- The channel `C`, of capacity one: the tick it holds, labelled by the arming that sent it. -/
  c : Option Nat
deriving DecidableEq, Repr

namespace Timer

/-- `time.NewTimer(d)`. -/
def new (d : Int) : Timer := ⟨true, 0, d, none⟩

/-- The runtime fires an active timer: it is no longer active, and `sendTime` sends a tick on
`C` without blocking, dropping it when `C` is full. -/
def expire (t : Timer) : Timer :=
  if t.active then { t with active := false, c := some (t.c.getD t.arming) } else t

/-- `t.Stop()`: whether it stopped an active timer, and the timer, stopped. `C` is untouched. -/
def stop (t : Timer) : Bool × Timer := (t.active, { t with active := false })

/-- `t.Reset(d)`: the timer armed again, for `d`. `C` is untouched. -/
def reset (t : Timer) (d : Int) : Timer :=
  { t with active := true, arming := t.arming + 1, duration := d }

/-- `<-t.C`: the tick and the timer with `C` drained; `none` when `C` is empty and the receive
blocks. -/
def receive (t : Timer) : Option (Nat × Timer) := t.c.map fun g => (g, { t with c := none })

/-! ### The three states the worker keeps its timer in -/

/-- Armed, `C` empty. -/
def Pending (t : Timer) : Prop := t.active = true ∧ t.c = none

/-- Expired, with the tick of its latest arming in `C`. -/
def Fired (t : Timer) : Prop := t.active = false ∧ t.c = some t.arming

/-- Stopped or expired, `C` empty: what `Reset` needs. -/
def Idle (t : Timer) : Prop := t.active = false ∧ t.c = none

variable {t : Timer}

lemma Pending.expire (h : t.Pending) : t.expire.Fired := by
  obtain ⟨ha, hc⟩ := h
  simp [Timer.expire, Fired, ha, hc]

lemma expire_of_inactive (h : t.active = false) : t.expire = t := by simp [Timer.expire, h]

lemma Pending.stop (h : t.Pending) : t.stop.1 = true ∧ t.stop.2.Idle :=
  ⟨h.1, rfl, h.2⟩

lemma Fired.stop (h : t.Fired) : t.stop = (false, t) := by
  obtain ⟨a, g, d, c⟩ := t
  obtain ⟨rfl, -⟩ := h
  rfl

lemma Pending.receive (h : t.Pending) : t.receive = none := by simp [Timer.receive, h.2]

lemma Fired.receive (h : t.Fired) :
    t.receive = some (t.arming, { t with c := none }) ∧ ({ t with c := none } : Timer).Idle := by
  simp [Timer.receive, h.2, Idle, h.1]

lemma Idle.reset (h : t.Idle) (d : Int) : (t.reset d).Pending := ⟨rfl, h.2⟩

/-- Before its first expiry a new timer is pending. -/
lemma new_pending (d : Int) : (new d).Pending := ⟨rfl, rfl⟩

end Timer

namespace Worker

/-- The worker's program points, with the locals live there. -/
inductive Pc
  /-- Blocked in the `select`. -/
  | select
  /-- At `if !timerFired && !timer.Stop()`. -/
  | stop (timerFired : Bool) (wakeInterval : Int)
  /-- At the drain `<-timer.C`. -/
  | drain (wakeInterval : Int)
  /-- At `timer.Reset(wakeInterval)`. -/
  | reset (wakeInterval : Int)
  /-- Returned. -/
  | halted
deriving DecidableEq, Repr

/-- Where an iteration's outcome leaves the worker. -/
def Outcome.next : Outcome → Pc
  | .halt => .halted
  | .ignored => .select
  | .rearm timerFired _ _ wakeInterval => .stop timerFired wakeInterval

/-- The worker at a program point: the cached document and the timer. -/
structure Loop where
  pc : Pc
  docCache : Option Entry
  timer : Timer
deriving DecidableEq, Repr

/-- The worker entering its loop, after `timer := time.NewTimer(wakeInterval)` with
`wakeInterval = math.MaxInt64`. -/
def Loop.init : Loop := ⟨.select, none, Timer.new maxInt64⟩

/-- What can happen next. -/
inductive Action
  /-- The runtime fires the timer. -/
  | expire
  /-- The worker's `select` takes a case, and the iteration runs on the input. -/
  | select (i : Input)
  /-- The worker takes its next timer operation: `Stop`, the drain or `Reset`. -/
  | proceed
deriving DecidableEq, Repr

/-- The timer after the `select` takes a case: the tick case is ready only when `C` holds a
tick, and receives it; the other two are ready at any time. -/
def selectTimer (t : Timer) : Received → Option Timer
  | .tick => t.receive.map Prod.snd
  | _ => some t

/-- One step; `none` when the action cannot happen: the worker is elsewhere, or it would block
on an empty `C`. -/
def step (cfg : Config) (s : Loop) : Action → Option Loop
  | .expire => some { s with timer := s.timer.expire }
  | .select i =>
    match s.pc with
    | .select => (selectTimer s.timer i.received).map fun timer =>
        let r := iterate cfg s.docCache i
        ⟨r.2.next, r.1, timer⟩
    | _ => none
  | .proceed =>
    match s.pc with
    | .stop true w => some { s with pc := .reset w }
    | .stop false w =>
      let r := s.timer.stop
      some { s with pc := if r.1 then .reset w else .drain w, timer := r.2 }
    | .drain w => s.timer.receive.map fun r => { s with pc := .reset w, timer := r.2 }
    | .reset w => some { s with pc := .select, timer := s.timer.reset w }
    | .select | .halted => none

/-- The states the worker and the runtime reach from `Loop.init`. -/
inductive Reachable (cfg : Config) : Loop → Prop
  | init : Reachable cfg .init
  | step {s s' : Loop} (a : Action) : Reachable cfg s → step cfg s a = some s' → Reachable cfg s'

/-- A run: the actions of a list in order. -/
def run (cfg : Config) : Loop → List Action → Option Loop
  | s, [] => some s
  | s, a :: as => (step cfg s a).bind fun s' => run cfg s' as

lemma Reachable.run {cfg : Config} {s s' : Loop} {as : List Action} (hs : Reachable cfg s)
    (h : run cfg s as = some s') : Reachable cfg s' := by
  induction as generalizing s with
  | nil => cases h; exact hs
  | cons a as ih =>
    obtain ⟨s₁, h₁, h⟩ := Option.bind_eq_some.mp h
    exact ih (hs.step a h₁) h

/-! ### What an iteration leaves -/

lemma schedule_next (timerFired : Bool) (docCache : Option Entry) (now : Option UInt64)
    (draw : UInt64) : ∃ w, (schedule timerFired docCache now draw).next = .stop timerFired w := by
  unfold schedule
  split
  · split <;> exact ⟨_, rfl⟩
  · exact ⟨_, rfl⟩

/-- The `select` step on a document: a `continue`, or on to `Stop` with the timer not fired. -/
lemma iterate_next_doc (cfg : Config) (docCache : Option Entry) {i : Input} {newEnt : Entry}
    {now : Option UInt64} (h : i.received = .doc newEnt now) :
    (iterate cfg docCache i).2.next = .select ∨
      ∃ w, (iterate cfg docCache i).2.next = .stop false w := by
  obtain ⟨r, now₂, draw⟩ := i
  subst h
  by_cases ha : accepts cfg newEnt now = true
  · exact .inr (by simpa [iterate, ha] using schedule_next false (some newEnt) now₂ draw)
  · simp [iterate, ha, Outcome.next]

/-- The `select` step on a tick: on to `Stop`, the timer fired. -/
lemma iterate_next_tick (cfg : Config) (docCache : Option Entry) {i : Input}
    (h : i.received = .tick) : ∃ w, (iterate cfg docCache i).2.next = .stop true w := by
  obtain ⟨r, now₂, draw⟩ := i
  subst h
  exact schedule_next true docCache now₂ draw

/-! ### The timer invariant -/

/-- The timer at each program point: pending or fired at the `select` and before `Stop`,
fired at the drain, idle after a received tick and at `Reset`. -/
def TimerInv (s : Loop) : Prop :=
  match s.pc with
  | .select | .stop false _ => s.timer.Pending ∨ s.timer.Fired
  | .stop true _ | .reset _ => s.timer.Idle
  | .drain _ => s.timer.Fired
  | .halted => True

lemma timerInv_init : TimerInv .init := .inl (Timer.new_pending _)

variable {cfg : Config} {s s' : Loop}

/-- An expiry keeps the invariant: a pending timer fires, any other is untouched. -/
lemma TimerInv.expire (hi : TimerInv s) : TimerInv { s with timer := s.timer.expire } := by
  by_cases ha : s.timer.active = false
  · rwa [Timer.expire_of_inactive ha]
  · have hp : s.timer.Pending → s.timer.expire.Fired := Timer.Pending.expire
    obtain ⟨pc, dc, t⟩ := s
    cases pc with
    | select => exact .inr (hi.elim hp fun h => absurd h.1 ha)
    | stop f w =>
      cases f with
      | false => exact .inr (hi.elim hp fun h => absurd h.1 ha)
      | true => exact absurd hi.1 ha
    | drain w => exact absurd hi.1 ha
    | reset w => exact absurd hi.1 ha
    | halted => trivial

/-- The `select` step keeps the invariant. A tick is received only from a fired timer, which it
leaves idle; a document leaves the timer as it is. -/
lemma TimerInv.select {i : Input} (hi : TimerInv s) (h : step cfg s (.select i) = some s') :
    TimerInv s' := by
  obtain ⟨pc, dc, t⟩ := s
  cases pc with
  | stop | drain | reset | halted => cases h
  | select => ?_
  obtain ⟨t', ht', rfl⟩ := Option.map_eq_some'.mp h
  rcases hr : i.received with _ | ⟨newEnt, now⟩ | _ <;> rw [hr] at ht' <;>
    simp only [selectTimer] at ht'
  · cases ht'
    simp [TimerInv, Outcome.next, iterate, hr]
  · cases ht'
    rcases iterate_next_doc cfg dc hr with hn | ⟨w, hn⟩ <;> simp only [TimerInv, hn] <;> exact hi
  · have hfired : t.Fired := hi.elim (fun hp => by simp [hp.receive] at ht') id
    obtain ⟨hrecv, hidle⟩ := hfired.receive
    rw [hrecv] at ht'
    cases ht'
    obtain ⟨w, hn⟩ := iterate_next_tick cfg dc hr
    simp only [TimerInv, hn]
    exact hidle

/-- A timer operation of the worker keeps the invariant: `Stop` idles a pending timer and
leaves a fired one for the drain, the drain idles a fired timer, `Reset` arms an idle one. -/
lemma TimerInv.proceed (hi : TimerInv s) (h : step cfg s .proceed = some s') :
    TimerInv s' := by
  obtain ⟨pc, dc, t⟩ := s
  cases pc with
  | select | halted => cases h
  | stop f w =>
    cases f with
    | true => cases h; exact hi
    | false =>
      cases h
      rcases hi with hp | hf
      · obtain ⟨h1, h2⟩ := hp.stop
        simp only [TimerInv, h1, if_true]
        exact h2
      · simp only [TimerInv, hf.stop, Bool.false_eq_true, if_false]
        exact hf
  | drain w =>
    obtain ⟨hrecv, hidle⟩ := Timer.Fired.receive hi
    simp only [step, hrecv, Option.map_some', Option.some.injEq] at h
    subst h
    exact hidle
  | reset w =>
    cases h
    exact .inl (Timer.Idle.reset hi w)

/-- **Every step keeps the timer invariant**, whatever the action. -/
theorem TimerInv.step {a : Action} (hi : TimerInv s)
    (h : MesonDecoy.Worker.step cfg s a = some s') :
    TimerInv s' := by
  cases a with
  | expire => cases h; exact hi.expire
  | select i => exact hi.select h
  | proceed => exact hi.proceed h

lemma Reachable.timerInv (hs : Reachable cfg s) : TimerInv s := by
  induction hs with
  | init => exact timerInv_init
  | step _ _ h ih => exact ih.step h

/-- **The timer handling of the worker is safe under every interleaving.** In every state the
worker and the runtime reach: at the drain `<-timer.C` a tick of the latest arming is pending,
so the drain does not block; at `timer.Reset` the timer is stopped or expired and `C` is empty;
and at the `select`, a tick in `C` is one of the latest arming, never a stale one. -/
theorem timer_ops_safe (cfg : Config) {s : Loop} (hs : Reachable cfg s) :
    (∀ w, s.pc = .drain w →
      s.timer.c = some s.timer.arming ∧ ∃ s', MesonDecoy.Worker.step cfg s .proceed = some s') ∧
    (∀ w, s.pc = .reset w → s.timer.active = false ∧ s.timer.c = none) ∧
    (s.pc = .select → ∀ g, s.timer.c = some g → g = s.timer.arming) := by
  have hi := hs.timerInv
  obtain ⟨pc, dc, t⟩ := s
  refine ⟨fun w hw => ?_, fun w hw => ?_, fun hw g hg => ?_⟩ <;> subst hw
  · have hf : t.Fired := hi
    refine ⟨hf.2, ?_⟩
    simp only [MesonDecoy.Worker.step, hf.receive.1, Option.map_some']
    exact ⟨_, rfl⟩
  · exact hi
  · have hi : t.Pending ∨ t.Fired := hi
    rcases hi with hp | hf
    · rw [hp.2] at hg; cases hg
    · exact Option.some.inj (hg.symm.trans hf.2)

/-! ### The timer-level worker refines the iteration-level loop -/

/-- The inputs of a run's `select` steps, in order. -/
def selectInputs : List Action → List Input
  | [] => []
  | .select i :: as => i :: selectInputs as
  | _ :: as => selectInputs as

/-- The cached document after the iterations `rs` of the loop, from `docCache`. -/
def cachedAfter (docCache : Option Entry) (rs : List (Option Entry × Outcome)) : Option Entry :=
  (rs.getLast?.map Prod.fst).getD docCache

lemma cachedAfter_cons (docCache : Option Entry) (r : Option Entry × Outcome)
    (rs : List (Option Entry × Outcome)) : cachedAfter docCache (r :: rs) = cachedAfter r.1 rs := by
  simp only [cachedAfter, List.getLast?_cons]
  cases rs.getLast? <;> rfl

/-- After `return`, only expiries happen: no `select` step, and the cached document stays. -/
lemma run_of_halted {as : List Action} :
    ∀ {s s' : Loop}, s.pc = .halted → run cfg s as = some s' →
      selectInputs as = [] ∧ s'.docCache = s.docCache := by
  induction as with
  | nil => intro s s' _ h; cases h; exact ⟨rfl, rfl⟩
  | cons a as ih =>
    intro s s' hs h
    obtain ⟨s₁, h₁, hrun⟩ := Option.bind_eq_some.mp h
    obtain ⟨pc, dc, t⟩ := s
    subst hs
    cases a with
    | expire => cases h₁; have h' := ih rfl hrun; exact h'
    | select | proceed => cases h₁

/-- A timer operation keeps the cached document, and does not return. -/
lemma proceed_docCache (h : step cfg s .proceed = some s') :
    s'.docCache = s.docCache ∧ s'.pc ≠ .halted := by
  obtain ⟨pc, dc, t⟩ := s
  cases pc with
  | select | halted => cases h
  | stop f w =>
    cases f with
    | true => cases h; simp
    | false => cases h; exact ⟨rfl, by split <;> simp⟩
  | drain w => obtain ⟨_, -, rfl⟩ := Option.map_eq_some'.mp h; simp
  | reset w => cases h; simp

lemma run_docCache {as : List Action} :
    ∀ {s s' : Loop}, s.pc ≠ .halted → run cfg s as = some s' →
      s'.docCache = cachedAfter s.docCache (loop cfg s.docCache (selectInputs as)) := by
  induction as with
  | nil => intro s s' _ h; cases h; rfl
  | cons a as ih =>
    intro s s' hs h
    obtain ⟨s₁, h₁, hrun⟩ := Option.bind_eq_some.mp h
    cases a with
    | expire => cases h₁; exact ih (s := { s with timer := s.timer.expire }) hs hrun
    | proceed =>
      obtain ⟨hdc, hpc⟩ := proceed_docCache h₁
      rw [ih hpc hrun, hdc]
      rfl
    | select i =>
      obtain ⟨pc, dc, t⟩ := s
      cases pc with
      | stop | drain | reset | halted => cases h₁
      | select =>
        obtain ⟨t', -, rfl⟩ := Option.map_eq_some'.mp h₁
        simp only [selectInputs, loop, cachedAfter_cons]
        split
        · next hhalt =>
          have hpc : (iterate cfg dc i).2.next = .halted := by rw [hhalt]; rfl
          exact (run_of_halted hpc hrun).2
        · next hhalt =>
          refine ih ?_ hrun
          show (iterate cfg dc i).2.next ≠ .halted
          cases ho : (iterate cfg dc i).2 <;> simp_all [Outcome.next]

/-- After any run from `Loop.init`, with expiries between any two steps, the cached document is
the one `worker` has after the inputs of the run's `select` steps; so it is nil or a document one
of them received and accepted. -/
lemma run_init_docCache {as : List Action} {s : Loop} (h : run cfg .init as = some s) :
    s.docCache = cachedAfter none (worker cfg (selectInputs as)) ∧
      (s.docCache = none ∨ ∃ ent, s.docCache = some ent ∧ cfg.sendDecoyTraffic = true ∧
        cfg.isProvider = false ∧
        ∃ i ∈ selectInputs as, i.received = .doc ent (some ent.epoch)) := by
  have hdoc : s.docCache = cachedAfter none (worker cfg (selectInputs as)) :=
    run_docCache (by simp [Loop.init]) h
  refine ⟨hdoc, ?_⟩
  rw [hdoc, cachedAfter]
  cases hl : (worker cfg (selectInputs as)).getLast? with
  | none => exact .inl rfl
  | some r =>
    obtain ⟨k, hk⟩ : ∃ k, (worker cfg (selectInputs as))[k]? = some r := by
      rw [List.getLast?_eq_getElem?] at hl
      exact ⟨_, hl⟩
    rcases loop_docCache hk with h0 | ⟨ent, he, hs, hp, j, -, i, hi, hr⟩
    · exact .inl h0
    · exact .inr ⟨ent, he, hs, hp, i, List.mem_iff_getElem?.mpr ⟨j, hi⟩, hr⟩

/-- A document accepted while the tick is pending: the worker reaches the drain, and it does
not block there. -/
theorem timer_ops_safe_drain :
    ∃ s, Reachable ⟨true, false⟩ s ∧ ∃ w, s.pc = .drain w ∧
      s.timer.c = some s.timer.arming ∧ ∃ s', step ⟨true, false⟩ s .proceed = some s' :=
  have hrun : run ⟨true, false⟩ .init
      [.expire, .select ⟨.doc ⟨3, 100⟩ (some 3), some 3, 7⟩, .proceed] =
      some ⟨.drain (wakeInterval ⟨3, 100⟩ 7), some ⟨3, 100⟩, ⟨false, 0, maxInt64, some 0⟩⟩ := rfl
  have hs := Reachable.init.run hrun
  ⟨_, hs, _, rfl, timer_ops_safe _ hs |>.1 _ rfl⟩

end Worker

end MesonDecoy
